import Mathlib
import BrainEval.Lib.Grouping

set_option autoImplicit false

namespace Encounter

open Std Grouping

variable {α β κ : Type}

section Seen

variable [DecidableEq κ]

/-- The keys in the order in which they are first met. -/
def firstSeen : List κ → List κ
  | [] => []
  | k :: ks => k :: (firstSeen ks).filter (· ≠ k)

theorem mem_firstSeen {ks : List κ} {k : κ} : k ∈ firstSeen ks ↔ k ∈ ks := by
  induction ks with
  | nil => rfl
  | cons first ks ih =>
    by_cases same : k = first
    next => simp [firstSeen, same]
    next => simp [firstSeen, same, ih]

theorem nodup_firstSeen (ks : List κ) : (firstSeen ks).Nodup := by
  induction ks with
  | nil => exact List.nodup_nil
  | cons first ks ih =>
    rw [firstSeen, List.nodup_cons]
    exact ⟨by simp, ih.filter _⟩

end Seen

section Cut

variable {key : β → κ} {group : κ → List β}

theorem head_key (tagged : ∀ k, ∀ x ∈ group k, key x = k) {k : κ} {order : List κ} {n : ℕ}
    (positive : 0 < n) (some : group k ≠ []) :
    (((k :: order).flatMap group).take n).head?.map key = Option.some k := by
  obtain ⟨x, rest, found⟩ := List.exists_cons_of_ne_nil some
  obtain ⟨m, rfl⟩ := Nat.exists_eq_succ_of_ne_zero positive.ne'
  have member : x ∈ group k := by simp [found]
  simp [found, tagged k x member]

theorem take_cons_flatMap_eq_iff (k : κ) (order order' : List κ) (n : ℕ) :
    ((k :: order).flatMap group).take n = ((k :: order').flatMap group).take n ↔
      (order.flatMap group).take (n - (group k).length) =
        (order'.flatMap group).take (n - (group k).length) := by
  rw [List.flatMap_cons, List.flatMap_cons, List.take_append, List.take_append,
    List.append_right_inj]

end Cut

section Order

variable [LinearOrder κ] {key : β → κ} {group : κ → List β}

-- Every key that a cut at `n` reaches comes before all that follow it.
def SortedWithin (group : κ → List β) (n : ℕ) (order : List κ) : Prop :=
  ∀ front k back, order = front ++ k :: back → (front.flatMap group).length < n →
    ∀ later ∈ back, k < later

theorem sortedWithin_nil (n : ℕ) : SortedWithin group n [] := by
  intro front k back split
  simp at split

theorem sortedWithin_cons {k : κ} {order : List κ} {n : ℕ} (positive : 0 < n) :
    SortedWithin group n (k :: order) ↔
      (∀ later ∈ order, k < later) ∧ SortedWithin group (n - (group k).length) order := by
  constructor
  next =>
    intro within
    refine ⟨within [] k order rfl (by simpa using positive), ?_⟩
    intro front c back split reached
    apply within (k :: front) c back (by rw [split, List.cons_append])
    rw [List.flatMap_cons, List.length_append]
    omega
  next =>
    rintro ⟨least, within⟩ front c back split reached
    cases front with
    | nil =>
      obtain ⟨rfl, rfl⟩ := List.cons.inj split
      exact least
    | cons first front =>
      obtain ⟨rfl, rest⟩ := List.cons.inj split
      rw [List.flatMap_cons, List.length_append] at reached
      exact within front c back rest (by omega)

-- Cut at `n`, a concatenation in sorted order is the one in another order exactly when that order
-- is sorted as far as the cut reaches.
theorem take_flatMap_eq_iff {sorted order : List κ} (ordered : sorted.Pairwise (· < ·))
    (same : sorted.Perm order) (tagged : ∀ k, ∀ x ∈ group k, key x = k)
    (nonempty : ∀ k ∈ order, group k ≠ []) (n : ℕ) :
    (sorted.flatMap group).take n = (order.flatMap group).take n ↔ SortedWithin group n order := by
  induction order generalizing sorted n with
  | nil => simp [same.eq_nil, sortedWithin_nil]
  | cons k order ih =>
    obtain ⟨some, nonempty'⟩ := List.forall_mem_cons.mp nonempty
    rcases Nat.eq_zero_or_pos n with rfl | positive
    next => simp [SortedWithin]
    next =>
      rcases sorted with _ | ⟨first, sorted⟩
      next => simp at same
      next =>
        obtain ⟨before, ordered'⟩ := List.pairwise_cons.mp ordered
        -- the first key is the least
        by_cases least : first = k
        next =>
          subst least
          have rest : sorted.Perm order := List.perm_cons first |>.mp same
          have below : ∀ later ∈ order, first < later := fun later member =>
            before later (rest.mem_iff.mpr member)
          rw [take_cons_flatMap_eq_iff, sortedWithin_cons positive, ih ordered' rest nonempty',
            and_iff_right below]
        next =>
          constructor
          next =>
            intro equal
            have heads : (((first :: sorted).flatMap group).take n).head?.map key =
                Option.some first :=
              head_key tagged positive (nonempty first (same.mem_iff.mp List.mem_cons_self))
            rw [equal, head_key tagged positive some] at heads
            exact absurd (Option.some_inj.mp heads).symm least
          next =>
            intro within
            have inOrder : first ∈ order :=
              (List.mem_cons.mp (same.mem_iff.mp List.mem_cons_self)).resolve_left least
            have inSorted : k ∈ sorted := (List.mem_cons.mp
              (same.mem_iff.mpr List.mem_cons_self)).resolve_left (Ne.symm least)
            have above := ((sortedWithin_cons positive).mp within).1 first inOrder
            exact absurd (before k inSorted) (lt_asymm above)

end Order

section Groups

variable [Ord κ] [TransOrd κ] [LawfulEqOrd κ] [DecidableEq κ]

theorem keys_perm_firstSeen (key : α → κ) (value : α → β) (items : List α) :
    (groupBy key value items).keys.Perm (firstSeen (items.map key)) := by
  rw [List.perm_ext_iff_of_nodup (keys_nodup _) (nodup_firstSeen _)]
  intro k
  rw [mem_keys, mem_firstSeen, List.mem_map]

end Groups

end Encounter
