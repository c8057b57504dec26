import Mathlib

set_option autoImplicit false

namespace SortBy

variable {α β κ : Type} [LinearOrder κ]

def ByKey (key : α → κ) (a b : α) : Prop := key a ≤ key b

instance (key : α → κ) : DecidableRel (ByKey key) :=
  fun a b => inferInstanceAs (Decidable (key a ≤ key b))

instance (key : α → κ) : Std.Total (ByKey key) := ⟨fun a b => le_total (key a) (key b)⟩

instance (key : α → κ) : IsTrans α (ByKey key) := ⟨fun _ _ _ => le_trans⟩

-- The stable `sort_by_key`: an item goes before the first later one whose key is not below.
def sortByKey (key : α → κ) (items : List α) : List α := items.insertionSort (ByKey key)

theorem sortByKey_perm (key : α → κ) (items : List α) : (sortByKey key items).Perm items :=
  List.perm_insertionSort _ items

theorem sortByKey_pairwise (key : α → κ) (items : List α) :
    (sortByKey key items).Pairwise (ByKey key) :=
  List.pairwise_insertionSort _ items

@[simp] theorem mem_sortByKey {key : α → κ} {items : List α} {item : α} :
    item ∈ sortByKey key items ↔ item ∈ items :=
  (sortByKey_perm key items).mem_iff

theorem sortByKey_unique {key : α → κ} {items sorted : List α} (perm : items.Perm sorted)
    (ordered : sorted.Pairwise (ByKey key))
    (separates : ∀ a ∈ sorted, ∀ b ∈ sorted, key a = key b → a = b) :
    sortByKey key items = sorted := by
  have sortedPerm := (sortByKey_perm key items).trans perm
  refine List.Perm.eq_of_pairwise ?_ (sortByKey_pairwise key items)
    ordered sortedPerm
  intro a b left right ab ba
  exact separates a (sortedPerm.subset left) b right (le_antisymm ab ba)

-- Distinct keys make the sorted list a function of the multiset: the arrival order is erased.
theorem sortByKey_eq_of_perm {key : α → κ} {items other : List α}
    (perm : items.Perm other) (distinct : (items.map key).Nodup) :
    sortByKey key items = sortByKey key other := by
  apply sortByKey_unique (perm.trans (sortByKey_perm key other).symm) (sortByKey_pairwise key other)
  intro a left b right same
  exact List.inj_on_of_nodup_map distinct (perm.mem_iff.mpr (mem_sortByKey.mp left))
    (perm.mem_iff.mpr (mem_sortByKey.mp right)) same

theorem sortByKey_strict {key : α → κ} {items : List α} (distinct : (items.map key).Nodup) :
    (sortByKey key items).Pairwise fun a b => key a < key b := by
  have sortedDistinct : ((sortByKey key items).map key).Nodup :=
    ((sortByKey_perm key items).map key).nodup_iff.mpr distinct
  rw [List.Nodup, List.pairwise_map] at sortedDistinct
  exact (sortByKey_pairwise key items).imp₂ (fun _ _ le ne => lt_of_le_of_ne le ne) sortedDistinct

-- A block in key order before a block in index order counts up exactly when the first block is
-- closed downwards and its keys never fall.
theorem append_eq_range_iff (key : ℕ → κ) {first last : List ℕ} {n : ℕ}
    (perm : (first ++ last).Perm (List.range n))
    (keyed : first.Pairwise fun a b => key a < key b ∨ key a = key b ∧ a < b)
    (indexed : last.Pairwise (· < ·)) :
    first ++ last = List.range n ↔ ∀ i j, i < j → j ∈ first → i ∈ first ∧ key i ≤ key j := by
  have within : ∀ i ∈ first ++ last, i < n := fun i member =>
    List.mem_range.mp (perm.mem_iff.mp member)
  constructor
  · intro same i j less inFirst
    have counted : (first ++ last).Pairwise (· < ·) := same ▸ List.pairwise_lt_range
    rw [List.pairwise_append] at counted
    obtain ⟨firstCounted, _, across⟩ := counted
    have inside : i ∈ first := by
      have below : i < n := less.trans (within j (List.mem_append_left _ inFirst))
      rcases List.mem_append.mp (perm.mem_iff.mpr (List.mem_range.mpr below)) with left | right
      · exact left
      · exact absurd (across j inFirst i right) (by omega)
    refine ⟨inside, ?_⟩
    have rising : first.Pairwise fun a b => a < b → key a ≤ key b :=
      keyed.imp fun order _ => order.elim le_of_lt fun tie => tie.1.le
    have flipped : first.Pairwise (flip fun a b => a < b → key a ≤ key b) :=
      firstCounted.imp fun less greater => absurd greater (by omega)
    exact rising.forall_of_forall_of_flip (fun _ _ loop => absurd loop (lt_irrefl _)) flipped
      inside inFirst less
  · intro closed
    refine List.Perm.eq_of_pairwise (fun a b _ _ ab ba => ?_) ?_ List.pairwise_lt_range perm
    · omega
    · rw [List.pairwise_append]
      refine ⟨?_, indexed, ?_⟩
      -- inside the first block a later index cannot have the smaller key
      · refine keyed.imp_of_mem ?_
        rintro a b left right (less | ⟨_, less⟩)
        · by_contra later
          rcases Nat.lt_or_eq_of_le (Nat.le_of_not_lt later) with greater | rfl
          · exact absurd (closed b a greater left).2 (not_le_of_gt less)
          · exact lt_irrefl _ less
        · exact less
      · intro a left b right
        have apart := List.disjoint_of_nodup_append (perm.nodup_iff.mpr List.nodup_range)
        rcases lt_trichotomy a b with less | rfl | greater
        · exact less
        · exact absurd right (apart left)
        · exact absurd right (apart (closed b a greater left).1)

-- A sorted list is in the order of another key exactly when that key agrees with its order.
theorem pairwise_map_lt_iff [LinearOrder α] {items : List α} (sorted : items.Pairwise (· < ·))
    (key : α → κ) (separates : ∀ a ∈ items, ∀ b ∈ items, key a = key b → a = b) :
    (items.map key).Pairwise (· < ·) ↔ ∀ a ∈ items, ∀ b ∈ items, key a < key b → a < b := by
  rw [List.pairwise_map]
  constructor
  · intro keyed
    let Agree (a b : α) : Prop := (a < b ∧ key a < key b) ∨ (b < a ∧ key b < key a)
    have : Std.Symm Agree := ⟨fun _ _ => Or.symm⟩
    have both : items.Pairwise Agree :=
      sorted.imp₂ (fun _ _ less keyLess => Or.inl ⟨less, keyLess⟩) keyed
    intro a left b right keyLess
    have differ : a ≠ b := by
      rintro rfl
      exact lt_irrefl _ keyLess
    rcases both.forall left right differ with ⟨less, _⟩ | ⟨_, keyGreater⟩
    · exact less
    · exact absurd keyGreater (lt_asymm keyLess)
  · intro agree
    refine sorted.imp_of_mem fun {a b} left right less => ?_
    rcases lt_trichotomy (key a) (key b) with keyLess | same | keyGreater
    · exact keyLess
    · exact absurd less (separates a left b right same ▸ lt_irrefl a)
    · exact absurd (agree b right a left keyGreater) (lt_asymm less)

end SortBy
