import Mathlib

set_option autoImplicit false

namespace Grouping

open Std

variable {α β κ μ : Type} [Ord κ]

-- `map.entry(key).or_default().push(value)` for every item, in order.
def groupBy (key : α → κ) (value : α → β) (items : List α) : TreeMap κ (List β) :=
  items.foldl (fun groups item =>
    groups.alter (key item) fun slot => some (slot.getD [] ++ [value item])) ∅

variable [TransOrd κ] [LawfulEqOrd κ] [DecidableEq κ]

def members (key : α → κ) (value : α → β) (items : List α) (k : κ) : List β :=
  (items.filter (key · = k)).map value

omit [Ord κ] [TransOrd κ] [LawfulEqOrd κ] in
@[simp] theorem members_cons (key : α → κ) (value : α → β) (item : α) (items : List α) (k : κ) :
    members key value (item :: items) k =
      if key item = k then value item :: members key value items k
      else members key value items k := by
  by_cases same : key item = k <;> simp [members, same]

theorem foldl_getElem? (key : α → κ) (value : α → β) (items : List α)
    (groups : TreeMap κ (List β)) (k : κ) :
    (items.foldl (fun groups item =>
      groups.alter (key item) fun slot => some (slot.getD [] ++ [value item])) groups)[k]? =
      if members key value items k = [] then groups[k]?
      else some (groups[k]?.getD [] ++ members key value items k) := by
  induction items generalizing groups with
  | nil => simp [members]
  | cons item items ih =>
    rw [List.foldl_cons, ih, TreeMap.getElem?_alter, members_cons]
    simp only [Std.compare_eq_iff_eq]
    by_cases same : key item = k
    · subst same
      by_cases rest : members key value items (key item) = [] <;> simp [rest]
    · simp [same]

theorem groupBy_getElem? (key : α → κ) (value : α → β) (items : List α) (k : κ) :
    (groupBy key value items)[k]? =
      if members key value items k = [] then none else some (members key value items k) := by
  rw [groupBy, foldl_getElem?]
  simp

theorem mem_toList {key : α → κ} {value : α → β} {items : List α} {k : κ} {group : List β} :
    (k, group) ∈ (groupBy key value items).toList ↔
      group = members key value items k ∧ group ≠ [] := by
  rw [TreeMap.mem_toList_iff_getElem?_eq_some, groupBy_getElem?]
  by_cases empty : members key value items k = []
  · simp_all
  · simp only [empty, if_false, Option.some.injEq]
    constructor
    · rintro rfl
      exact ⟨rfl, empty⟩
    · rintro ⟨rfl, _⟩
      rfl

theorem toList_eq (key : α → κ) (value : α → β) (items : List α) :
    (groupBy key value items).toList =
      (groupBy key value items).keys.map fun k => (k, members key value items k) := by
  rw [← TreeMap.map_fst_toList_eq_keys, List.map_map]
  symm
  calc
    _ = (groupBy key value items).toList.map id := by
      apply List.map_congr_left
      rintro ⟨k, group⟩ member
      simp [(mem_toList.mp member).1]
    _ = _ := List.map_id _

theorem mem_keys {key : α → κ} {value : α → β} {items : List α} {k : κ} :
    k ∈ (groupBy key value items).keys ↔ ∃ item ∈ items, key item = k := by
  rw [TreeMap.mem_keys, TreeMap.mem_iff_isSome_getElem?, groupBy_getElem?]
  by_cases empty : members key value items k = []
  · simp only [empty, if_true, Option.isSome_none, Bool.false_eq_true, false_iff]
    simpa [members] using empty
  · simp only [empty, if_false, Option.isSome_some, true_iff]
    simpa [members] using empty

omit [DecidableEq κ] in
theorem keys_nodup (groups : TreeMap κ β) : groups.keys.Nodup := by
  refine groups.ordered_keys.imp ?_
  rintro a _ less rfl
  simp at less

theorem keys_perm (key : α → κ) (value : α → β) {items other : List α} (perm : items.Perm other) :
    (groupBy key value items).keys = (groupBy key value other).keys := by
  have same : (groupBy key value items).keys.Perm (groupBy key value other).keys := by
    rw [List.perm_ext_iff_of_nodup (keys_nodup _) (keys_nodup _)]
    intro k
    rw [mem_keys, mem_keys]
    exact exists_congr fun item => and_congr_left' perm.mem_iff
  refine same.eq_of_pairwise ?_ (groupBy key value items).ordered_keys
    (groupBy key value other).ordered_keys
  intro a b _ _ less more
  rw [OrientedOrd.eq_swap, more] at less
  cases less

omit [Ord κ] [TransOrd κ] [LawfulEqOrd κ] in
theorem flatMap_filter_perm (key : α → κ) (keys : List κ) (items : List α)
    (distinct : keys.Nodup) (covered : ∀ item ∈ items, key item ∈ keys) :
    (keys.flatMap fun k => items.filter (key · = k)).Perm items := by
  induction keys generalizing items with
  | nil =>
    have empty : items = [] := List.eq_nil_iff_forall_not_mem.mpr fun item member => by
      simpa using covered item member
    simp [empty]
  | cons k keys ih =>
    -- the items of the first key leave, the rest is covered by the other keys
    obtain ⟨fresh, distinct⟩ := List.nodup_cons.mp distinct
    have rest : (keys.flatMap fun k' => items.filter (key · = k')).Perm
        (items.filter fun item => !decide (key item = k)) := by
      refine List.Perm.trans (List.Perm.of_eq ?_)
        (ih (items.filter fun item => !decide (key item = k)) distinct ?_)
      · apply List.flatMap_congr
        intro k' member
        rw [List.filter_filter]
        apply List.filter_congr
        intro item _
        by_cases same : key item = k'
        · have other : k' ≠ k := fun h => fresh (h ▸ member)
          simp [same, other]
        · simp [same]
      · intro item member
        simp only [List.mem_filter, Bool.not_eq_true', decide_eq_false_iff_not] at member
        exact (List.mem_cons.mp (covered item member.1)).resolve_left member.2
    rw [List.flatMap_cons]
    exact (List.Perm.append_left _ rest).trans (List.filter_append_perm _ items)

-- The groups, read in key order, hold every value once.
theorem flatMap_toList_perm (key : α → κ) (value : α → β) (items : List α) :
    ((groupBy key value items).toList.flatMap Prod.snd).Perm (items.map value) := by
  have split := flatMap_filter_perm key (groupBy key value items).keys items (keys_nodup _)
    fun item member => mem_keys.mpr ⟨item, member, rfl⟩
  have mapped := split.map value
  rw [List.map_flatMap] at mapped
  rw [toList_eq, List.flatMap_map]
  exact mapped

-- Counting a weight once for each copy adds nothing exactly when only weightless items repeat.
theorem sum_copies_eq_iff {items : List α} (copies weight : α → Nat)
    (present : ∀ item ∈ items, 0 < copies item) :
    (items.map fun item => copies item * weight item).sum = (items.map weight).sum ↔
      ∀ item ∈ items, 2 ≤ copies item → weight item = 0 := by
  have atLeast : ∀ item ∈ items, weight item ≤ copies item * weight item := fun item member =>
    Nat.le_mul_of_pos_left _ (present item member)
  induction items with
  | nil => simp
  | cons item items ih =>
    obtain ⟨here, rest⟩ := List.forall_mem_cons.mp atLeast
    obtain ⟨some, others⟩ := List.forall_mem_cons.mp present
    have below : (items.map weight).sum ≤ (items.map fun item => copies item * weight item).sum :=
      List.sum_le_sum rest
    have single : copies item * weight item = weight item ↔
        (2 ≤ copies item → weight item = 0) := by
      constructor
      · intro same repeated
        by_contra heavy
        have more : 2 * weight item ≤ copies item * weight item := Nat.mul_le_mul_right _ repeated
        omega
      · intro light
        by_cases repeated : 2 ≤ copies item
        · simp [light repeated]
        · obtain one : copies item = 1 := by omega
          simp [one]
    rw [List.map_cons, List.sum_cons, List.map_cons, List.sum_cons, List.forall_mem_cons]
    refine Iff.trans ?_ (and_congr single (ih others rest))
    omega

omit [Ord κ] [TransOrd κ] [LawfulEqOrd κ] [DecidableEq κ] in
-- Of items of which one at most is right, a test counts just the right one when it passes no other.
theorem countP_eq_one_iff {items : List α} {test : α → Bool} {Right : α → Prop}
    [Decidable (∃ item ∈ items, Right item)] (distinct : items.Nodup)
    (passes : ∀ item ∈ items, Right item → test item = true)
    (unique : ∀ a b, Right a → Right b → a = b) :
    (items.countP test = if ∃ item ∈ items, Right item then 1 else 0) ↔
      ∀ item ∈ items, test item = true → Right item := by
  rw [List.countP_eq_length_filter]
  by_cases present : ∃ item ∈ items, Right item
  · obtain ⟨known, member, right⟩ := present
    have found : known ∈ items.filter test :=
      List.mem_filter.mpr ⟨member, passes known member right⟩
    rw [if_pos ⟨known, member, right⟩]
    constructor
    · intro one item inside passed
      obtain ⟨only, same⟩ := List.length_eq_one_iff.mp one
      have also : item ∈ items.filter test := List.mem_filter.mpr ⟨inside, passed⟩
      rw [same, List.mem_singleton] at found also
      rwa [also, ← found]
    · intro sound
      have within : items.filter test ⊆ [known] := fun item also => by
        obtain ⟨inside, passed⟩ := List.mem_filter.mp also
        exact List.mem_singleton.mpr (unique item known (sound item inside passed) right)
      have short := ((distinct.filter _).subperm within).length_le
      have long := List.length_pos_of_mem found
      simp only [List.length_singleton] at short
      omega
  · rw [if_neg present, List.length_eq_zero_iff, List.filter_eq_nil_iff]
    constructor
    · exact fun none item inside passed => absurd passed (none item inside)
    · exact fun sound item inside passed => present ⟨item, inside, sound item inside passed⟩

-- Distinct keys: no pair overwrites another.
theorem toList_ofList_perm (pairs : List (κ × β)) (distinct : (pairs.map Prod.fst).Nodup) :
    (TreeMap.ofList pairs).toList.Perm pairs := by
  have apart : pairs.Pairwise fun a b => ¬ compare a.1 b.1 = .eq := by
    rw [List.Nodup, List.pairwise_map] at distinct
    exact distinct.imp fun ne same => ne (Std.compare_eq_iff_eq.mp same)
  have listed : (TreeMap.ofList pairs).toList.Nodup := by
    refine (TreeMap.ordered_keys_toList (t := TreeMap.ofList pairs)).imp ?_
    rintro a _ less rfl
    simp at less
  rw [List.perm_ext_iff_of_nodup listed (List.Nodup.of_map _ distinct)]
  rintro ⟨k, v⟩
  rw [TreeMap.mem_toList_iff_getElem?_eq_some]
  constructor
  · intro bound
    by_cases known : k ∈ pairs.map Prod.fst
    · obtain ⟨⟨k', v'⟩, member, rfl⟩ := List.mem_map.mp known
      have same := TreeMap.getElem?_ofList_of_mem (Std.compare_eq_iff_eq.mpr rfl) apart member
      rw [bound, Option.some.injEq] at same
      exact same ▸ member
    · have absent : (pairs.map Prod.fst).contains k = false := by
        rw [← Bool.not_eq_true, List.contains_iff_mem]
        exact known
      rw [TreeMap.getElem?_ofList_of_contains_eq_false absent] at bound
      simp at bound
  · exact TreeMap.getElem?_ofList_of_mem (Std.compare_eq_iff_eq.mpr rfl) apart

end Grouping
