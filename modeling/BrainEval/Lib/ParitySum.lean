import Mathlib

set_option autoImplicit false

namespace ParitySum

variable {G : Type} [DecidableEq G]

def odds (l : List G) : Finset G := l.toFinset.filter fun g => Odd (l.count g)

@[simp] theorem mem_odds {l : List G} {g : G} : g ∈ odds l ↔ Odd (l.count g) := by
  rw [odds, Finset.mem_filter, List.mem_toFinset, and_iff_right_iff_imp]
  exact fun odd => List.count_pos_iff.mp odd.pos

variable [AddCommGroup G]

-- No sum of distinct elements of the set is zero, the empty sum apart.
def Independent (S : Set G) : Prop := ∀ T : Finset G, ↑T ⊆ S → ∑ g ∈ T, g = 0 → T = ∅

-- The elements that the two lists do not hold with the same parity do not add up to zero.
def Apart (l l' : List G) : Prop :=
  ∑ g ∈ symmDiff (odds l) (odds l'), g = 0 → symmDiff (odds l) (odds l') = ∅

theorem Independent.apart {l l' : List G} (independent : Independent {g | g ∈ l ∨ g ∈ l'}) :
    Apart l l' := by
  apply independent
  intro g member
  rcases Finset.mem_symmDiff.mp member with ⟨left, -⟩ | ⟨right, -⟩
  · exact Or.inl (List.count_pos_iff.mp (mem_odds.mp left).pos)
  · exact Or.inr (List.count_pos_iff.mp (mem_odds.mp right).pos)

section Halves

variable (halves : ∀ g : G, g + g = 0)

include halves

omit [DecidableEq G] in
theorem nsmul_eq (n : ℕ) (g : G) : n • g = if Odd n then g else 0 := by
  rcases Nat.even_or_odd n with even | odd
  · obtain ⟨m, rfl⟩ := even
    rw [if_neg (by simp), add_smul, halves]
  · obtain ⟨m, rfl⟩ := odd
    rw [if_pos (by simp), add_smul, one_smul, two_mul, add_smul, halves, zero_add]

theorem sum_eq_odds (l : List G) : l.sum = ∑ g ∈ odds l, g := by
  rw [Finset.sum_list_count, odds, Finset.sum_filter]
  exact Finset.sum_congr rfl fun g _ => nsmul_eq halves _ g

theorem sum_symmDiff (s t : Finset G) :
    ∑ g ∈ symmDiff s t, g = ∑ g ∈ s, g + ∑ g ∈ t, g := by
  have left : ∑ g ∈ s ∩ t, g + ∑ g ∈ s \ t, g = ∑ g ∈ s, g := Finset.sum_inter_add_sum_sdiff s t _
  have right : ∑ g ∈ t ∩ s, g + ∑ g ∈ t \ s, g = ∑ g ∈ t, g := Finset.sum_inter_add_sum_sdiff t s _
  rw [symmDiff_def, Finset.sup_eq_union, Finset.sum_union disjoint_sdiff_sdiff, ← left, ← right,
    Finset.inter_comm t s]
  -- what the two sums share cancels
  calc
    _ = ∑ g ∈ s \ t, g + ∑ g ∈ t \ s, g + 0 := (add_zero _).symm
    _ = ∑ g ∈ s \ t, g + ∑ g ∈ t \ s, g + (∑ g ∈ s ∩ t, g + ∑ g ∈ s ∩ t, g) := by rw [halves]
    _ = _ := by abel

-- A sum tells such lists from each other up to pairs of equal elements.
theorem sum_eq_iff {l l' : List G} (apart : Apart l l') :
    l.sum = l'.sum ↔ ∀ g, Odd (l.count g) ↔ Odd (l'.count g) := by
  rw [sum_eq_odds halves, sum_eq_odds halves]
  constructor
  · intro same
    have nothing : symmDiff (odds l) (odds l') = ∅ :=
      apart (by rw [sum_symmDiff halves, same, halves])
    intro g
    rw [← mem_odds, ← mem_odds, symmDiff_eq_bot.mp nothing]
  · intro parities
    congr 1
    ext g
    rw [mem_odds, mem_odds, parities g]

theorem independent_pair {g h : G} (left : g ≠ 0) (right : h ≠ 0) (other : g ≠ h) :
    Independent {g, h} := by
  intro T inside zero
  rcases Set.subset_pair_iff_eq.mp inside with empty | one | one | both
  · exact Finset.coe_eq_empty.mp empty
  · obtain rfl : T = {g} := by exact_mod_cast one
    exact absurd ((Finset.sum_singleton _ _).symm.trans zero) left
  · obtain rfl : T = {h} := by exact_mod_cast one
    exact absurd ((Finset.sum_singleton _ _).symm.trans zero) right
  · obtain rfl : T = {g, h} := by exact_mod_cast both
    rw [Finset.sum_pair other] at zero
    exact absurd (add_right_cancel (zero.trans (halves h).symm)) other

end Halves

section Counts

variable {α β : Type} [DecidableEq α] [DecidableEq β]

theorem count_map_of_injOn {f : α → β} {S : Set α}
    (injective : Set.InjOn f S) {l : List α} (all : ∀ x ∈ l, x ∈ S) {c : α} (inside : c ∈ S) :
    (l.map f).count (f c) = l.count c := by
  rw [List.count, List.countP_map, List.count]
  apply List.countP_congr
  intro x member
  simpa using injective.eq_iff (all x member) inside

omit [DecidableEq α] in
theorem count_map_of_foreign {f : α → β} {l : List α} {g : β} (foreign : ∀ x ∈ l, f x ≠ g) :
    (l.map f).count g = 0 := by
  apply List.count_eq_zero.mpr
  intro member
  obtain ⟨x, listed, same⟩ := List.mem_map.mp member
  exact foreign x listed same

-- Renaming without clashes keeps the parities.
theorem odd_count_map_iff {f : α → β} {l l' : List α}
    (injective : Set.InjOn f {x | x ∈ l ∨ x ∈ l'}) :
    (∀ g, Odd ((l.map f).count g) ↔ Odd ((l'.map f).count g)) ↔
      ∀ c, Odd (l.count c) ↔ Odd (l'.count c) := by
  have renamed : ∀ c, c ∈ l ∨ c ∈ l' →
      (l.map f).count (f c) = l.count c ∧ (l'.map f).count (f c) = l'.count c :=
    fun c inside => ⟨count_map_of_injOn injective (fun _ => Or.inl) inside,
      count_map_of_injOn injective (fun _ => Or.inr) inside⟩
  constructor
  · intro parities c
    by_cases inside : c ∈ l ∨ c ∈ l'
    next =>
      obtain ⟨left, right⟩ := renamed c inside
      rw [← left, ← right, parities]
    next =>
      obtain ⟨left, right⟩ := not_or.mp inside
      rw [List.count_eq_zero.mpr left, List.count_eq_zero.mpr right]
  · intro parities g
    by_cases inside : ∃ c, (c ∈ l ∨ c ∈ l') ∧ f c = g
    next =>
      obtain ⟨c, inside, rfl⟩ := inside
      obtain ⟨left, right⟩ := renamed c inside
      rw [left, right, parities]
    next =>
      have left : (l.map f).count g = 0 :=
        count_map_of_foreign fun c listed same => inside ⟨c, Or.inl listed, same⟩
      have right : (l'.map f).count g = 0 :=
        count_map_of_foreign fun c listed same => inside ⟨c, Or.inr listed, same⟩
      rw [left, right]

theorem perm_iff_odd_counts {l l' : List α} (distinct : l.Nodup) :
    l.Perm l' ↔ l.length = l'.length ∧ ∀ c, Odd (l.count c) ↔ Odd (l'.count c) := by
  constructor
  · exact fun perm => ⟨perm.length_eq, fun c => by rw [perm.count_eq]⟩
  · rintro ⟨lengths, parities⟩
    have inside : l ⊆ l' := by
      intro c member
      have once : Odd (l.count c) := by
        rw [List.count_eq_one_of_mem distinct member]
        exact odd_one
      exact List.count_pos_iff.mp ((parities c).mp once).pos
    exact (List.subperm_of_subset distinct inside).perm_of_length_le lengths.ge

end Counts

end ParitySum
