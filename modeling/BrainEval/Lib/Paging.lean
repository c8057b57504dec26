import Mathlib

set_option autoImplicit false

namespace Paging

variable {P R : Type}

/-- The pages a walk reads, up to the first at which it stops; `none` while it asks for more. -/
def readPages (stops : P → Bool) : List P → Option (List P)
  | [] => none
  | page :: pages => if stops page then some [page] else (readPages stops pages).map (page :: ·)

theorem readPages_of_stops {stops : P → Bool} {page : P} (here : stops page = true)
    (pages : List P) : readPages stops (page :: pages) = some [page] :=
  if_pos here

theorem readPages_of_goes_on {stops : P → Bool} {page : P} (here : ¬ stops page = true)
    (pages : List P) :
    readPages stops (page :: pages) = (readPages stops pages).map (page :: ·) :=
  if_neg here

theorem readPages_map {Q : Type} (f : Q → P) (stops : P → Bool) (pages : List Q) :
    readPages stops (pages.map f) =
      (readPages (fun page => stops (f page)) pages).map (·.map f) := by
  induction pages with
  | nil => rfl
  | cons page pages ih =>
    by_cases here : stops (f page) = true
    next => simp [readPages, here]
    next => simp [readPages, here, ih, Function.comp_def]

def Reaches (stops : P → Bool) (pages : List P) (page : P) : Prop :=
  ∃ front back, pages = front ++ page :: back ∧ ∀ earlier ∈ front, stops earlier = false

/-- A page that one walk gets to past a page at which another stops. -/
def Overruns (early late : P → Bool) (pages : List P) (page : P) : Prop :=
  ∃ front back, pages = front ++ page :: back ∧ (∀ earlier ∈ front, late earlier = false) ∧
    ∃ earlier ∈ front, early earlier = true

theorem exists_readPages {stops : P → Bool} {pages : List P}
    (ends : ∃ page ∈ pages, stops page = true) : ∃ seen, readPages stops pages = some seen := by
  induction pages with
  | nil => simp at ends
  | cons page pages ih =>
    by_cases here : stops page = true
    next => exact ⟨[page], readPages_of_stops here pages⟩
    next =>
      obtain ⟨seen, more⟩ := ih (by simpa [here] using ends)
      exact ⟨page :: seen, by rw [readPages_of_goes_on here, more, Option.map_some]⟩

theorem readPages_head {stops : P → Bool} {page : P} {pages seen : List P}
    (done : readPages stops (page :: pages) = some seen) : seen.head? = some page := by
  by_cases here : stops page = true
  next =>
    rw [readPages_of_stops here, Option.some_inj] at done
    rw [← done, List.head?_cons]
  next =>
    rw [readPages_of_goes_on here] at done
    obtain ⟨rest, -, rfl⟩ := Option.map_eq_some_iff.mp done
    exact List.head?_cons

-- A page of a list is its first one, or one of the rest with the first one before it.
theorem exists_split_cons_iff {Q : List P → Prop} {first page : P} {pages : List P} :
    (∃ front back, first :: pages = front ++ page :: back ∧ Q front) ↔
      page = first ∧ Q [] ∨ ∃ front back, pages = front ++ page :: back ∧ Q (first :: front) := by
  constructor
  · rintro ⟨front, back, split, held⟩
    cases front with
    | nil => exact Or.inl ⟨(List.cons.inj split).1.symm, held⟩
    | cons opening front =>
      obtain ⟨rfl, tail⟩ := List.cons.inj split
      exact Or.inr ⟨front, back, tail, held⟩
  · rintro (⟨rfl, held⟩ | ⟨front, back, rfl, held⟩)
    · exact ⟨[], pages, rfl, held⟩
    · exact ⟨first :: front, back, rfl, held⟩

theorem reaches_cons_of_stops {stops : P → Bool} {page other : P} {pages : List P}
    (here : stops page = true) : Reaches stops (page :: pages) other ↔ other = page := by
  rw [Reaches, exists_split_cons_iff]
  simp [here]

theorem reaches_cons_of_goes_on {stops : P → Bool} {page other : P} {pages : List P}
    (here : stops page = false) :
    Reaches stops (page :: pages) other ↔ other = page ∨ Reaches stops pages other := by
  rw [Reaches, exists_split_cons_iff]
  simp [here, Reaches]

theorem mem_readPages_iff {stops : P → Bool} {pages seen : List P}
    (done : readPages stops pages = some seen) {page : P} :
    page ∈ seen ↔ Reaches stops pages page := by
  induction pages generalizing seen with
  | nil => simp [readPages] at done
  | cons first pages ih =>
    by_cases here : stops first = true
    next =>
      rw [readPages_of_stops here, Option.some_inj] at done
      subst done
      rw [List.mem_singleton, reaches_cons_of_stops here]
    next =>
      rw [readPages_of_goes_on here] at done
      obtain ⟨seen, more, rfl⟩ := Option.map_eq_some_iff.mp done
      rw [List.mem_cons, ih more, reaches_cons_of_goes_on (by simpa using here)]

section Rules

variable {early late : P → Bool} (sooner : ∀ page, late page = true → early page = true)

include sooner

theorem readPages_prefix {pages seen : List P} (done : readPages late pages = some seen) :
    ∃ start, readPages early pages = some start ∧ start <+: seen := by
  induction pages generalizing seen with
  | nil => simp [readPages] at done
  | cons page pages ih =>
    by_cases stop : early page = true
    next =>
      obtain ⟨rest, rfl⟩ := List.head?_eq_some_iff.mp (readPages_head done)
      exact ⟨[page], readPages_of_stops stop pages, by simp⟩
    next =>
      rw [readPages_of_goes_on (mt (sooner page) stop)] at done
      obtain ⟨rest, more, rfl⟩ := Option.map_eq_some_iff.mp done
      obtain ⟨start, begun, inside⟩ := ih more
      exact ⟨page :: start, by rw [readPages_of_goes_on stop, begun, Option.map_some],
        List.cons_prefix_cons.mpr ⟨rfl, inside⟩⟩

theorem overruns_cons_of_goes_on {page other : P} {pages : List P} (goes_on : early page = false) :
    Overruns early late (page :: pages) other ↔ Overruns early late pages other := by
  have later : late page = false := by
    rw [← Bool.not_eq_true]
    exact mt (sooner page) (by simp [goes_on])
  rw [Overruns, exists_split_cons_iff]
  simp [goes_on, later, Overruns]

omit sooner in
theorem overruns_cons_of_stops {page other : P} {pages : List P} (stop : early page = true)
    (later : late page = false) :
    Overruns early late (page :: pages) other ↔ Reaches late pages other := by
  rw [Overruns, exists_split_cons_iff]
  simp [stop, later, Reaches]

omit sooner in
theorem not_overruns_cons_of_stops {page other : P} {pages : List P} (later : late page = true) :
    ¬ Overruns early late (page :: pages) other := by
  rw [Overruns, exists_split_cons_iff]
  simp [later]

omit sooner in
theorem readPages_rows_cons_eq_iff (rows : P → List R) {page : P} {pages rest : List P}
    (on : ¬ early page = true) :
    (readPages early (page :: pages)).map (·.flatMap rows) =
        some ((page :: rest).flatMap rows) ↔
      (readPages early pages).map (·.flatMap rows) = some (rest.flatMap rows) := by
  have rows_eq : ((readPages early pages).map (page :: ·)).map (·.flatMap rows) =
      ((readPages early pages).map (·.flatMap rows)).map (rows page ++ ·) := by
    rw [Option.map_map, Option.map_map]
    rfl
  rw [readPages_of_goes_on on, rows_eq, List.flatMap_cons,
    ← Option.map_some (f := (rows page ++ ·))]
  exact (Option.map_injective (List.append_right_injective _)).eq_iff

theorem readPages_rows_eq_iff (rows : P → List R) {pages seen : List P}
    (done : readPages late pages = some seen) :
    (readPages early pages).map (·.flatMap rows) = some (seen.flatMap rows) ↔
      ∀ page, Overruns early late pages page → rows page = [] := by
  induction pages generalizing seen with
  | nil => simp [readPages] at done
  | cons page pages ih =>
    by_cases later : late page = true
    next =>
      rw [readPages_of_stops later, Option.some_inj] at done
      subst done
      rw [readPages_of_stops (sooner page later)]
      exact iff_of_true rfl fun other beyond =>
        absurd beyond (not_overruns_cons_of_stops later)
    next =>
      have goes_on : late page = false := by simpa using later
      rw [readPages_of_goes_on later] at done
      obtain ⟨rest, more, rfl⟩ := Option.map_eq_some_iff.mp done
      by_cases stop : early page = true
      next =>
        simp only [readPages_of_stops stop, Option.map_some, Option.some_inj, List.flatMap_cons,
          List.flatMap_nil, overruns_cons_of_stops stop goes_on, ← mem_readPages_iff more]
        rw [List.append_right_inj, eq_comm, List.flatMap_eq_nil_iff]
      next =>
        have on : early page = false := by simpa using stop
        simp only [overruns_cons_of_goes_on sooner on]
        rw [← ih more]
        exact readPages_rows_cons_eq_iff rows stop

end Rules

end Paging
