import Mathlib

set_option autoImplicit false

namespace Occurrence

variable {α : Type}

-- An occurrence that avoids an element lies on one side of it.
theorem infix_append_cons_iff {x : α} {part before after : List α} (avoids : x ∉ part) :
    part <:+: before ++ x :: after ↔ part <:+: before ∨ part <:+: after := by
  have rest : part <:+: x :: after ↔ part <:+: after := by
    rw [List.infix_cons_iff, List.prefix_cons_iff]
    constructor
    · rintro ((rfl | ⟨_, rfl, _⟩) | inside)
      · exact List.nil_infix
      · exact absurd List.mem_cons_self avoids
      · exact inside
    · exact Or.inr
  rw [List.infix_append_iff_ne_nil, rest]
  constructor
  · rintro (inside | inside | ⟨front, back, -, nonempty, rfl, -, start⟩)
    · exact Or.inl inside
    · exact Or.inr inside
    · obtain empty | ⟨_, rfl, _⟩ := List.prefix_cons_iff.mp start
      · exact absurd empty nonempty
      · exact absurd (List.mem_append_right front List.mem_cons_self) avoids
  · rintro (inside | inside)
    · exact Or.inl inside
    · exact Or.inr (Or.inl inside)

theorem infix_cons_iff_of_not_mem {x : α} {part rest : List α} (avoids : x ∉ part)
    (nonempty : part ≠ []) : part <:+: x :: rest ↔ part <:+: rest := by
  have split : part <:+: [] ++ x :: rest ↔ part <:+: [] ∨ part <:+: rest :=
    infix_append_cons_iff avoids
  simpa [nonempty] using split

theorem infix_dropWhile_iff {p : α → Bool} {x : α} {part whole : List α} (stops : p x = false) :
    x :: part <:+: whole.dropWhile p ↔ x :: part <:+: whole := by
  constructor
  · exact fun inside => inside.trans (List.dropWhile_suffix p).isInfix
  · intro inside
    induction whole with
    | nil => exact inside
    | cons y whole ih =>
      by_cases dropped : p y = true
      · rw [List.dropWhile_cons_of_pos dropped]
        rcases List.infix_cons_iff.mp inside with start | later
        · obtain ⟨rfl, _⟩ := List.cons_prefix_cons.mp start
          exact absurd dropped (Bool.eq_false_iff.mp stops)
        · exact ih later
      · rwa [List.dropWhile_cons_of_neg dropped]

theorem infix_rdropWhile_iff {p : α → Bool} {x : α} {part whole : List α} (stops : p x = false) :
    part ++ [x] <:+: whole.rdropWhile p ↔ part ++ [x] <:+: whole := by
  rw [List.rdropWhile, ← List.reverse_infix, List.reverse_reverse, List.reverse_append,
    List.reverse_singleton, List.singleton_append, infix_dropWhile_iff stops,
    ← List.reverse_infix, List.reverse_reverse, List.reverse_cons, List.reverse_reverse]

section Anchor

variable {x : α} {front back text rest : List α} (left : x ∉ front) (right : x ∉ text)

include left right

-- The first occurrence of an element on one side meets the first one on the other.
theorem prefix_anchor_iff :
    front ++ x :: back <+: text ++ x :: rest ↔ front = text ∧ back <+: rest := by
  induction front generalizing text with
  | nil =>
    cases text with
    | nil => simp
    | cons y text =>
      have other : x ≠ y := fun same => right (same ▸ List.mem_cons_self)
      simp [List.cons_prefix_cons, other]
  | cons f front ih =>
    obtain ⟨other, left⟩ := List.ne_and_not_mem_of_not_mem_cons left
    cases text with
    | nil => simp [List.cons_prefix_cons, other.symm]
    | cons y text =>
      simp [List.cons_prefix_cons, ih left (List.not_mem_of_not_mem_cons right), and_assoc]

theorem infix_anchor_iff :
    front ++ x :: back <:+: text ++ x :: rest ↔
      (front <:+ text ∧ back <+: rest) ∨ front ++ x :: back <:+: rest := by
  induction text with
  | nil =>
    rw [List.nil_append, List.infix_cons_iff, List.suffix_nil]
    have start : front ++ x :: back <+: [] ++ x :: rest ↔ front = [] ∧ back <+: rest :=
      prefix_anchor_iff left right
    exact or_congr_left start
  | cons y text ih =>
    rw [List.cons_append, List.infix_cons_iff, ← List.cons_append, prefix_anchor_iff left right,
      ih (List.not_mem_of_not_mem_cons right), List.suffix_cons_iff, or_and_right, or_assoc]

end Anchor

-- A text of labels and quotations, each character with whether a label put it there.
def marked (pieces : List (List α × List α)) : List (α × Bool) :=
  pieces.flatMap fun piece => piece.1.map (·, true) ++ piece.2.map (·, false)

def spelled (pieces : List (List α × List α)) : List α :=
  pieces.flatMap fun piece => piece.1 ++ piece.2

/-- Some occurrence of the part takes in a character of a label. -/
def TouchesLabel (part : List α) (pieces : List (List α × List α)) : Prop :=
  ∃ found, found <:+: marked pieces ∧ found.map Prod.fst = part ∧ ∃ c ∈ found, c.2 = true

@[simp] theorem marked_fst (pieces : List (List α × List α)) :
    (marked pieces).map Prod.fst = spelled pieces := by
  simp [marked, spelled, List.map_flatMap, Function.comp_def]

theorem map_spelled {β : Type} (f : α → β) (pieces : List (List α × List α)) :
    (spelled pieces).map f = spelled (pieces.map fun p => (p.1.map f, p.2.map f)) := by
  simp [spelled, List.map_flatMap, List.flatMap_map]

theorem quoted_infix_iff {part text : List α} :
    (∃ found, found <:+: text.map (·, false) ∧ found.map Prod.fst = part) ↔ part <:+: text := by
  constructor
  · rintro ⟨found, inside, rfl⟩
    simpa [Function.comp_def] using inside.map Prod.fst
  · intro inside
    exact ⟨part.map (·, false), inside.map _, by simp [Function.comp_def]⟩

-- Labels are not empty, so quoted characters in a row are one quotation's.
theorem infix_marked_iff {pieces : List (List α × List α)} (labelled : ∀ p ∈ pieces, p.1 ≠ [])
    {found : List (α × Bool)} (nonempty : found ≠ []) (quoted : ∀ c ∈ found, c.2 = false) :
    found <:+: marked pieces ↔ ∃ p ∈ pieces, found <:+: p.2.map (·, false) := by
  have unlabelled (x : α) : (x, true) ∉ found := fun member => by simpa using quoted _ member
  -- nothing of a label can be part of it
  have none (label : List α) : ¬ found <:+: label.map (·, true) := by
    intro inside
    obtain ⟨c, member⟩ := List.exists_mem_of_ne_nil found nonempty
    obtain ⟨x, _, rfl⟩ := List.mem_map.mp (inside.subset member)
    exact unlabelled x member
  have skip (label : List α) (rest : List (α × Bool)) :
      found <:+: label.map (·, true) ++ rest ↔ found <:+: rest := by
    induction label with
    | nil => simp
    | cons x label ih =>
      rw [List.map_cons, List.cons_append, infix_cons_iff_of_not_mem (unlabelled x) nonempty, ih]
  induction pieces with
  | nil => simp [marked, nonempty]
  | cons piece pieces ih =>
    have rest : found <:+: marked pieces ↔ ∃ p ∈ pieces, found <:+: p.2.map (·, false) :=
      ih fun p member => labelled p (List.mem_cons_of_mem _ member)
    have here : marked (piece :: pieces) =
        piece.1.map (·, true) ++ (piece.2.map (·, false) ++ marked pieces) := by
      simp [marked]
    rw [here, skip, List.exists_mem_cons_iff, ← rest]
    cases pieces with
    | nil => simp [marked, nonempty]
    | cons next pieces =>
      obtain ⟨x, label, start⟩ := List.exists_cons_of_ne_nil
        (labelled next (List.mem_cons_of_mem _ List.mem_cons_self))
      have begins : marked (next :: pieces) =
          (x, true) :: (label.map (·, true) ++ (next.2.map (·, false) ++ marked pieces)) := by
        simp [marked, start]
      rw [begins, infix_append_cons_iff (unlabelled x),
        infix_cons_iff_of_not_mem (unlabelled x) nonempty]

-- A part occurs in one quotation, or across the labels.
theorem infix_spelled_iff {pieces : List (List α × List α)} (labelled : ∀ p ∈ pieces, p.1 ≠ [])
    {part : List α} (nonempty : part ≠ []) :
    part <:+: spelled pieces ↔ (∃ p ∈ pieces, part <:+: p.2) ∨ TouchesLabel part pieces := by
  constructor
  · intro inside
    rw [← marked_fst, List.infix_map_iff] at inside
    obtain ⟨found, inside, rfl⟩ := inside
    by_cases touched : ∃ c ∈ found, c.2 = true
    · exact Or.inr ⟨found, inside, rfl, touched⟩
    · have quoted : ∀ c ∈ found, c.2 = false := by simpa using touched
      have some : found ≠ [] := by
        rintro rfl
        exact nonempty rfl
      obtain ⟨p, member, inside⟩ := (infix_marked_iff labelled some quoted).mp inside
      exact Or.inl ⟨p, member, quoted_infix_iff.mp ⟨found, inside, rfl⟩⟩
  · rintro (⟨p, member, inside⟩ | ⟨found, inside, rfl, -⟩)
    · obtain ⟨front, back, rfl⟩ := List.append_of_mem member
      simp only [spelled, List.flatMap_append, List.flatMap_cons]
      exact List.infix_append_of_infix_right (List.infix_append_of_infix_left
        (List.infix_append_of_infix_right inside))
    · rw [← marked_fst]
      exact inside.map Prod.fst

theorem infix_of_head_not_mem {x : α} {part front whole : List α} (avoids : x ∉ front)
    (inside : x :: part <:+: front ++ whole) : x :: part <:+: whole := by
  induction front with
  | nil => exact inside
  | cons y front ih =>
    rcases List.infix_cons_iff.mp inside with start | later
    · exact absurd (List.cons_prefix_cons.mp start).1 (List.ne_of_not_mem_cons avoids)
    · exact ih (List.not_mem_of_not_mem_cons avoids) later

-- A part whose first element also ends it, and is nowhere else around it in the whole, can only
-- match there; what it brackets then has to be the same.
theorem bracketed_infix_iff {z m x : α} {lead inner inner' front back : List α}
    (free : z ∉ front) (lead_free : z ∉ m :: lead) (inner_free : z ∉ inner' ++ [x])
    (back_free : z ∉ back) (other : back.head? ≠ some m) (unstopped : x ∉ inner)
    (unstopped' : x ∉ inner') :
    z :: m :: (lead ++ inner ++ [x, z]) <:+: front ++ z :: m :: (lead ++ inner' ++ x :: z :: back) ↔
      inner = inner' := by
  constructor
  next =>
    intro inside
    rcases List.infix_cons_iff.mp (infix_of_head_not_mem free inside) with here | later
    · rw [List.cons_prefix_cons, List.cons_prefix_cons, List.append_assoc, List.append_assoc,
        List.prefix_append_right_inj] at here
      exact ((prefix_anchor_iff unstopped unstopped').mp here.2.2).1
    · have split : m :: (lead ++ inner' ++ x :: z :: back) =
          (m :: lead ++ (inner' ++ [x])) ++ z :: back := by simp
      rw [split] at later
      have before : z ∉ m :: lead ++ (inner' ++ [x]) := fun member =>
        (List.mem_append.mp member).elim lead_free inner_free
      rcases List.infix_cons_iff.mp (infix_of_head_not_mem before later) with start | past
      · obtain ⟨rest, whole⟩ := (List.cons_prefix_cons.mp start).2
        rw [← whole] at other
        exact absurd rfl other
      · exact absurd (past.subset List.mem_cons_self) back_free
  next =>
    rintro rfl
    refine ⟨front, back, ?_⟩
    simp

-- Every label but the first opens with the separator: without it, a part that does not start in
-- a label never gets into one.
theorem not_touchesLabel {sep x : α} {part : List α} {pieces : List (List α × List α)}
    (avoids : sep ∉ x :: part) (outside : ∀ p ∈ pieces, x ∉ p.1)
    (separated : ∀ p ∈ pieces.tail, ∃ label, p.1 = sep :: label) :
    ¬ TouchesLabel (x :: part) pieces := by
  rintro ⟨found, inside, spelling, c, member, labelled⟩
  obtain ⟨⟨y, mark⟩, found, rfl⟩ := List.exists_cons_of_ne_nil (l := found) (by
    rintro rfl
    simp at spelling)
  obtain ⟨same, spelling⟩ : y = x ∧ found.map Prod.fst = part := by simpa using spelling
  subst same
  have unmarked : (sep, true) ∉ (y, mark) :: found := fun taken =>
    avoids (by simpa [spelling] using List.mem_map_of_mem (f := Prod.fst) taken)
  have quoted : ∃ p ∈ pieces, (y, mark) :: found <:+: p.2.map (·, false) := by
    clear member
    induction pieces with
    | nil => simp [marked] at inside
    | cons piece pieces ih =>
      rw [marked, List.flatMap_cons, List.append_assoc] at inside
      have unlabelled : (y, mark) ∉ piece.1.map (·, true) := fun taken => by
        obtain ⟨_, inLabel, same⟩ := List.mem_map.mp taken
        exact outside piece List.mem_cons_self ((Prod.mk.inj same).1 ▸ inLabel)
      have past := infix_of_head_not_mem unlabelled inside
      cases pieces with
      | nil => exact ⟨piece, List.mem_cons_self, by simpa using past⟩
      | cons next pieces =>
        obtain ⟨label, start⟩ := separated next List.mem_cons_self
        have begins : marked (next :: pieces) =
            (sep, true) :: (label.map (·, true) ++ (next.2.map (·, false) ++ marked pieces)) := by
          simp [marked, start]
        rw [← marked, begins, infix_append_cons_iff unmarked] at past
        rcases past with here | later
        · exact ⟨piece, List.mem_cons_self, here⟩
        · have rest : (y, mark) :: found <:+: marked (next :: pieces) := by
            rw [begins]
            exact List.infix_cons later
          obtain ⟨p, within, there⟩ := ih
            (fun p within => separated p (List.mem_of_mem_tail within)) rest
            fun p within => outside p (List.mem_cons_of_mem _ within)
          exact ⟨p, List.mem_cons_of_mem _ within, there⟩
  obtain ⟨p, _, here⟩ := quoted
  obtain ⟨_, _, rfl⟩ := List.mem_map.mp (here.subset member)
  simp at labelled

theorem map_mapIdx {β γ : Type} (f : ℕ → α → β) (g : β → γ) (items : List α) :
    (items.mapIdx f).map g = items.mapIdx fun i item => g (f i item) := by
  simp [List.mapIdx_eq_zipIdx_map]

theorem intercalate_cons (sep line : List α) (lines : List (List α)) :
    sep.intercalate (line :: lines) = line ++ lines.flatMap (sep ++ ·) := by
  induction lines generalizing line with
  | nil => simp [List.intercalate_singleton]
  | cons next lines ih =>
    rw [List.intercalate_cons_cons, ih, List.flatMap_cons]
    simp

-- Joined lines are spelled by their labels, the separator part of every label but the first.
theorem intercalate_mapIdx {β : Type} (sep : List α) (label : ℕ → List α) (text : β → List α)
    (items : List β) :
    sep.intercalate (items.mapIdx fun i item => label i ++ text item) =
      spelled (items.mapIdx fun i item => ((if i = 0 then [] else sep) ++ label i, text item)) := by
  cases items with
  | nil => rfl
  | cons item items =>
    simp only [List.mapIdx_cons, spelled, intercalate_cons, List.flatMap_cons]
    simp [List.mapIdx_eq_zipIdx_map, List.flatMap_map]

end Occurrence
