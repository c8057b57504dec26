import Mathlib
import BrainEval.Lib.Occurrence
import BrainEval.Lib.Replace

set_option autoImplicit false

namespace Template

open Replace

/-- A template in braces: literal text, in which a brace is written twice, and named slots. -/
inductive Piece (σ : Type) where
  | text (s : String)
  | slot (s : σ)
  deriving DecidableEq

def doubleBraces (cs : List Char) : List Char :=
  cs.flatMap fun c => if c = '{' ∨ c = '}' then [c, c] else [c]

-- The replacements that read doubled braces as single ones.
def undouble : List (List Char × List Char) := [(['{', '{'], ['{']), (['}', '}'], ['}'])]

def placeholder (name : String) : List Char := '{' :: name.toList ++ ['}']

theorem placeholder_ne_nil (name : String) : placeholder name ≠ [] := by simp [placeholder]

def Plain (s : String) : Prop := ∀ c ∈ s.toList, c ≠ '{' ∧ c ≠ '}'

theorem Plain.opens {s : String} (plain : Plain s) : '{' ∉ s.toList :=
  fun inside => (plain _ inside).1 rfl

theorem Plain.closes {s : String} (plain : Plain s) : '}' ∉ s.toList :=
  fun inside => (plain _ inside).2 rfl

theorem placeholder_infix {name name' : String} (plain : Plain name) (plain' : Plain name')
    (inside : placeholder name <:+: placeholder name') : name = name' := by
  have whole : '{' :: (name.toList ++ ['}']) <:+: '{' :: (name'.toList ++ ['}']) := inside
  rcases List.infix_cons_iff.mp whole with start | later
  · have ends := (List.cons_prefix_cons.mp start).2
    exact String.toList_inj.mp
      ((Occurrence.prefix_anchor_iff plain.closes plain'.closes).mp ends).1
  · have opened := later.subset List.mem_cons_self
    rcases List.mem_append.mp opened with named | last
    · exact absurd named plain'.opens
    · simp at last

theorem doubleBraces_opened (cs : List Char) :
    Replace.replace ['{', '{'] ['{'] (doubleBraces cs) =
      cs.flatMap fun c => if c = '}' then [c, c] else [c] := by
  induction cs with
  | nil => rfl
  | cons c cs ih =>
    by_cases opens : c = '{'
    next =>
      subst opens
      have first : doubleBraces ('{' :: cs) = ['{', '{'] ++ doubleBraces cs := by
        simp [doubleBraces]
      rw [first, replace_hit (by simp), ih]
      simp
    next =>
      have skip (rest : List Char) : Replace.replace ['{', '{'] ['{'] (c :: rest) =
          c :: Replace.replace ['{', '{'] ['{'] rest :=
        replace_miss fun start => opens (List.cons_prefix_cons.mp start).1.symm
      by_cases closes : c = '}'
      next =>
        have first : doubleBraces (c :: cs) = c :: c :: doubleBraces cs := by
          simp [doubleBraces, closes]
        rw [first, skip, skip, ih]
        simp [closes]
      next =>
        have first : doubleBraces (c :: cs) = c :: doubleBraces cs := by
          simp [doubleBraces, opens, closes]
        rw [first, skip, ih]
        simp [closes]

theorem run_undouble (cs : List Char) : run undouble (doubleBraces cs) = cs := by
  rw [undouble, run_cons, run_cons, run_nil, doubleBraces_opened]
  induction cs with
  | nil => rfl
  | cons c cs ih =>
    by_cases closes : c = '}'
    next =>
      subst closes
      have first : (('}' :: cs).flatMap fun c => if c = '}' then [c, c] else [c]) =
          ['}', '}'] ++ cs.flatMap fun c => if c = '}' then [c, c] else [c] := by
        simp
      rw [first, replace_hit (by simp), ih]
      rfl
    next =>
      have first : ((c :: cs).flatMap fun c => if c = '}' then [c, c] else [c]) =
          c :: cs.flatMap fun c => if c = '}' then [c, c] else [c] := by
        simp [closes]
      rw [first, replace_miss fun start => closes (List.cons_prefix_cons.mp start).1.symm, ih]

-- Un-doubling only ever shortens, so a text it keeps holds no doubled brace.
theorem run_undouble_eq_self_iff (cs : List Char) :
    run undouble cs = cs ↔ ∀ step ∈ undouble, ¬ step.1 <:+: cs := by
  constructor
  · intro kept
    rw [undouble, run_cons, run_cons, run_nil] at kept
    have first : (Replace.replace ['{', '{'] ['{'] cs).length ≤ cs.length :=
      replace_length_le (by simp) (by simp) cs
    have second : (Replace.replace ['}', '}'] ['}']
        (Replace.replace ['{', '{'] ['{'] cs)).length ≤ _ :=
      replace_length_le (by simp) (by simp) _
    rw [kept] at second
    have opened := not_infix_of_length (by simp) (by simp) (Nat.le_antisymm first second)
    rw [replace_of_absent opened, replace_eq_self_iff (by simp) (by simp)] at kept
    simp [undouble, opened, kept]
  · exact run_of_absent

section Pieces

variable {σ : Type} (name : σ → String)

def Piece.spell : Piece σ → List Char
  | .text s => doubleBraces s.toList
  | .slot s => placeholder (name s)

def Piece.fill (args : σ → String) : Piece σ → List Char
  | .text s => s.toList
  | .slot s => (args s).toList

def fillSteps (fills : List (σ × String)) : List (List Char × List Char) :=
  fills.map fun entry => (placeholder (name entry.1), entry.2.toList)

variable [DecidableEq σ]

/-- What becomes of a slot: its argument, through every step after its own. -/
def settle : List (σ × String) → σ → List Char
  | [], s => run undouble (placeholder (name s))
  | entry :: later, s =>
    if entry.1 = s then run (fillSteps name later ++ undouble) entry.2.toList else settle later s

def Piece.render (fills : List (σ × String)) : Piece σ → List Char
  | .text s => s.toList
  | .slot s => settle name fills s

@[simp] theorem settle_own (s : σ) (put : String) (later : List (σ × String)) :
    settle name ((s, put) :: later) s = run (fillSteps name later ++ undouble) put.toList :=
  if_pos rfl

variable {name} (apart : ∀ s s' : σ, placeholder (name s) <:+: placeholder (name s') → s = s')

include apart

theorem run_placeholder (fills : List (σ × String)) (s : σ) :
    run (fillSteps name fills ++ undouble) (placeholder (name s)) = settle name fills s := by
  induction fills with
  | nil => rfl
  | cons entry later ih =>
    rw [fillSteps, List.map_cons, List.cons_append, run_cons, settle]
    by_cases own : entry.1 = s
    next => rw [if_pos own, own, replace_self (placeholder_ne_nil _)]; rfl
    next =>
      rw [if_neg own, replace_of_absent fun inside => own (apart _ _ inside)]
      exact ih

theorem run_pieces {guard : Char → Bool} {fills : List (σ × String)}
    (spares : Spares guard (fillSteps name fills ++ undouble)) {pieces : List (Piece σ)}
    (seams : (pieces.map (Piece.spell name)).IsChain fun a b => seam guard a b = true)
    (literal : ∀ s, .text s ∈ pieces →
      ∀ slot : σ, ¬ placeholder (name slot) <:+: doubleBraces s.toList) :
    run (fillSteps name fills ++ undouble) (pieces.flatMap (Piece.spell name)) =
      pieces.flatMap (Piece.render name fills) := by
  rw [List.flatMap, run_flatten spares seams, List.map_map, List.flatMap]
  congr 1
  apply List.map_congr_left
  intro piece member
  cases piece with
  | slot s => exact run_placeholder apart fills s
  | text s =>
    have absent : ∀ step ∈ fillSteps name fills, ¬ step.1 <:+: doubleBraces s.toList := by
      intro step inside
      obtain ⟨entry, _, rfl⟩ := List.mem_map.mp inside
      exact literal s member entry.1
    change run _ (doubleBraces s.toList) = s.toList
    rw [run_append, run_of_absent absent, run_undouble]

end Pieces

section Kept

variable {σ : Type} (name : σ → String)

/-- The replacements a text still goes through leave it as it is. -/
def Kept (later : List (σ × String)) (text : String) : Prop :=
  run (fillSteps name later ++ undouble) text.toList = text.toList

instance (later : List (σ × String)) (text : String) : Decidable (Kept name later text) :=
  inferInstanceAs (Decidable (_ = _))

def Undoubled (text : String) : Prop := ∀ step ∈ undouble, ¬ step.1 <:+: text.toList

variable {name}

-- Apart from the names of later slots, only a doubled brace is rewritten.
theorem kept_iff_of_absent {later : List (σ × String)} {text : String}
    (absent : ∀ entry ∈ later, ¬ placeholder (name entry.1) <:+: text.toList) :
    Kept name later text ↔ Undoubled text := by
  have skipped : ∀ step ∈ fillSteps name later, ¬ step.1 <:+: text.toList := by
    intro step inside
    obtain ⟨entry, member, rfl⟩ := List.mem_map.mp inside
    exact absent entry member
  rw [Kept, run_append, run_of_absent skipped]
  exact run_undouble_eq_self_iff text.toList

theorem kept_of_plain {later : List (σ × String)} {text : String} (plain : Plain text) :
    Kept name later text := by
  apply run_of_absent
  intro step member inside
  rcases List.mem_append.mp member with filled | doubled
  · obtain ⟨entry, _, rfl⟩ := List.mem_map.mp filled
    exact plain.opens (inside.subset List.mem_cons_self)
  · simp only [undouble, List.mem_cons, List.not_mem_nil, or_false] at doubled
    rcases doubled with rfl | rfl
    · exact plain.opens (inside.subset List.mem_cons_self)
    · exact plain.closes (inside.subset List.mem_cons_self)

end Kept

end Template
