import Mathlib

set_option autoImplicit false

namespace Replace

variable {α : Type}

theorem prefix_append_cons_iff {x : α} {part before after : List α} (avoids : x ∉ part) :
    part <+: before ++ x :: after ↔ part <+: before := by
  constructor
  · intro start
    rcases List.prefix_or_prefix_of_prefix start (List.prefix_append before _) with
      inside | ⟨more, rfl⟩
    · exact inside
    · rcases List.prefix_cons_iff.mp ((List.prefix_append_right_inj before).mp start) with
        rfl | ⟨_, rfl, _⟩
      · simp
      · exact absurd (by simp) avoids
  · exact fun inside => inside.trans (List.prefix_append _ _)

variable [DecidableEq α]

-- `skip` elements are left of an occurrence that is already replaced.
def replaceFrom (pattern put : List α) : Nat → List α → List α
  | _, [] => []
  | skip + 1, _ :: rest => replaceFrom pattern put skip rest
  | 0, x :: rest =>
    if pattern <+: x :: rest then put ++ replaceFrom pattern put (pattern.length - 1) rest
    else x :: replaceFrom pattern put 0 rest

/-- Every occurrence, left to right and without overlap; the pattern is not empty. -/
def replace (pattern put text : List α) : List α := replaceFrom pattern put 0 text

section Single

variable {pattern put : List α}

@[simp] theorem replace_nil : replace pattern put [] = [] := rfl

theorem replaceFrom_drop (text : List α) (skip : Nat) (within : skip ≤ text.length) :
    replaceFrom pattern put skip text = replace pattern put (text.drop skip) := by
  induction text generalizing skip with
  | nil =>
    obtain rfl : skip = 0 := by simpa using within
    rfl
  | cons x rest ih =>
    cases skip with
    | zero => rfl
    | succ skip => exact ih skip (by simpa using within)

theorem replace_miss {x : α} {rest : List α} (miss : ¬ pattern <+: x :: rest) :
    replace pattern put (x :: rest) = x :: replace pattern put rest := by
  rw [replace, replaceFrom, if_neg miss]
  rfl

variable (nonempty : pattern ≠ [])

include nonempty

theorem replace_hit (rest : List α) :
    replace pattern put (pattern ++ rest) = put ++ replace pattern put rest := by
  cases pattern with
  | nil => exact absurd rfl nonempty
  | cons x pattern =>
    have here : x :: pattern <+: x :: (pattern ++ rest) := List.prefix_append (x :: pattern) rest
    rw [replace, List.cons_append, replaceFrom, if_pos here, List.length_cons,
      Nat.add_sub_cancel, replaceFrom_drop _ _ (by simp), List.drop_left]

omit [DecidableEq α] in
-- A text is read as the replacement reads it: an occurrence at a time, else an element.
theorem scan_induction {motive : List α → Prop} (nil : motive [])
    (hit : ∀ rest, motive rest → motive (pattern ++ rest))
    (miss : ∀ x rest, ¬ pattern <+: x :: rest → motive rest → motive (x :: rest))
    (text : List α) : motive text := by
  have long := List.length_pos_iff.mpr nonempty
  induction measured : text.length using Nat.strong_induction_on generalizing text with
  | _ n ih =>
    cases text with
    | nil => exact nil
    | cons x rest =>
      by_cases start : pattern <+: x :: rest
      next =>
        obtain ⟨after, same⟩ := start
        have whole := congrArg List.length same
        rw [List.length_append] at whole
        rw [← same]
        exact hit after (ih after.length (by omega) after rfl)
      next =>
        rw [List.length_cons] at measured
        exact miss x rest start (ih rest.length (by omega) rest rfl)

theorem replace_self : replace pattern put pattern = put := by
  have whole : replace pattern put (pattern ++ []) = put ++ replace pattern put [] :=
    replace_hit nonempty []
  simpa using whole

-- A replacement never reaches across an element its pattern does not hold.
theorem replace_append_cons {x : α} (avoids : x ∉ pattern) (before after : List α) :
    replace pattern put (before ++ x :: after) =
      replace pattern put before ++ x :: replace pattern put after := by
  induction before using scan_induction nonempty with
  | nil =>
    apply replace_miss
    intro start
    have empty : pattern <+: [] ++ x :: after → pattern <+: [] :=
      (prefix_append_cons_iff avoids).mp
    exact nonempty (List.prefix_nil.mp (empty start))
  | hit rest ih => rw [List.append_assoc, replace_hit nonempty, ih, replace_hit nonempty,
      List.append_assoc]
  | miss y rest elsewhere ih =>
    have still : ¬ pattern <+: y :: (rest ++ x :: after) := by
      rwa [← List.cons_append, prefix_append_cons_iff avoids]
    rw [List.cons_append, replace_miss still, ih, replace_miss elsewhere, List.cons_append]

-- What the pattern does not hold is never taken out.
theorem count_le_replace {x : α} (avoids : x ∉ pattern) (text : List α) :
    text.count x ≤ (replace pattern put text).count x := by
  induction text using scan_induction nonempty with
  | nil => simp
  | hit rest ih =>
    rw [replace_hit nonempty, List.count_append, List.count_append, List.count_eq_zero.mpr avoids]
    omega
  | miss y rest elsewhere ih =>
    rw [replace_miss elsewhere, List.count_cons, List.count_cons]
    omega

section Shorter

variable (shorter : put.length < pattern.length)

include shorter

theorem replace_length_le (text : List α) :
    (replace pattern put text).length ≤ text.length := by
  induction text using scan_induction nonempty with
  | nil => simp
  | hit rest ih =>
    rw [replace_hit nonempty, List.length_append, List.length_append]
    omega
  | miss y rest elsewhere ih =>
    rw [replace_miss elsewhere, List.length_cons, List.length_cons]
    omega

theorem not_infix_of_length {text : List α}
    (whole : (replace pattern put text).length = text.length) : ¬ pattern <:+: text := by
  induction text using scan_induction nonempty with
  | nil => simpa using nonempty
  | hit rest ih =>
    have bound := replace_length_le nonempty shorter rest
    rw [replace_hit nonempty, List.length_append, List.length_append] at whole
    omega
  | miss y rest elsewhere ih =>
    rw [replace_miss elsewhere, List.length_cons, List.length_cons, Nat.add_right_cancel_iff]
      at whole
    rw [List.infix_cons_iff, not_or]
    exact ⟨elsewhere, ih whole⟩

end Shorter

end Single

theorem replace_of_absent {pattern put text : List α} (absent : ¬ pattern <:+: text) :
    replace pattern put text = text := by
  induction text with
  | nil => rfl
  | cons x rest ih =>
    rw [List.infix_cons_iff, not_or] at absent
    rw [replace_miss absent.1, ih absent.2]

theorem replace_eq_self_iff {pattern put text : List α} (nonempty : pattern ≠ [])
    (shorter : put.length < pattern.length) :
    replace pattern put text = text ↔ ¬ pattern <:+: text :=
  ⟨fun same => not_infix_of_length nonempty shorter (congrArg List.length same),
    replace_of_absent⟩

-- One replacement after another, each over what the ones before have put in.
def run (steps : List (List α × List α)) (text : List α) : List α :=
  steps.foldl (fun text step => replace step.1 step.2 text) text

@[simp] theorem run_nil (text : List α) : run [] text = text := rfl

@[simp] theorem run_cons (step : List α × List α) (steps : List (List α × List α))
    (text : List α) : run (step :: steps) text = run steps (replace step.1 step.2 text) := rfl

theorem run_append (before after : List (List α × List α)) (text : List α) :
    run (before ++ after) text = run after (run before text) :=
  List.foldl_append

theorem run_of_absent {steps : List (List α × List α)} {text : List α}
    (absent : ∀ step ∈ steps, ¬ step.1 <:+: text) : run steps text = text := by
  induction steps with
  | nil => rfl
  | cons step steps ih =>
    obtain ⟨here, later⟩ := List.forall_mem_cons.mp absent
    rw [run_cons, replace_of_absent here, ih later]

section Seams

variable (guard : α → Bool)

/-- No pattern of the steps holds a guard. -/
def Spares (steps : List (List α × List α)) : Prop :=
  ∀ step ∈ steps, step.1 ≠ [] ∧ ∀ x, guard x = true → x ∉ step.1

-- A guard stands between the two.
def seam (a b : List α) : Bool := a.getLast?.any guard || b.head?.any guard

variable {guard}

omit [DecidableEq α] in
theorem seam_iff {a b : List α} :
    seam guard a b = true ↔
      (∃ front x, a = front ++ [x] ∧ guard x = true) ∨
        ∃ x back, b = x :: back ∧ guard x = true := by
  rw [seam, Bool.or_eq_true, Option.any_eq_true, Option.any_eq_true]
  apply or_congr
  · constructor
    · rintro ⟨x, last, held⟩
      obtain ⟨front, rfl⟩ := List.getLast?_eq_some_iff.mp last
      exact ⟨front, x, rfl, held⟩
    · rintro ⟨front, x, rfl, held⟩
      exact ⟨x, by simp, held⟩
  · constructor
    · rintro ⟨x, first, held⟩
      obtain ⟨back, rfl⟩ := List.head?_eq_some_iff.mp first
      exact ⟨x, back, rfl, held⟩
    · rintro ⟨x, back, rfl, held⟩
      exact ⟨x, rfl, held⟩

omit [DecidableEq α] in
theorem seam_append {a b : List α} (held : seam guard a b = true) (c : List α) :
    seam guard a (b ++ c) = true := by
  rw [seam_iff] at held ⊢
  rcases held with last | ⟨x, back, rfl, guarded⟩
  · exact Or.inl last
  · exact Or.inr ⟨x, back ++ c, rfl, guarded⟩

section Step

variable {pattern put : List α} (nonempty : pattern ≠ [])
  (spares : ∀ x, guard x = true → x ∉ pattern)

include nonempty spares

theorem replace_seam {a b : List α} (held : seam guard a b = true) :
    replace pattern put (a ++ b) = replace pattern put a ++ replace pattern put b ∧
      seam guard (replace pattern put a) (replace pattern put b) = true := by
  rw [seam_iff] at held ⊢
  rcases held with ⟨front, x, rfl, guarded⟩ | ⟨x, back, rfl, guarded⟩
  · have ends : replace pattern put (front ++ [x]) = replace pattern put front ++ [x] :=
      replace_append_cons nonempty (spares x guarded) front []
    rw [List.append_assoc, List.singleton_append,
      replace_append_cons nonempty (spares x guarded), ends]
    exact ⟨by simp, Or.inl ⟨_, x, rfl, guarded⟩⟩
  · have starts : replace pattern put (x :: back) = x :: replace pattern put back :=
      replace_append_cons nonempty (spares x guarded) [] back
    rw [replace_append_cons nonempty (spares x guarded), starts]
    exact ⟨rfl, Or.inr ⟨x, _, rfl, guarded⟩⟩

theorem replace_flatten {parts : List (List α)}
    (seams : parts.IsChain fun a b => seam guard a b = true) :
    replace pattern put parts.flatten = (parts.map (replace pattern put)).flatten ∧
      (parts.map (replace pattern put)).IsChain fun a b => seam guard a b = true := by
  induction parts with
  | nil => exact ⟨rfl, .nil⟩
  | cons a parts ih =>
    cases parts with
    | nil => simp
    | cons b parts =>
      obtain ⟨held, seams⟩ := List.isChain_cons_cons.mp seams
      obtain ⟨same, kept⟩ := ih seams
      have joined : replace pattern put (a ++ (b ++ parts.flatten)) =
          replace pattern put a ++ replace pattern put (b ++ parts.flatten) :=
        (replace_seam nonempty spares (seam_append held parts.flatten)).1
      constructor
      · simpa [joined] using congrArg (replace pattern put a ++ ·) same
      · exact List.isChain_cons_cons.mpr ⟨(replace_seam nonempty spares held).2, kept⟩

end Step

-- Guarded parts are rewritten each by itself.
theorem run_flatten {steps : List (List α × List α)} (spares : Spares guard steps)
    {parts : List (List α)} (seams : parts.IsChain fun a b => seam guard a b = true) :
    run steps parts.flatten = (parts.map (run steps)).flatten := by
  induction steps generalizing parts with
  | nil =>
    have unchanged : run ([] : List (List α × List α)) = id := rfl
    rw [unchanged, List.map_id]
    rfl
  | cons step steps ih =>
    obtain ⟨⟨nonempty, avoids⟩, later⟩ := List.forall_mem_cons.mp spares
    obtain ⟨same, kept⟩ : replace step.1 step.2 parts.flatten =
        (parts.map (replace step.1 step.2)).flatten ∧
          (parts.map (replace step.1 step.2)).IsChain fun a b => seam guard a b = true :=
      replace_flatten nonempty avoids seams
    rw [run_cons, same, ih later kept, List.map_map]
    rfl

theorem count_le_run {steps : List (List α × List α)} (spares : Spares guard steps) {x : α}
    (guarded : guard x = true) (text : List α) : text.count x ≤ (run steps text).count x := by
  induction steps generalizing text with
  | nil => exact Nat.le_refl _
  | cons step steps ih =>
    obtain ⟨⟨nonempty, avoids⟩, later⟩ := List.forall_mem_cons.mp spares
    exact (count_le_replace nonempty (avoids x guarded) text).trans (ih later _)

end Seams

-- Each slot between its lead and the mark that ends it.
def weave (x : α) : List (List α × List α) → List α → List α
  | [], last => last
  | (lead, slot) :: parts, last => lead ++ (slot ++ x :: weave x parts last)

theorem append_cons_inj {x : α} {a b a' b' : List α} (counts : a.count x = a'.count x)
    (same : a ++ x :: b = a' ++ x :: b') : a = a' ∧ b = b' := by
  induction a generalizing a' with
  | nil =>
    cases a' with
    | nil => simpa using same
    | cons y a' =>
      obtain rfl : x = y := (List.cons.inj same).1
      simp at counts
  | cons y a ih =>
    cases a' with
    | nil =>
      obtain rfl : y = x := (List.cons.inj same).1
      simp at counts
    | cons y' a' =>
      obtain rfl : y = y' := (List.cons.inj same).1
      have rest := ih (by simpa [List.count_cons] using counts) (List.cons.inj same).2
      exact ⟨congrArg (y :: ·) rest.1, rest.2⟩

theorem append_cons_inj_of_not_mem {x : α} {a b a' b' : List α} (left : x ∉ a) (right : x ∉ a')
    (same : a ++ x :: b = a' ++ x :: b') : a = a' ∧ b = b' :=
  append_cons_inj (by rw [List.count_eq_zero.mpr left, List.count_eq_zero.mpr right]) same

theorem append_cons_inj_of_not_mem_right {x : α} {a b a' b' : List α} (left : x ∉ b)
    (right : x ∉ b') (same : a ++ x :: b = a' ++ x :: b') : a = a' ∧ b = b' := by
  have mirrored : b.reverse ++ x :: a.reverse = b'.reverse ++ x :: a'.reverse := by
    simpa using congrArg List.reverse same
  obtain ⟨ends, starts⟩ := append_cons_inj_of_not_mem (by simpa using left) (by simpa using right)
    mirrored
  exact ⟨List.reverse_inj.mp starts, List.reverse_inj.mp ends⟩

theorem count_weave_le {x : α} {parts : List (List α × List α × List α)}
    (gained : ∀ part ∈ parts, part.2.2.count x ≤ part.2.1.count x) (last : List α) :
    (weave x (parts.map fun part => (part.1, part.2.2)) last).count x ≤
      (weave x (parts.map fun part => (part.1, part.2.1)) last).count x := by
  induction parts with
  | nil => exact Nat.le_refl _
  | cons part parts ih =>
    obtain ⟨here, later⟩ := List.forall_mem_cons.mp gained
    have rest := ih later
    simp only [List.map_cons, weave, List.count_append, List.count_cons_self]
    omega

-- Slots that only gained marks are told apart by where the marks stand.
theorem weave_eq_iff {x : α} {parts : List (List α × List α × List α)}
    (gained : ∀ part ∈ parts, part.2.2.count x ≤ part.2.1.count x) (last : List α) :
    weave x (parts.map fun part => (part.1, part.2.1)) last =
        weave x (parts.map fun part => (part.1, part.2.2)) last ↔
      ∀ part ∈ parts, part.2.1 = part.2.2 := by
  induction parts with
  | nil => simp
  | cons part parts ih =>
    obtain ⟨here, later⟩ := List.forall_mem_cons.mp gained
    have rest := count_weave_le later last
    rw [List.forall_mem_cons]
    refine Iff.trans ?_ (and_congr_right fun _ => ih later)
    simp only [List.map_cons, weave, List.append_cancel_left_eq]
    constructor
    · intro same
      have counted := congrArg (List.count x) same
      simp only [List.count_append, List.count_cons_self] at counted
      exact append_cons_inj (by omega) same
    · rintro ⟨slot, same⟩
      rw [slot, same]

end Replace

namespace RustStr

/-- `str::replace`, for a pattern that is not empty. -/
def replace (s pattern put : String) : String :=
  String.ofList (Replace.replace pattern.toList put.toList s.toList)

@[simp] theorem toList_replace (s pattern put : String) :
    (replace s pattern put).toList = Replace.replace pattern.toList put.toList s.toList := by
  rw [replace, String.toList_ofList]

end RustStr
