import Mathlib

set_option autoImplicit false

namespace Tagged

variable {α : Type} (sep : α) (Digit : α → Prop) (width : Nat)

/-- No separator of the text has a whole tag behind it. -/
def Untagged (text : List α) : Prop :=
  ∀ before digits after, text = before ++ sep :: (digits ++ after) → digits.length = width →
    ¬ ∀ c ∈ digits, Digit c

variable {sep Digit width}

theorem mem_of_split {digits rest front back : List α}
    (split : digits ++ rest = front ++ sep :: back) (inside : front.length < digits.length) : sep ∈ digits := by
  rcases List.append_eq_append_iff.mp split with ⟨gap, longer, -⟩ | ⟨gap, whole, tail⟩
  · rw [longer, List.length_append] at inside
    omega
  · cases gap with
    | nil => simp [whole] at inside
    | cons x gap =>
      obtain ⟨rfl, -⟩ := List.cons.inj tail
      simp [whole]

theorem untagged_of_free {text : List α} (free : sep ∉ text) : Untagged sep Digit width text := by
  rintro before digits after rfl - -
  exact free (by simp)

theorem untagged_of_short [DecidableEq α] {text : List α}
    (short : (text.dropWhile (· ≠ sep)).length ≤ width) : Untagged sep Digit width text := by
  rintro before digits after rfl long -
  induction before with
  | nil =>
    simp at short
    omega
  | cons x before ih =>
    by_cases same : x = sep
    next =>
      simp [same] at short
      omega
    next => exact ih (by simpa [same] using short)

-- The one separator stands in front of a number that is too short.
theorem untagged_of_number {number tail : List α} {stop : α} (short : number.length < width)
    (stops : ¬ Digit stop) (free : sep ∉ number ++ stop :: tail) :
    Untagged sep Digit width (sep :: (number ++ stop :: tail)) := by
  intro before digits after split long all
  cases before with
  | nil =>
    have same : digits ++ after = number ++ stop :: tail := (List.cons.inj split).2.symm
    exact stops (all stop (mem_of_split same (by omega)))
  | cons x before =>
    have same := (List.cons.inj split).2
    exact free (by simp [same])

section Tag

variable {name name' digits digits' rest : List α} (apart : ¬ Digit sep)
  (short : name'.length < width) (all : ∀ c ∈ digits, Digit c) (all' : ∀ c ∈ digits', Digit c)
  (long : digits.length = width) (long' : digits'.length = width)
  (untagged : Untagged sep Digit width rest)

include apart short all all' long long' untagged

theorem tag_infix_iff :
    name ++ sep :: digits <:+: name' ++ sep :: (digits' ++ rest) ↔
      name <:+ name' ∧ digits = digits' := by
  constructor
  · rintro ⟨front, back, same⟩
    have aligned :
        front ++ name ++ sep :: (digits ++ back) = name' ++ sep :: (digits' ++ rest) := by
      simpa using same
    have here (met : front ++ name = name') (behind : digits ++ back = digits' ++ rest) :
        name <:+ name' ∧ digits = digits' :=
      ⟨⟨front, met⟩, List.append_inj_left behind (by rw [long, long'])⟩
    rcases List.append_eq_append_iff.mp aligned with ⟨gap, name_split, behind⟩ | ⟨gap, met, behind⟩
    · cases gap with
      | nil => exact here (by simpa using name_split.symm) (List.cons.inj behind).2
      | cons x gap =>
        -- the tag starts inside the name, and its digits run into the separator
        have inside : gap.length < digits.length := by
          rw [name_split, List.length_append, List.length_cons] at short
          omega
        exact absurd (all sep (mem_of_split (List.cons.inj behind).2 inside)) apart
    · cases gap with
      | nil => exact here (by simpa using met) (List.cons.inj behind).2.symm
      | cons x gap =>
        -- it starts behind the digits, where no tag is
        have later : digits' ++ rest = gap ++ sep :: (digits ++ back) := (List.cons.inj behind).2
        rcases List.append_eq_append_iff.mp later with ⟨lead, -, tail⟩ | ⟨lead, whole, tail⟩
        · exact absurd all (untagged lead digits back tail long)
        · cases lead with
          | nil => exact absurd all (untagged [] digits back (by simpa using tail.symm) long)
          | cons y lead =>
            obtain ⟨rfl, -⟩ := List.cons.inj tail
            exact absurd (all' sep (by simp [whole])) apart
  · rintro ⟨⟨front, rfl⟩, rfl⟩
    exact ⟨front, rest, by simp⟩

end Tag

end Tagged
