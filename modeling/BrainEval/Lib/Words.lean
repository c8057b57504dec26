import Mathlib

set_option autoImplicit false

namespace Words

variable {α : Type} {p : α → Bool}

/-- The longest pieces of a text without a separator. -/
def words (p : α → Bool) (text : List α) : List (List α) := (text.splitOnP p).filter (· ≠ [])

@[simp] theorem words_nil : words p [] = [] := by simp [words]

theorem words_append_cons (front back : List α) {x : α} (separates : p x = true) :
    words p (front ++ x :: back) = words p front ++ words p back := by
  rw [words, List.splitOnP_append_cons front back separates, List.filter_append]
  rfl

theorem words_cons (back : List α) {x : α} (separates : p x = true) :
    words p (x :: back) = words p back := by
  simpa using words_append_cons [] back separates

theorem words_concat (front : List α) {x : α} (separates : p x = true) :
    words p (front ++ [x]) = words p front := by
  simpa using words_append_cons front [] separates

theorem words_of_solid {word : List α} (nonempty : word ≠ [])
    (solid : ∀ x ∈ word, p x = false) : words p word = [word] := by
  rw [words, List.splitOnP_eq_singleton solid]
  simp [nonempty]

section Blank

variable {blank : List α} (separates : ∀ x ∈ blank, p x = true)

include separates

theorem words_blank_append (back : List α) : words p (blank ++ back) = words p back := by
  induction blank with
  | nil => rfl
  | cons x blank ih =>
    obtain ⟨first, rest⟩ := List.forall_mem_cons.mp separates
    rw [List.cons_append, words_cons _ first, ih rest]

theorem words_append_blank (front : List α) : words p (front ++ blank) = words p front := by
  induction blank using List.reverseRecOn with
  | nil => rw [List.append_nil]
  | append_singleton blank x ih =>
    have last : p x = true := separates x (by simp)
    have rest : ∀ y ∈ blank, p y = true :=
      fun y member => separates y (List.mem_append_left _ member)
    rw [← List.append_assoc, words_concat _ last, ih rest]

theorem words_word_append {word : List α} (nonempty : word ≠ [])
    (solid : ∀ x ∈ word, p x = false) (some : blank ≠ []) (back : List α) :
    words p (word ++ (blank ++ back)) = word :: words p back := by
  obtain ⟨x, rest, rfl⟩ := List.exists_cons_of_ne_nil some
  obtain ⟨first, rest⟩ := List.forall_mem_cons.mp separates
  rw [List.cons_append, words_append_cons _ _ first, words_of_solid nonempty solid,
    words_blank_append rest]
  rfl

end Blank

theorem words_dropWhile (text : List α) : words p (text.dropWhile p) = words p text := by
  conv_rhs => rw [← List.takeWhile_append_dropWhile (p := p) (l := text)]
  exact (words_blank_append (fun x member => List.mem_takeWhile_imp member) _).symm

theorem words_rdropWhile (text : List α) : words p (text.rdropWhile p) = words p text := by
  conv_rhs => rw [← List.rdropWhile_append_rtakeWhile (p := p) (l := text)]
  exact (words_append_blank (fun x member => List.mem_rtakeWhile_imp member) _).symm

-- What stands between two separators is a word of the text.
theorem mem_words_of_infix {word text : List α} {x y : α} (nonempty : word ≠ [])
    (solid : ∀ z ∈ word, p z = false) (before : p x = true) (after : p y = true)
    (inside : x :: (word ++ [y]) <:+: text) : word ∈ words p text := by
  obtain ⟨front, back, rfl⟩ := inside
  have split : front ++ x :: (word ++ [y]) ++ back = front ++ x :: (word ++ y :: back) := by simp
  rw [split, words_append_cons _ _ before, words_append_cons _ _ after,
    words_of_solid nonempty solid]
  simp

end Words
