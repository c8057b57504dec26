import Mathlib
import BrainEval.Lib.Occurrence
import BrainEval.Client.Exposition

set_option autoImplicit false

namespace BrainEval.PrometheusMetrics

open RustStr Occurrence

def Plain (text : List Char) : Prop := ∀ c ∈ text, c ≠ '\\' ∧ c ≠ '"' ∧ c ≠ '\n'

theorem plain_of_named {text : List Char} (named : ∀ c ∈ text, isNameChar c = true) :
    Plain text := fun c member => by
  have here := named c member
  refine ⟨?_, ?_, ?_⟩ <;> rintro rfl <;> exact absurd here (by decide)

theorem escapeChar_plain {c : Char} (plain : c ≠ '\\' ∧ c ≠ '"' ∧ c ≠ '\n') :
    escapeChar c = [c] := by
  simp [escapeChar, plain]

theorem escapeChar_special {c : Char} (special : ¬(c ≠ '\\' ∧ c ≠ '"' ∧ c ≠ '\n')) :
    ∃ d, escapeChar c = ['\\', d] ∧ (d = '\\' ∨ d = '"' ∨ d = 'n') := by
  by_cases slash : c = '\\'
  · exact ⟨_, by rw [escapeChar, if_pos slash], .inl rfl⟩
  by_cases quote : c = '"'
  · exact ⟨_, by rw [escapeChar, if_neg slash, if_pos quote], .inr (.inl rfl)⟩
  have newline : c = '\n' := by simpa [slash, quote] using special
  exact ⟨_, by rw [escapeChar, if_neg slash, if_neg quote, if_pos newline], .inr (.inr rfl)⟩

theorem quote_not_mem_escapeChar {c : Char} (other : c ≠ '"') : '"' ∉ escapeChar c := by
  by_cases slash : c = '\\'
  · simp [escapeChar, slash]
  by_cases newline : c = '\n'
  · simp [escapeChar, newline]
  simp [escapeChar, slash, newline, other, other.symm]

-- A quoted text is a prefix of a quoted value only if it is the whole value.
theorem quoted_prefix_iff {x v rest after : List Char} (plain : Plain x) :
    x ++ '"' :: rest <+: v.flatMap escapeChar ++ '"' :: after ↔ v = x ∧ rest <+: after := by
  induction x generalizing v with
  | nil =>
    cases v with
    | nil => simp
    | cons c v =>
      by_cases special : c ≠ '\\' ∧ c ≠ '"' ∧ c ≠ '\n'
      · simp [escapeChar_plain special, List.cons_prefix_cons, special.2.1.symm]
      · obtain ⟨d, escape, -⟩ := escapeChar_special special
        simp [escape, List.cons_prefix_cons]
  | cons d x ih =>
    obtain ⟨here, plain⟩ := List.forall_mem_cons.mp plain
    cases v with
    | nil => simp [List.cons_prefix_cons, here.2.1]
    | cons c v =>
      by_cases special : c ≠ '\\' ∧ c ≠ '"' ∧ c ≠ '\n'
      · have next := ih (v := v) plain
        simp [escapeChar_plain special, List.cons_prefix_cons, next, eq_comm, and_assoc]
      · obtain ⟨e, escape, -⟩ := escapeChar_special special
        have other : d ≠ c := fun same => special (same ▸ here)
        simp [escape, List.cons_prefix_cons, here.1, other.symm]

theorem infix_value_iff {front rest v text after : List Char} (unquoted : '"' ∉ front)
    (clean : '"' ∉ text) (opens : ¬ rest <+: after) :
    (front ++ ['=']) ++ '"' :: rest <:+: text ++ v.flatMap escapeChar ++ '"' :: after ↔
      (front ++ ['=']) ++ '"' :: rest <:+: after := by
  have left : '"' ∉ front ++ ['='] := by simpa using unquoted
  induction v generalizing text with
  | nil =>
    rw [List.flatMap_nil, List.append_nil, infix_anchor_iff left clean]
    simp [opens]
  | cons c v ih =>
    by_cases quote : c = '"'
    · subst quote
      have clean' : '"' ∉ text ++ ['\\'] := by simpa using clean
      have split : text ++ ('"' :: v).flatMap escapeChar ++ '"' :: after =
          (text ++ ['\\']) ++ '"' :: (v.flatMap escapeChar ++ '"' :: after) := by
        simp [escapeChar]
      have unescaped : ¬ front ++ ['='] <:+ text ++ ['\\'] := by
        intro suffix
        have last := suffix.getLast (by simp)
        simp at last
      rw [split, infix_anchor_iff left clean', or_iff_right fun both => unescaped both.1]
      simpa using ih List.not_mem_nil
    · have other : '"' ∉ text ++ escapeChar c := by
        simpa using ⟨clean, quote_not_mem_escapeChar quote⟩
      rw [List.flatMap_cons, ← List.append_assoc text]
      exact ih other

def tailText : List (String × String) → List Char
  | [] => ['\x7d']
  | labels => ',' :: labelBody labels

theorem labelBody_cons (label : String × String) (labels : List (String × String)) :
    labelBody (label :: labels) = labelText label ++ tailText labels := by
  cases labels <;> rfl

theorem labelBody_spread (label : String × String) (labels : List (String × String)) :
    labelBody (label :: labels) =
      label.1.toList ++ '=' :: ('"' :: (escaped label.2 ++ '"' :: tailText labels)) := by
  simp [labelBody_cons, labelText]

/-- A needle that opens with the end of a label name and a whole value. -/
structure Needle where
  key : List Char
  value : List Char
  rest : List Char
  named : ∀ c ∈ key, isNameChar c = true
  plain : Plain value
  opens : ∃ c, value.head? = some c ∧ c ≠ ',' ∧ c ≠ '\x7d'

namespace Needle

variable (needle : Needle)

def text : List Char := needle.key ++ '=' :: '"' :: (needle.value ++ '"' :: needle.rest)

theorem text_head {c : Char} {after : List Char} (start : needle.text <+: c :: after) :
    c = '=' ∨ isNameChar c = true := by
  cases key : needle.key with
  | nil =>
    rw [text, key] at start
    exact .inl (List.cons_prefix_cons.mp start).1.symm
  | cons d key' =>
    rw [text, key] at start
    obtain rfl := (List.cons_prefix_cons.mp start).1
    exact .inr (needle.named d (key ▸ List.mem_cons_self))

theorem infix_tailText_iff (labels : List (String × String)) :
    needle.text <:+: tailText labels ↔ needle.text <:+: labelBody labels := by
  have start : ∀ {c : Char} {after : List Char}, c ≠ '=' → isNameChar c = false →
      (needle.text <:+: c :: after ↔ needle.text <:+: after) := by
    intro c after equals name
    rw [List.infix_cons_iff, or_iff_right]
    intro start
    rcases needle.text_head start with same | named
    · exact equals same
    · rw [name] at named
      cases named
  cases labels with
  | nil => exact start (by decide) (by decide)
  | cons label labels => exact start (by decide) (by decide)

theorem infix_labelBody_cons {label : String × String} {labels : List (String × String)}
    (named : ∀ c ∈ label.1.toList, isNameChar c = true) :
    needle.text <:+: labelBody (label :: labels) ↔
      (needle.key <:+ label.1.toList ∧ label.2.toList = needle.value ∧
        needle.rest <+: tailText labels) ∨ needle.text <:+: labelBody labels := by
  have apart : ¬ needle.value ++ '"' :: needle.rest <+: tailText labels := by
    obtain ⟨c, first, comma, brace⟩ := needle.opens
    obtain ⟨value, same⟩ := List.head?_eq_some_iff.mp first
    rw [same]
    intro start
    cases labels with
    | nil => exact brace (List.cons_prefix_cons.mp start).1
    | cons next labels => exact comma (List.cons_prefix_cons.mp start).1
  have inside : needle.text <:+: '"' :: (escaped label.2 ++ '"' :: tailText labels) ↔
      needle.text <:+: tailText labels := by
    have spread : needle.text =
        (needle.key ++ ['=']) ++ '"' :: (needle.value ++ '"' :: needle.rest) := by simp [text]
    have unquoted := not_mem_of_named needle.named (c := '"') (by decide)
    have outside : '"' ∉ needle.key ++ ['='] := by simpa using unquoted
    have skipped := infix_value_iff (v := label.2.toList) unquoted List.not_mem_nil apart
    rw [List.nil_append, ← spread] at skipped
    rw [← List.nil_append ('"' :: _), spread, infix_anchor_iff outside List.not_mem_nil, ← spread,
      or_iff_right (by simp)]
    exact skipped
  rw [labelBody_spread, text, infix_anchor_iff (not_mem_of_named needle.named (by decide))
    (not_mem_of_named named (by decide)), ← text, inside, needle.infix_tailText_iff,
    List.cons_prefix_cons, escaped, quoted_prefix_iff needle.plain]
  simp

theorem infix_labelBody_iff {labels : List (String × String)}
    (named : ∀ label ∈ labels, ∀ c ∈ label.1.toList, isNameChar c = true) :
    needle.text <:+: labelBody labels ↔ ∃ before label after, labels = before ++ label :: after ∧
      needle.key <:+ label.1.toList ∧ label.2.toList = needle.value ∧
        needle.rest <+: tailText after := by
  induction labels with
  | nil => simp [labelBody, text]
  | cons label labels ih =>
    obtain ⟨here, named⟩ := List.forall_mem_cons.mp named
    rw [needle.infix_labelBody_cons here, ih named]
    constructor
    · rintro (⟨key, value, rest⟩ | ⟨before, found, after, rfl, met⟩)
      · exact ⟨[], label, labels, rfl, key, value, rest⟩
      · exact ⟨label :: before, found, after, rfl, met⟩
    · rintro ⟨_ | ⟨first, before⟩, found, after, same, met⟩
      · obtain ⟨rfl, rfl⟩ := List.cons_eq_cons.mp same
        exact .inl met
      · obtain ⟨rfl, rfl⟩ := List.cons_eq_cons.mp same
        exact .inr ⟨before, found, after, rfl, met⟩

end Needle

section Word

/-- A bare name that no escape sequence can start. -/
structure Word (word : List Char) : Prop where
  named : ∀ c ∈ word, isNameChar c = true
  starts : ∃ c, word.head? = some c ∧ c ≠ 'n'

variable {word : List Char}

theorem Word.infix_cons_iff (is_word : Word word) {c : Char} {text : List Char}
    (other : isNameChar c = false ∨ c = 'n') : word <:+: c :: text ↔ word <:+: text := by
  obtain ⟨d, first, start⟩ := is_word.starts
  obtain ⟨rest, rfl⟩ := List.head?_eq_some_iff.mp first
  have named := is_word.named d List.mem_cons_self
  rw [List.infix_cons_iff, or_iff_right]
  intro begins
  obtain rfl := (List.cons_prefix_cons.mp begins).1
  rcases other with name | rfl
  · rw [name] at named
    cases named
  · exact start rfl

theorem prefix_escaped_iff (plain : Plain word) {v : List Char} :
    word <+: v.flatMap escapeChar ↔ word <+: v := by
  induction v generalizing word with
  | nil => rfl
  | cons c v ih =>
    cases word with
    | nil => simp
    | cons d word =>
      obtain ⟨here, plain⟩ := List.forall_mem_cons.mp plain
      by_cases special : c ≠ '\\' ∧ c ≠ '"' ∧ c ≠ '\n'
      · simp [escapeChar_plain special, List.cons_prefix_cons, ih plain]
      · obtain ⟨e, escape, -⟩ := escapeChar_special special
        have other : d ≠ c := fun same => special (same ▸ here)
        simp [escape, List.cons_prefix_cons, here.1, other]

theorem Word.infix_escaped_iff (is_word : Word word) (v : List Char) :
    word <:+: v.flatMap escapeChar ↔ word <:+: v := by
  induction v with
  | nil => rfl
  | cons c v ih =>
    by_cases special : c ≠ '\\' ∧ c ≠ '"' ∧ c ≠ '\n'
    · have start : word <+: c :: v.flatMap escapeChar ↔ word <+: c :: v := by
        have whole := prefix_escaped_iff (plain_of_named is_word.named) (v := c :: v)
        rwa [List.flatMap_cons, escapeChar_plain special, List.singleton_append] at whole
      rw [List.flatMap_cons, escapeChar_plain special, List.singleton_append, List.infix_cons_iff,
        List.infix_cons_iff, start, ih]
    · obtain ⟨d, escape, second⟩ := escapeChar_special special
      have here : isNameChar c = false := by
        have three : c = '\\' ∨ c = '"' ∨ c = '\n' := by tauto
        rcases three with rfl | rfl | rfl <;> decide
      have next : isNameChar d = false ∨ d = 'n' := by
        rcases second with rfl | rfl | rfl
        · exact .inl (by decide)
        · exact .inl (by decide)
        · exact .inr rfl
      rw [List.flatMap_cons, escape, List.cons_append, List.singleton_append,
        is_word.infix_cons_iff (.inl (by decide)), is_word.infix_cons_iff next, ih,
        is_word.infix_cons_iff (.inl here)]

theorem Word.infix_labelBody_iff (is_word : Word word) (labels : List (String × String)) :
    word <:+: labelBody labels ↔
      ∃ label ∈ labels, word <:+: label.1.toList ∨ word <:+: label.2.toList := by
  induction labels with
  | nil =>
    obtain ⟨c, first, -⟩ := is_word.starts
    have nonempty : word ≠ [] := by
      rintro rfl
      cases first
    simp [labelBody, nonempty]
  | cons label labels ih =>
    have tail : word <:+: tailText labels ↔ word <:+: labelBody labels := by
      cases labels with
      | nil => exact is_word.infix_cons_iff (.inl (by decide))
      | cons next labels => exact is_word.infix_cons_iff (.inl (by decide))
    rw [labelBody_spread, infix_append_cons_iff (not_mem_of_named is_word.named (by decide)),
      is_word.infix_cons_iff (.inl (by decide)),
      infix_append_cons_iff (not_mem_of_named is_word.named (by decide)), escaped,
      is_word.infix_escaped_iff, tail, ih]
    simp [or_assoc]

end Word

def labelNeedle (key value : String) : String := key ++ "=\"" ++ value ++ "\""

structure NamedPair (key value : String) : Prop where
  keyNamed : ∀ c ∈ key.toList, isNameChar c = true
  valueNamed : ∀ c ∈ value.toList, isNameChar c = true
  nonempty : value ≠ ""

def NamedPair.needle {key value : String} (pair : NamedPair key value) (rest : List Char) :
    Needle where
  key := key.toList
  value := value.toList
  rest := rest
  named := pair.keyNamed
  plain := plain_of_named pair.valueNamed
  opens := by
    have nonempty : value.toList ≠ [] := by simpa using pair.nonempty
    obtain ⟨c, rest, same⟩ := List.exists_cons_of_ne_nil nonempty
    have named := pair.valueNamed c (same ▸ List.mem_cons_self)
    refine ⟨c, by rw [same]; rfl, ?_, ?_⟩ <;> rintro rfl <;> exact absurd named (by decide)

theorem labelNeedle_prefix_iff {next value : String} {after : List (String × String)}
    (named : ∀ label ∈ after, ∀ c ∈ label.1.toList, isNameChar c = true)
    (pair : NamedPair next value) :
    ',' :: (labelNeedle next value).toList <+: tailText after ↔
      ∃ rest, after = (next, value) :: rest := by
  cases after with
  | nil => simp [tailText, List.cons_prefix_cons]
  | cons label rest =>
    have here := (List.forall_mem_cons.mp named).1
    have needle : (labelNeedle next value).toList =
        next.toList ++ '=' :: ('"' :: (value.toList ++ '"' :: [])) := by simp [labelNeedle]
    have front : tailText (label :: rest) = ',' :: labelBody (label :: rest) := rfl
    rw [front, labelBody_spread, needle, List.cons_prefix_cons,
      prefix_anchor_iff (not_mem_of_named pair.keyNamed (by decide))
        (not_mem_of_named here (by decide)),
      List.cons_prefix_cons, escaped, quoted_prefix_iff (plain_of_named pair.valueNamed)]
    obtain ⟨name, v⟩ := label
    simp only [String.toList_inj, true_and, List.nil_prefix, and_true, List.cons.injEq,
      Prod.mk.injEq, exists_and_left, exists_eq', eq_comm]

section Contains

variable {labels : List (String × String)} {key value : String}

theorem contains_word_iff {word : String} (is_word : Word word.toList) :
    contains (String.ofList (labelBody labels)) word = true ↔
      ∃ label ∈ labels, contains label.1 word = true ∨ contains label.2 word = true := by
  simp only [contains_iff, String.toList_ofList, is_word.infix_labelBody_iff]

variable (named : ∀ label ∈ labels, ∀ c ∈ label.1.toList, isNameChar c = true)
  (pair : NamedPair key value)

include named pair

-- A needle of one label finds the end of a name and a whole value.
theorem contains_labelNeedle_iff :
    contains (String.ofList (labelBody labels)) (labelNeedle key value) = true ↔
      ∃ label ∈ labels, key.toList <:+ label.1.toList ∧ label.2 = value := by
  have text : (labelNeedle key value).toList = (pair.needle []).text := by
    simp [labelNeedle, Needle.text, NamedPair.needle]
  rw [contains_iff, String.toList_ofList, text, Needle.infix_labelBody_iff _ named]
  constructor
  · rintro ⟨before, label, after, rfl, ends, same, -⟩
    exact ⟨label, by simp, ends, String.toList_inj.mp same⟩
  · rintro ⟨label, member, ends, rfl⟩
    obtain ⟨before, after, rfl⟩ := List.append_of_mem member
    exact ⟨before, label, after, rfl, ends, rfl, List.nil_prefix⟩

-- A needle of two labels finds them only side by side and in its order.
theorem contains_adjacent_iff {next value' : String} (pair' : NamedPair next value') :
    contains (String.ofList (labelBody labels))
        (labelNeedle key value ++ "," ++ labelNeedle next value') = true ↔
      ∃ before label after, labels = before ++ label :: (next, value') :: after ∧
        key.toList <:+ label.1.toList ∧ label.2 = value := by
  have text : (labelNeedle key value ++ "," ++ labelNeedle next value').toList =
      (pair.needle (',' :: (labelNeedle next value').toList)).text := by
    simp [labelNeedle, Needle.text, NamedPair.needle]
  rw [contains_iff, String.toList_ofList, text, Needle.infix_labelBody_iff _ named]
  constructor
  · rintro ⟨before, label, after, rfl, ends, same, goes⟩
    have behind : ∀ label ∈ after, ∀ c ∈ label.1.toList, isNameChar c = true :=
      fun other member => named other (by simp [member])
    obtain ⟨rest, rfl⟩ := (labelNeedle_prefix_iff behind pair').mp goes
    exact ⟨before, label, rest, rfl, ends, String.toList_inj.mp same⟩
  · rintro ⟨before, label, rest, rfl, ends, rfl⟩
    have behind : ∀ label ∈ (next, value') :: rest, ∀ c ∈ label.1.toList, isNameChar c = true :=
      fun other member => named other (List.mem_append_right _ (List.mem_cons_of_mem _ member))
    exact ⟨before, label, _, rfl, ends, rfl, (labelNeedle_prefix_iff behind pair').mpr ⟨rest, rfl⟩⟩

end Contains

end BrainEval.PrometheusMetrics
