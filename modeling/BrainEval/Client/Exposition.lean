import Mathlib
import BrainEval.Client.Metrics

set_option autoImplicit false

namespace BrainEval.PrometheusMetrics

open RustStr

def isNameChar (c : Char) : Bool := c.isAlphanum || c == '_' || c == ':'

/-- A series of an exposition: the family, its labels in the order they are written, and the
literal of its value. -/
structure Series where
  name : String
  labels : List (String × String)
  literal : String
  value : Float
  nonempty : name ≠ ""
  named : ∀ c ∈ name.toList, isNameChar c = true
  labelled : ∀ label ∈ labels, ∀ c ∈ label.1.toList, isNameChar c = true
  distinct : (labels.map Prod.fst).Nodup
  solid : ∀ c ∈ literal.toList, isWhitespace c = false
  spelled : parseF64 literal.toList = some value

def escapeChar (c : Char) : List Char :=
  if c = '\\' then ['\\', '\\']
  else if c = '"' then ['\\', '"']
  else if c = '\n' then ['\\', 'n']
  else [c]

def escaped (value : String) : List Char := value.toList.flatMap escapeChar

def labelText (label : String × String) : List Char :=
  label.1.toList ++ '=' :: '"' :: (escaped label.2 ++ ['"'])

-- The label body up to its closing brace, as the parser keeps it.
def labelBody : List (String × String) → List Char
  | [] => []
  | [label] => labelText label ++ ['\x7d']
  | label :: labels => labelText label ++ ',' :: labelBody labels

namespace Series

variable (s : Series)

def head : List Char :=
  s.name.toList ++ if s.labels = [] then [] else '\x7b' :: labelBody s.labels

def line : List Char := s.head ++ ' ' :: s.literal.toList

def sample : Sample := ⟨s.name, String.ofList (labelBody s.labels), s.value⟩

end Series

def exposition (series : List Series) : String :=
  String.ofList ((series.map (·.line)).flatMap (· ++ ['\n']))

def scraped (series : List Series) : PrometheusMetrics := ⟨series.map (·.sample)⟩

theorem isNameChar_range {c : Char} (name : isNameChar c = true) :
    48 ≤ c.toNat ∧ c.toNat ≤ 122 := by
  simp only [isNameChar, Bool.or_eq_true, beq_iff_eq] at name
  rcases name with (alphanumeric | rfl) | rfl
  · exact isAlphanum_range alphanumeric
  · decide
  · decide

theorem isWhitespace_of_isNameChar {c : Char} (name : isNameChar c = true) :
    isWhitespace c = false := by
  obtain ⟨low, high⟩ := isNameChar_range name
  exact isWhitespace_of_range (by omega) (by omega)

theorem named_of_all {text : String} (all : text.toList.all isNameChar = true) :
    ∀ c ∈ text.toList, isNameChar c = true := List.all_eq_true.mp all

def wellFormed (name : String) (labels : List (String × String)) (literal : String) : Bool :=
  name.toList.all isNameChar && labels.all (·.1.toList.all isNameChar) &&
    literal.toList.all (!isWhitespace ·)

-- A series whose fields are checked by evaluation.
def Series.ofFields (name : String) (labels : List (String × String)) (literal : String)
    (value : Float) (checked : wellFormed name labels literal = true) (nonempty : name ≠ "")
    (distinct : (labels.map Prod.fst).Nodup) (spelled : parseF64 literal.toList = some value) :
    Series :=
  have parts : (name.toList.all isNameChar = true ∧
      labels.all (·.1.toList.all isNameChar) = true) ∧
      literal.toList.all (!isWhitespace ·) = true := by
    simpa only [wellFormed, Bool.and_eq_true] using checked
  { name, labels, literal, value, nonempty, distinct, spelled
    named := named_of_all parts.1.1
    labelled := fun label member => named_of_all (List.all_eq_true.mp parts.1.2 label member)
    solid := fun c member => by simpa using List.all_eq_true.mp parts.2 c member }

theorem not_mem_of_named {name : List Char} (named : ∀ c ∈ name, isNameChar c = true) {c : Char}
    (other : isNameChar c = false) : c ∉ name := fun member => by
  rw [named c member] at other
  cases other

theorem not_mem_escaped (value : String) : '\n' ∉ escaped value := by
  intro member
  obtain ⟨c, -, inside⟩ := List.mem_flatMap.mp member
  unfold escapeChar at inside
  split at inside
  · simp at inside
  · split at inside
    · simp at inside
    · split at inside
      · simp at inside
      · exact absurd (List.mem_singleton.mp inside).symm ‹_›

theorem not_mem_labelBody {labels : List (String × String)}
    (labelled : ∀ label ∈ labels, ∀ c ∈ label.1.toList, isNameChar c = true) :
    '\n' ∉ labelBody labels := by
  have one : ∀ label ∈ labels, '\n' ∉ labelText label := by
    intro label member
    have name := not_mem_of_named (labelled label member) (c := '\n') (by decide)
    simp [labelText, name, not_mem_escaped]
  induction labels with
  | nil => simp [labelBody]
  | cons label labels ih =>
    obtain ⟨here, rest⟩ := List.forall_mem_cons.mp one
    have later := ih (List.forall_mem_cons.mp labelled).2 rest
    cases labels <;> simp [labelBody, here, later]

theorem labelBody_last {labels : List (String × String)} (some_label : labels ≠ []) :
    (labelBody labels).getLast? = some '\x7d' := by
  induction labels with
  | nil => exact absurd rfl some_label
  | cons label labels ih =>
    cases labels with
    | nil => simp [labelBody]
    | cons next labels =>
      rw [labelBody, List.getLast?_append, List.getLast?_cons, ih (by simp)]
      · simp
      · simp

namespace Series

variable (s : Series)

theorem name_ne_nil : s.name.toList ≠ [] := by
  simpa [String.toList_eq_nil_iff] using s.nonempty

theorem head_first {x : Char} (first : s.head.head? = some x) : isWhitespace x = false := by
  rw [head, List.head?_append_of_ne_nil _ s.name_ne_nil] at first
  exact isWhitespace_of_isNameChar (s.named x (List.mem_of_head? first))

theorem head_last {y : Char} (last : s.head.getLast? = some y) : isWhitespace y = false := by
  by_cases bare : s.labels = []
  · simp only [head, bare, if_true, List.append_nil] at last
    exact isWhitespace_of_isNameChar (s.named y (List.mem_of_getLast? last))
  · simp only [head, bare, if_false, List.getLast?_append, List.getLast?_cons,
      labelBody_last bare, Option.getD_some, Option.some_or, Option.some.injEq] at last
    exact last ▸ by decide

theorem trimChars_head : trimChars s.head = s.head :=
  trimChars_eq_self (fun _ => s.head_first) (fun _ => s.head_last)

theorem splitOnce_head : splitOnce s.head = (s.name.toList, labelBody s.labels) := by
  have closed : ∀ c ∈ s.name.toList, c ≠ '\x7b' := fun c member =>
    ne_of_mem_of_not_mem member (not_mem_of_named s.named (by decide))
  by_cases bare : s.labels = []
  · simp only [head, bare, if_true, List.append_nil, splitOnce_bare closed]
    rfl
  · have trimmed : trimChars s.name.toList = s.name.toList :=
      trimChars_of_solid fun c member => isWhitespace_of_isNameChar (s.named c member)
    simp only [head, bare, if_false, splitOnce_braced closed trimmed]

theorem literal_ne_nil : s.literal.toList ≠ [] := by
  intro empty
  have spelled := s.spelled
  rw [empty] at spelled
  cases spelled

theorem trimChars_line : trimChars s.line = s.line := by
  refine trimChars_eq_self (fun x first => ?_) (fun y last => ?_)
  · rw [line, List.head?_append_of_ne_nil] at first
    · exact s.head_first first
    · simp [head, s.name_ne_nil]
  · rw [line, List.append_cons, List.getLast?_append_of_ne_nil _ s.literal_ne_nil] at last
    exact s.solid y (List.mem_of_getLast? last)

theorem line_first : ∃ x, s.line.head? = some x ∧ x ≠ '#' := by
  obtain ⟨x, cs, name⟩ := List.exists_cons_of_ne_nil s.name_ne_nil
  have named := s.named x (name ▸ List.mem_cons_self)
  refine ⟨x, by simp [line, head, name], ?_⟩
  rintro rfl
  exact absurd named (by decide)

theorem parseLine_line : parseLine s.line = some (some s.sample) := by
  obtain ⟨x, first, other⟩ := s.line_first
  have front : s.line.rdropWhile (!isWhitespace ·) = s.head ++ [' '] := rdropWhile_token s.solid
  have token : s.line.rtakeWhile (!isWhitespace ·) = s.literal.toList := rtakeWhile_token s.solid
  simp only [parseLine, s.trimChars_line, first, front, token, List.getLast?_concat, s.spelled,
    List.dropLast_concat, s.trimChars_head, s.splitOnce_head, s.name_ne_nil, if_false,
    String.ofList_toList]
  rw [if_neg (by decide)]
  rfl

theorem not_mem_line : '\n' ∉ s.line := by
  have name := not_mem_of_named s.named (c := '\n') (by decide)
  have literal : '\n' ∉ s.literal.toList := fun member => absurd (s.solid _ member) (by decide)
  have body := not_mem_labelBody s.labelled
  by_cases bare : s.labels = [] <;> simp [line, head, bare, name, literal, body]

end Series

theorem parse_exposition (series : List Series) :
    parse (exposition series) = some (scraped series) := by
  have single : ∀ line ∈ series.map Series.line, '\n' ∉ line := by
    intro line member
    obtain ⟨s, -, rfl⟩ := List.mem_map.mp member
    exact s.not_mem_line
  have lines : (series.map Series.line ++ [[]]).mapM parseLine =
      some (series.map (fun s => some s.sample) ++ [none]) := by
    clear single
    induction series with
    | nil => rfl
    | cons s series ih =>
      rw [List.map_cons, List.cons_append, List.mapM_cons, s.parseLine_line, ih]
      rfl
  rw [parse, exposition, String.toList_ofList, splitOnP_lines single, lines]
  simp [scraped, List.reduceOption]

end BrainEval.PrometheusMetrics
