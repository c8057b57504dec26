import Mathlib
import BrainEval.Client.Exposition

set_option autoImplicit false

namespace BrainEval.PrometheusMetrics

open RustStr

/-- A line without a sample: a comment, one token, or a last token that is no number. -/
def Silent (raw : List Char) : Prop :=
  (trimChars raw).head? = some '#' ∨ (∀ c ∈ trimChars raw, isWhitespace c = false) ∨
    ∃ front blank token, trimChars raw = front ++ blank :: token ∧ isWhitespace blank = true ∧
      (∀ c ∈ token, isWhitespace c = false) ∧ blank.utf8Size = 1 ∧
      (parseF64 token = none ∨ front.head? = some '\x7b')

def GoodName (name : String) : Prop := name ≠ "" ∧ name.toList.head? ≠ some '#'

section Line

variable {raw front token : List Char} {blank : Char}

theorem first_of_trimmed {x : Char} (first : (trimChars raw).head? = some x) :
    isWhitespace x = false := by
  obtain ⟨rest, text⟩ := List.head?_eq_some_iff.mp first
  exact head_of_trimmed (text ▸ trimChars_trimChars raw)

theorem parseLine_of_comment (first : (trimChars raw).head? = some '#') :
    parseLine raw = some none := by
  simp only [parseLine, first]

theorem parseLine_of_solid (solid : ∀ c ∈ trimChars raw, isWhitespace c = false) :
    parseLine raw = some none := by
  have unsplit : (trimChars raw).rdropWhile (!isWhitespace ·) = [] := by
    rw [List.rdropWhile_eq_nil_iff]
    intro c member
    simp [solid c member]
  simp only [parseLine, unsplit, List.getLast?_nil]
  split
  next => rfl
  next => rfl
  next => rfl
  next absurd => simp at absurd

-- What is read of the text before the last token.
def readSample (front : List Char) (value : Float) : Option Sample :=
  let (name, labels) := splitOnce (trimChars front)
  if name = [] then none else some ⟨String.ofList name, String.ofList labels, value⟩

theorem parseLine_of_token (text : trimChars raw = front ++ blank :: token)
    (white : isWhitespace blank = true) (solid : ∀ c ∈ token, isWhitespace c = false)
    {x : Char} (first : front.head? = some x) (other : x ≠ '#') :
    parseLine raw =
      if blank.utf8Size ≠ 1 then none
      else some ((parseF64 token).bind (readSample front)) := by
  have head : (front ++ blank :: token).head? = some x := by rw [List.head?_append, first]; rfl
  simp only [parseLine, text, rdropWhile_blank white solid, rtakeWhile_blank white solid, head,
    List.getLast?_concat, List.dropLast_concat]
  split
  next => rfl
  next => cases parseF64 token <;> rfl

-- The text before the last token begins where the line does.
theorem front_first (text : trimChars raw = front ++ blank :: token)
    (white : isWhitespace blank = true) :
    ∃ x, front.head? = some x ∧ (trimChars raw).head? = some x ∧ isWhitespace x = false := by
  rcases front with _ | ⟨x, front⟩
  next =>
    have first : (trimChars raw).head? = some blank := by rw [text]; rfl
    rw [first_of_trimmed first] at white
    exact absurd white Bool.false_ne_true
  next =>
    have first : (trimChars raw).head? = some x := by rw [text]; rfl
    exact ⟨x, rfl, first, first_of_trimmed first⟩

theorem trimChars_first {x : Char} (solid : isWhitespace x = false) (rest : List Char) :
    ∃ tail, trimChars (x :: rest) = x :: tail := by
  have kept : (x :: rest).dropWhile isWhitespace = x :: rest :=
    List.dropWhile_cons_of_neg (by simp [solid])
  have start := List.rdropWhile_prefix isWhitespace (x :: rest)
  rw [trimChars, kept]
  rcases cut : (x :: rest).rdropWhile isWhitespace with _ | ⟨y, tail⟩
  next =>
    have white := List.rdropWhile_eq_nil_iff.mp cut x List.mem_cons_self
    rw [solid] at white
    exact absurd white Bool.false_ne_true
  next =>
    rw [cut] at start
    exact ⟨tail, by rw [(List.cons_prefix_cons.mp start).1]⟩

-- The name begins where the line does, and is empty when that is at the brace.
theorem readSample_first {x : Char} (first : front.head? = some x)
    (solid : isWhitespace x = false) (value : Float) :
    (x = '{' ∧ readSample front value = none) ∨
      (x ≠ '{' ∧ ∃ s, readSample front value = some s ∧ s.name.toList.head? = some x) := by
  obtain ⟨rest, rfl⟩ := List.head?_eq_some_iff.mp first
  obtain ⟨tail, trimmed⟩ := trimChars_first solid rest
  rw [readSample, trimmed]
  by_cases brace : x = '{'
  next =>
    subst brace
    exact Or.inl ⟨rfl, by simp [splitOnce, trimChars]⟩
  next =>
    refine Or.inr ⟨brace, ?_⟩
    have named : ∃ name, (splitOnce (x :: tail)).1 = x :: name := by
      unfold splitOnce
      split
      next => exact ⟨tail, rfl⟩
      next =>
        rw [List.takeWhile_cons_of_pos (by simpa using brace)]
        exact trimChars_first solid _
    obtain ⟨name, named⟩ := named
    refine ⟨⟨String.ofList (x :: name), String.ofList (splitOnce (x :: tail)).2, value⟩, ?_, ?_⟩
    · dsimp only
      rw [named, if_neg (List.cons_ne_nil x name)]
    · simp

-- A line has one last blank.
theorem silent_token_iff (text : trimChars raw = front ++ blank :: token)
    (white : isWhitespace blank = true) (solid : ∀ c ∈ token, isWhitespace c = false)
    (other : (trimChars raw).head? ≠ some '#') :
    Silent raw ↔
      blank.utf8Size = 1 ∧ (parseF64 token = none ∨ front.head? = some '{') := by
  constructor
  next =>
    rintro (comment | unbroken | ⟨front', blank', token', text', white', solid', silent⟩)
    · exact absurd comment other
    · rw [unbroken blank (by rw [text]; simp)] at white
      exact absurd white Bool.false_ne_true
    · rw [text] at text'
      have left : front ++ [blank] = front' ++ [blank'] := by
        rw [← rdropWhile_blank white solid, text', rdropWhile_blank white' solid']
      have right : token = token' := by
        rw [← rtakeWhile_blank white solid, text', rtakeWhile_blank white' solid']
      obtain ⟨rfl, same⟩ := List.append_inj' left rfl
      obtain rfl := List.singleton_inj.mp same
      rwa [right]
  next => exact fun silent => Or.inr (Or.inr ⟨front, blank, token, text, white, solid, silent⟩)

theorem parseLine_none_iff : parseLine raw = some none ↔ Silent raw := by
  by_cases comment : (trimChars raw).head? = some '#'
  next => exact iff_of_true (parseLine_of_comment comment) (Or.inl comment)
  next =>
    rcases exists_last_blank (trimChars raw) with solid | ⟨front, blank, token, text, white, solid⟩
    next => exact iff_of_true (parseLine_of_solid solid) (Or.inr (Or.inl solid))
    next =>
      obtain ⟨x, first, head, bright⟩ := front_first text white
      have other : x ≠ '#' := fun same => comment (same ▸ head)
      rw [silent_token_iff text white solid comment,
        parseLine_of_token text white solid first other]
      by_cases narrow : blank.utf8Size = 1
      next =>
        rw [if_neg (not_not.mpr narrow), and_iff_right narrow, Option.some_inj, first,
          Option.some_inj]
        cases parseF64 token with
        | none => simp
        | some value =>
          rcases readSample_first first bright value with ⟨brace, skipped⟩ | ⟨brace, s, read, -⟩
          · simp [skipped, brace]
          · simp [read, brace]
      next => simp [narrow]

theorem goodName_of_parseLine {s : Sample} (read : parseLine raw = some (some s)) :
    GoodName s.name := by
  by_cases comment : (trimChars raw).head? = some '#'
  next => simp [parseLine_of_comment comment] at read
  next =>
    rcases exists_last_blank (trimChars raw) with solid | ⟨front, blank, token, text, white, solid⟩
    next => simp [parseLine_of_solid solid] at read
    next =>
      obtain ⟨x, first, head, bright⟩ := front_first text white
      have other : x ≠ '#' := fun same => comment (same ▸ head)
      rw [parseLine_of_token text white solid first other] at read
      obtain ⟨-, read⟩ := Option.ite_none_left_eq_some.mp read
      obtain ⟨value, -, named⟩ := Option.bind_eq_some_iff.mp (Option.some_inj.mp read)
      rcases readSample_first first bright value with ⟨-, skipped⟩ | ⟨-, s', found, name⟩
      · simp [skipped] at named
      · obtain rfl := Option.some_inj.mp (found.symm.trans named)
        constructor
        · rintro empty
          simp [empty] at name
        · rw [name]
          simpa using other

theorem trimChars_concat_blank (cs : List Char) (white : isWhitespace blank = true) :
    trimChars (cs ++ [blank]) = trimChars cs := by
  induction cs with
  | nil => simp [trimChars, white]
  | cons c cs ih =>
    by_cases here : isWhitespace c = true
    next => simpa [trimChars, here] using ih
    next =>
      rw [Bool.not_eq_true] at here
      rw [trimChars, trimChars, List.cons_append, List.dropWhile_cons_of_neg (by simp [here]),
        List.dropWhile_cons_of_neg (by simp [here]), ← List.cons_append,
        List.rdropWhile_concat_pos _ _ _ white]

theorem silent_carriage_iff : Silent (raw ++ ['\r']) ↔ Silent raw := by
  rw [Silent, trimChars_concat_blank raw (by decide), Silent]

end Line

theorem reduceOption_of_map {α β : Type} {f : α → Option (Option β)} {items : List α}
    {outs : List (Option β)} (read : items.map f = outs.map some) :
    outs.reduceOption = items.filterMap fun item => (f item).join := by
  have join : outs = (outs.map some).map Option.join := by
    rw [List.map_map]
    exact (List.map_id outs).symm
  rw [join, ← read, List.map_map, List.reduceOption, List.filterMap_map]
  rfl

-- The line feed behind the last line leaves an empty one.
theorem parse_lines_iff {lines : List (List Char)} (single : ∀ line ∈ lines, '\n' ∉ line)
    {samples : List Sample} :
    parse (String.ofList (lines.flatMap (· ++ ['\n']))) = some ⟨samples⟩ ↔
      (∀ line ∈ lines, (parseLine line).isSome = true) ∧
        lines.filterMap (fun line => (parseLine line).join) = samples := by
  have blank : [([] : List Char)].filterMap (fun line => (parseLine line).join) = [] := rfl
  rw [parse, String.toList_ofList, splitOnP_lines single, Option.map_eq_some_iff]
  constructor
  next =>
    rintro ⟨outs, read, same⟩
    rw [mapM_eq_some_iff] at read
    have readable := List.forall_mem_append.mp (forall_isSome_iff.mpr ⟨outs, read⟩)
    refine ⟨readable.1, ?_⟩
    rw [← PrometheusMetrics.mk.inj same, reduceOption_of_map read, List.filterMap_append, blank,
      List.append_nil]
  next =>
    rintro ⟨readable, rfl⟩
    have last : ∀ line ∈ [([] : List Char)], (parseLine line).isSome = true := by decide
    obtain ⟨outs, read⟩ :=
      forall_isSome_iff.mp (List.forall_mem_append.mpr ⟨readable, last⟩)
    refine ⟨outs, mapM_eq_some_iff.mpr read, ?_⟩
    rw [reduceOption_of_map read, List.filterMap_append, blank, List.append_nil]

/-- A sample as an exposition may write it: the value is any text that reads as a number. -/
structure WrittenSample where
  name : String
  body : Option String
  literal : String
  value : Float
  named : ∀ c ∈ name.toList, isWhitespace c = false ∧ c ≠ '\x7b'
  unbroken : ∀ text ∈ body, ∀ c ∈ text.toList, isWhitespace c = false
  spelled : parseF64 literal.toList = some value

namespace WrittenSample

variable (s : WrittenSample)

def labels : List Char :=
  match s.body with
  | some text => text.toList ++ ['\x7d']
  | none => []

def head : List Char :=
  s.name.toList ++
    match s.body with
    | some text => '\x7b' :: (text.toList ++ ['\x7d'])
    | none => []

def line : List Char := s.head ++ ' ' :: s.literal.toList

def sample : Sample := ⟨s.name, String.ofList s.labels, s.value⟩

theorem head_solid : ∀ c ∈ s.head, isWhitespace c = false := by
  intro c member
  rcases List.mem_append.mp member with name | body
  · exact (s.named c name).1
  · split at body
    next text written =>
      rcases List.mem_cons.mp body with rfl | inside
      · decide
      · rcases List.mem_append.mp inside with inside | last
        · exact s.unbroken text written c inside
        · rw [List.mem_singleton.mp last]
          decide
    next => simp at body

theorem splitOnce_head : splitOnce s.head = (s.name.toList, s.labels) := by
  have closed : ∀ c ∈ s.name.toList, c ≠ '\x7b' := fun c member => (s.named c member).2
  have trimmed : trimChars s.name.toList = s.name.toList :=
    trimChars_of_solid fun c member => (s.named c member).1
  unfold head labels
  cases s.body with
  | none => rw [List.append_nil, splitOnce_bare closed]
  | some text => rw [splitOnce_braced closed trimmed]

theorem parseLine_line (good : GoodName s.name) : parseLine s.line = some (some s.sample) := by
  have solid : ∀ c ∈ s.literal.toList, isWhitespace c = false := solid_of_parseF64 s.spelled
  have literal : s.literal.toList ≠ [] := by
    intro empty
    have spelled := s.spelled
    rw [empty] at spelled
    cases spelled
  obtain ⟨x, rest, name⟩ := List.exists_cons_of_ne_nil
    (mt String.toList_eq_nil_iff.mp good.1)
  have first : s.head.head? = some x := by rw [head, name]; rfl
  have other : x ≠ '#' := by
    rintro rfl
    exact good.2 (by rw [name]; rfl)
  have trimmed : trimChars s.line = s.head ++ ' ' :: s.literal.toList := by
    refine trimChars_eq_self (fun y start => ?_) (fun y last => ?_)
    · rw [line, List.head?_append, first] at start
      exact Option.some_inj.mp start ▸ s.head_solid x (List.mem_of_head? first)
    · rw [line, List.append_cons, List.getLast?_append_of_ne_nil _ literal] at last
      exact solid y (List.mem_of_getLast? last)
  have read : readSample s.head s.value = some s.sample := by
    simp only [readSample, trimChars_of_solid s.head_solid, s.splitOnce_head]
    rw [if_neg (by simp [name]), String.ofList_toList]
    rfl
  rw [parseLine_of_token trimmed (by decide) solid first other, if_neg (by decide), s.spelled,
    Option.bind_some, read]

theorem not_mem_line : '\n' ∉ s.line := by
  have solid : ∀ c ∈ s.literal.toList, isWhitespace c = false := solid_of_parseF64 s.spelled
  intro member
  rcases List.mem_append.mp member with head | rest
  · exact absurd (s.head_solid _ head) (by decide)
  · rcases List.mem_cons.mp rest with same | literal
    · exact absurd same (by decide)
    · exact absurd (solid _ literal) (by decide)

end WrittenSample

structure StatusLine where
  version : String
  code : String
  reason : String
  single : '\n' ∉ version.toList ++ code.toList ++ reason.toList

def StatusLine.line (status : StatusLine) : List Char :=
  "HTTP/".toList ++ status.version.toList ++ ' ' :: status.code.toList ++
    ' ' :: status.reason.toList

structure Header where
  name : String
  value : String
  named : name ≠ ""
  unbroken : ∀ c ∈ name.toList, isWhitespace c = false
  single : '\n' ∉ value.toList

def Header.line (header : Header) : List Char :=
  header.name.toList ++ ':' :: ' ' :: header.value.toList

inductive BodyLine where
  | sample (s : WrittenSample)
  | blank (text : List Char) (white : ∀ c ∈ text, isWhitespace c = true) (single : '\n' ∉ text)
  | comment (text : List Char) (single : '\n' ∉ text)

def BodyLine.line : BodyLine → List Char
  | .sample s => s.line
  | .blank text _ _ => text
  | .comment text _ => '#' :: text

def BodyLine.written : BodyLine → Option WrittenSample
  | .sample s => some s
  | _ => none

structure HttpResponse where
  status : StatusLine
  headers : List Header
  body : List BodyLine

namespace HttpResponse

variable (r : HttpResponse)

def headLines : List (List Char) := r.status.line :: r.headers.map Header.line

def lines : List (List Char) :=
  r.headLines.map (· ++ ['\r']) ++ ['\r'] :: r.body.map BodyLine.line

def text : String := String.ofList (r.lines.flatMap (· ++ ['\n']))

def written : List WrittenSample := r.body.filterMap BodyLine.written

def samples : List Sample := r.written.map WrittenSample.sample

theorem not_mem_headLine {line : List Char} (member : line ∈ r.headLines) : '\n' ∉ line := by
  rcases List.mem_cons.mp member with rfl | listed
  · have single := r.status.single
    have opening : '\n' ∉ "HTTP/".toList := by decide
    unfold StatusLine.line
    generalize "HTTP/".toList = front at opening
    simp only [List.mem_append, not_or] at single
    simp [opening, single]
  · obtain ⟨header, -, rfl⟩ := List.mem_map.mp listed
    have name : '\n' ∉ header.name.toList := fun inside =>
      absurd (header.unbroken _ inside) (by decide)
    simp [Header.line, name, header.single]

theorem not_mem_bodyLine (line : BodyLine) : '\n' ∉ line.line := by
  cases line with
  | sample s => exact s.not_mem_line
  | blank _ _ single => exact single
  | comment _ single => simpa [BodyLine.line] using single

theorem single {line : List Char} (member : line ∈ r.lines) : '\n' ∉ line := by
  rcases List.mem_append.mp member with head | rest
  · obtain ⟨line, inside, rfl⟩ := List.mem_map.mp head
    simpa using r.not_mem_headLine inside
  · rcases List.mem_cons.mp rest with rfl | body
    · decide
    · obtain ⟨line, -, rfl⟩ := List.mem_map.mp body
      exact not_mem_bodyLine line

-- A body line is read as the sample it was written for, if its name can be read.
theorem parseLine_bodyLine {line : BodyLine} (good : ∀ s ∈ line.written, GoodName s.name) :
    parseLine line.line = some (line.written.map WrittenSample.sample) := by
  cases line with
  | sample s => exact s.parseLine_line (good s rfl)
  | blank text white _ =>
    apply parseLine_of_solid
    have empty : text.dropWhile isWhitespace = [] := List.dropWhile_eq_nil_iff.mpr white
    simp [trimChars, BodyLine.line, empty]
  | comment text _ =>
    apply parseLine_of_comment
    obtain ⟨tail, trimmed⟩ := trimChars_first (x := '#') (by decide) text
    rw [BodyLine.line, trimmed]
    rfl

theorem filterMap_body (good : ∀ s ∈ r.written, GoodName s.name) :
    (r.body.map BodyLine.line).filterMap (fun line => (parseLine line).join) = r.samples := by
  rw [List.filterMap_map, samples, written, List.map_filterMap]
  apply List.filterMap_congr
  intro line member
  have here : ∀ s ∈ line.written, GoodName s.name := fun s found =>
    good s (List.mem_filterMap.mpr ⟨line, member, found⟩)
  simp [parseLine_bodyLine here]

theorem filterMap_lines :
    r.lines.filterMap (fun line => (parseLine line).join) =
      (r.headLines.map (· ++ ['\r'])).filterMap (fun line => (parseLine line).join) ++
        (r.body.map BodyLine.line).filterMap fun line => (parseLine line).join := by
  have blank : (parseLine ['\r']).join = none := rfl
  rw [lines, List.filterMap_append, List.filterMap_cons, blank]

theorem goodName_of_read
    (same : r.lines.filterMap (fun line => (parseLine line).join) = r.samples) :
    ∀ s ∈ r.written, GoodName s.name := by
  intro s member
  have sampled : s.sample ∈ r.samples := List.mem_map_of_mem member
  rw [← same] at sampled
  obtain ⟨line, -, read⟩ := List.mem_filterMap.mp sampled
  exact goodName_of_parseLine (s := s.sample) (Option.join_eq_some_iff.mp read)

theorem silent_of_read (readable : ∀ line ∈ r.lines, (parseLine line).isSome = true)
    (same : r.lines.filterMap (fun line => (parseLine line).join) = r.samples) :
    ∀ line ∈ r.headLines, Silent line := by
  have good := r.goodName_of_read same
  rw [filterMap_lines, filterMap_body r good, List.append_left_eq_self,
    List.filterMap_eq_nil_iff] at same
  intro line member
  have listed : line ++ ['\r'] ∈ r.headLines.map (· ++ ['\r']) := List.mem_map_of_mem member
  obtain ⟨out, read⟩ := Option.isSome_iff_exists.mp (readable _ (List.mem_append_left _ listed))
  have missed := same _ listed
  rw [read] at missed
  rw [← silent_carriage_iff, ← parseLine_none_iff, read]
  exact congrArg some missed

theorem readable_of_silent (silent : ∀ line ∈ r.headLines, Silent line)
    (good : ∀ s ∈ r.written, GoodName s.name) :
    ∀ line ∈ r.lines, (parseLine line).isSome = true := by
  intro line member
  rcases List.mem_append.mp member with head | rest
  · obtain ⟨line, inside, rfl⟩ := List.mem_map.mp head
    rw [parseLine_none_iff.mpr (silent_carriage_iff.mpr (silent line inside))]
    rfl
  · rcases List.mem_cons.mp rest with rfl | body
    · rfl
    · obtain ⟨line, inside, rfl⟩ := List.mem_map.mp body
      rw [parseLine_bodyLine fun s found =>
        good s (List.mem_filterMap.mpr ⟨line, inside, found⟩)]
      rfl

theorem filterMap_of_silent (silent : ∀ line ∈ r.headLines, Silent line)
    (good : ∀ s ∈ r.written, GoodName s.name) :
    r.lines.filterMap (fun line => (parseLine line).join) = r.samples := by
  rw [filterMap_lines, filterMap_body r good, List.append_left_eq_self,
    List.filterMap_eq_nil_iff]
  intro line member
  obtain ⟨line, inside, rfl⟩ := List.mem_map.mp member
  rw [parseLine_none_iff.mpr (silent_carriage_iff.mpr (silent line inside))]
  rfl

end HttpResponse

-- A response is read as its samples exactly when no line of its head reads as one or breaks the
-- reading, and no name is empty or opens a comment.
theorem parse_response_iff (r : HttpResponse) :
    parse r.text = some ⟨r.samples⟩ ↔
      (∀ line ∈ r.headLines, Silent line) ∧ ∀ s ∈ r.written, GoodName s.name := by
  rw [HttpResponse.text, parse_lines_iff fun _ => r.single]
  constructor
  next =>
    rintro ⟨readable, same⟩
    exact ⟨r.silent_of_read readable same, r.goodName_of_read same⟩
  next =>
    rintro ⟨silent, good⟩
    exact ⟨r.readable_of_silent silent good, r.filterMap_of_silent silent good⟩

theorem solid_of_all {text : String} (all : text.toList.all (!isWhitespace ·) = true) :
    ∀ c ∈ text.toList, isWhitespace c = false := fun c member => by
  simpa using List.all_eq_true.mp all c member

def oneGauge : WrittenSample where
  name := "foo"
  body := none
  literal := "1"
  value := Float.ofScientific 1 false 0
  named c member := ⟨solid_of_all (by decide) c member, ne_of_mem_of_not_mem member (by decide)⟩
  unbroken := nofun
  spelled := rfl

def countedResponse : HttpResponse where
  status := ⟨"1.1", "200", "OK", by decide⟩
  headers := [⟨"Content-Length", "6", by decide, solid_of_all (by decide), by decide⟩]
  body := [.sample oneGauge]

-- A header with a number for its value becomes a sample.
theorem content_length_read_as_sample :
    parse countedResponse.text =
        some ⟨[⟨"Content-Length:", "", Float.ofScientific 6 false 0⟩, oneGauge.sample]⟩ ∧
      countedResponse.samples = [oneGauge.sample] := by
  refine ⟨(parse_lines_iff fun _ => countedResponse.single).mpr ⟨?_, rfl⟩, rfl⟩
  decide

end BrainEval.PrometheusMetrics
