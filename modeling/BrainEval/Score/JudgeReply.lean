import Mathlib
import BrainEval.Score.Judge

set_option autoImplicit false

namespace BrainEval.LlmJudge

open RustStr

structure VerdictReply where
  correct : Bool
  reasoning : String

structure SupportReply where
  supported : Bool
  reasoning : String

structure SupportVerdict where
  supported : Bool
  reasoning : String

/-- The slice both parsers cut out of a reply, if it has one; no result where an end of the slice is
out of range or inside a character and the source panics. -/
def objectSlice (reply : String) : Option (Option String) :=
  match find '\x7b' reply.toList, rfind '\x7d' reply.toList with
  | some start, some stop =>
    if stop < start then some none
    else (getBytes reply start (stop + 1)).map fun json => some (String.ofList json)
  | _, _ => some none

-- Both parsers read the slice with `serde_json::from_str` at their own reply type.
def parseReply {R T : Type} (fromStr : String → Option R) (result : R → T) (reply : String) :
    Option (Option T) :=
  (objectSlice reply).map fun slice => do
    let json ← slice
    let parsed ← fromStr json
    return result parsed

def parseSupport (fromStr : String → Option SupportReply) (reply : String) :
    Option (Option SupportVerdict) :=
  parseReply fromStr (fun parsed => ⟨parsed.supported, parsed.reasoning⟩) reply

def parseVerdict (fromStr : String → Option VerdictReply) (questionId reply : String) :
    Option (Option JudgeResult) :=
  parseReply fromStr (fun parsed =>
    let verdict : Verdict := if parsed.correct then .correct else .incorrect
    judged questionId verdict parsed.reasoning) reply

structure Braced (o : List Char) : Prop where
  opens : o.head? = some '\x7b'
  closes : o.getLast? = some '\x7d'

def Outermost (reply o : List Char) : Prop :=
  Braced o ∧ ∃ before after, reply = before ++ o ++ after ∧ '\x7b' ∉ before ∧ '\x7d' ∉ after

theorem objectSlice_of_outermost {reply : String} {o : List Char}
    (outermost : Outermost reply.toList o) :
    objectSlice reply = some (some (String.ofList o)) := by
  obtain ⟨⟨opens, closes⟩, before, after, text, noOpening, noClosing⟩ := outermost
  obtain ⟨rest, first⟩ := List.head?_eq_some_iff.mp opens
  obtain ⟨front, last⟩ := List.getLast?_eq_some_iff.mp closes
  have start : find '\x7b' reply.toList = some (byteLen before) := by
    rw [text, first, List.append_assoc, List.cons_append]
    exact find_append noOpening
  have stop : rfind '\x7d' reply.toList = some (byteLen before + byteLen front) := by
    rw [text, last, ← byteLen_append, List.append_assoc, List.append_assoc, List.singleton_append,
      ← List.append_assoc]
    exact rfind_append noClosing
  have size : byteLen before + byteLen front + 1 = byteLen before + byteLen o := by
    rw [last, byteLen_append, Nat.add_assoc]
    rfl
  have slice : getBytes reply (byteLen before) (byteLen before + byteLen o) = some o :=
    getBytes_append (by rw [text, List.append_assoc])
  have ordered : ¬ byteLen before + byteLen front < byteLen before := by omega
  simp only [objectSlice, start, stop, if_neg ordered, size, slice, Option.map_some]

-- An opening brace no later than the last closing one.
theorem exists_outermost {before rest front after : List Char}
    (same : before ++ '\x7b' :: rest = front ++ '\x7d' :: after) (noOpening : '\x7b' ∉ before)
    (noClosing : '\x7d' ∉ after) (ordered : byteLen before ≤ byteLen front) :
    ∃ o, Outermost (before ++ '\x7b' :: rest) o := by
  rcases List.append_eq_append_iff.mp same with ⟨between, rfl, tail⟩ | ⟨between, rfl, tail⟩
  next =>
    rcases between with _ | ⟨c, between⟩
    next => simp at tail
    next =>
      obtain ⟨rfl, rfl⟩ := List.cons.inj tail
      refine ⟨'\x7b' :: between ++ ['\x7d'], ⟨rfl, List.getLast?_concat⟩, before, after, ?_,
        noOpening, noClosing⟩
      simp
  next =>
    rw [byteLen_append] at ordered
    have none : between = [] := byteLen_eq_zero.mp (by omega)
    simp [none] at tail

theorem objectSlice_cases (reply : String) :
    (objectSlice reply = some none ∧ ∀ o, ¬ Outermost reply.toList o) ∨
      ∃ o, Outermost reply.toList o ∧ objectSlice reply = some (some (String.ofList o)) := by
  by_cases outermost : ∃ o, Outermost reply.toList o
  next =>
    obtain ⟨o, outermost⟩ := outermost
    exact Or.inr ⟨o, outermost, objectSlice_of_outermost outermost⟩
  next =>
    refine Or.inl ⟨?_, not_exists.mp outermost⟩
    rcases find_cases '\x7b' reply.toList with ⟨-, start⟩ | ⟨before, rest, text, noOpening, start⟩
    next => simp [objectSlice, start]
    next =>
      rcases rfind_cases '\x7d' reply.toList with ⟨-, stop⟩ | ⟨front, after, text', noClosing, stop⟩
      next => simp [objectSlice, start, stop]
      next =>
        have crossed : byteLen front < byteLen before := by
          by_contra ordered
          rw [text] at outermost
          exact outermost
            (exists_outermost (text.symm.trans text') noOpening noClosing (not_lt.mp ordered))
        simp only [objectSlice, start, stop, if_pos crossed]

theorem objectSlice_eq_some_iff {reply json : String} :
    objectSlice reply = some (some json) ↔ Outermost reply.toList json.toList := by
  constructor
  next =>
    intro slice
    rcases objectSlice_cases reply with ⟨none, -⟩ | ⟨o, outermost, found⟩
    next => simp [none] at slice
    next =>
      rw [found] at slice
      rw [← Option.some_inj.mp (Option.some_inj.mp slice), String.toList_ofList]
      exact outermost
  next =>
    intro outermost
    rw [objectSlice_of_outermost outermost, String.ofList_toList]

theorem isSome_objectSlice (reply : String) : (objectSlice reply).isSome = true := by
  rcases objectSlice_cases reply with ⟨none, -⟩ | ⟨o, -, slice⟩
  next => rw [none, Option.isSome_some]
  next => rw [slice, Option.isSome_some]

theorem objectSlice_in_prose {p o s : String} (braced : Braced o.toList)
    (noOpening : '\x7b' ∉ p.toList) (noClosing : '\x7d' ∉ s.toList) :
    objectSlice (p ++ o ++ s) = objectSlice o := by
  have around : Outermost (p ++ o ++ s).toList o.toList :=
    ⟨braced, p.toList, s.toList, by simp, noOpening, noClosing⟩
  have alone : Outermost o.toList o.toList :=
    ⟨braced, [], [], by simp, List.not_mem_nil, List.not_mem_nil⟩
  rw [objectSlice_of_outermost around, objectSlice_of_outermost alone]

section Parser

variable {R T : Type} {fromStr : String → Option R} {result : R → T}

theorem isSome_parseReply (reply : String) : (parseReply fromStr result reply).isSome = true := by
  rw [parseReply, Option.isSome_map, isSome_objectSlice]

theorem parseReply_in_prose {p o s : String} (braced : Braced o.toList)
    (noOpening : '\x7b' ∉ p.toList) (noClosing : '\x7d' ∉ s.toList) :
    parseReply fromStr result (p ++ o ++ s) = parseReply fromStr result o := by
  rw [parseReply, objectSlice_in_prose braced noOpening noClosing, parseReply]

-- What is parsed is the outermost object, read as a reply.
theorem parseReply_eq_some_iff {reply : String} {value : T} :
    parseReply fromStr result reply = some (some value) ↔
      ∃ json parsed, Outermost reply.toList json.toList ∧ fromStr json = some parsed ∧
        result parsed = value := by
  simp only [parseReply, Option.map_eq_some_iff, Option.bind_eq_bind, Option.bind_eq_some_iff,
    Option.pure_def, Option.some.injEq, ← objectSlice_eq_some_iff]
  constructor
  · rintro ⟨slice, found, json, rfl, parsed, read, same⟩
    exact ⟨json, parsed, found, read, same⟩
  · rintro ⟨json, parsed, found, read, same⟩
    exact ⟨_, found, json, rfl, parsed, read, same⟩

end Parser

theorem reply_extraction (verdictFromStr : String → Option VerdictReply)
    (supportFromStr : String → Option SupportReply) :
    (∀ p o s : String, Braced o.toList → '\x7b' ∉ p.toList → '\x7d' ∉ s.toList →
      (∀ questionId, parseVerdict verdictFromStr questionId (p ++ o ++ s) =
        parseVerdict verdictFromStr questionId o) ∧
      parseSupport supportFromStr (p ++ o ++ s) = parseSupport supportFromStr o) ∧
    ∀ reply, (∀ questionId, (parseVerdict verdictFromStr questionId reply).isSome = true) ∧
      (parseSupport supportFromStr reply).isSome = true := by
  constructor
  · intro p o s braced noOpening noClosing
    exact ⟨fun questionId => parseReply_in_prose braced noOpening noClosing,
      parseReply_in_prose braced noOpening noClosing⟩
  · intro reply
    exact ⟨fun questionId => isSome_parseReply reply, isSome_parseReply reply⟩

-- A deserialiser for the replies of one test.
def readMissingDate (json : String) : Option VerdictReply :=
  if json = "\x7b\"reasoning\": \"missing date\", \"correct\": false\x7d" then
    some ⟨false, "missing date"⟩
  else none

theorem wrapped_grade_read :
    parseVerdict readMissingDate "q2" ("Here is my grade:\n" ++
        "\x7b\"reasoning\": \"missing date\", \"correct\": false\x7d" ++ "\nThanks.") =
      some (some (judged "q2" .incorrect "missing date")) := by
  have alone := ((reply_extraction readMissingDate fun _ => none).1 "Here is my grade:\n"
    "\x7b\"reasoning\": \"missing date\", \"correct\": false\x7d" "\nThanks."
    ⟨by decide, by decide⟩ (by decide) (by decide)).1 "q2"
  exact alone.trans (by decide +kernel)

end BrainEval.LlmJudge
