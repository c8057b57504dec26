import Mathlib
import BrainEval.Core.Instance
import BrainEval.Lib.Str

set_option autoImplicit false

namespace BrainEval.Locomo

open RustStr Std

-- `serde_json::Value`; the keys of an object are distinct.
inductive Value where
  | null
  | bool (b : Bool)
  | number (literal : String)
  | string (s : String)
  | array (items : List Value)
  | object (fields : List (String × Value))

structure LocomoTurn where
  speaker : String
  text : String
  dateTime : Option String

structure LocomoQa where
  question : String
  answer : String
  adversarialAnswer : String
  category : Option Nat

structure LocomoSample where
  sampleId : String
  conversation : TreeMap String Value
  qa : List LocomoQa

def decodeString : Value → Option String
  | .string s => some s
  | _ => none

def decodeOptionString : Value → Option (Option String)
  | .null => some none
  | .string s => some (some s)
  | _ => none

-- The derived `Deserialize` of a turn: a map by field name, or the fields in order.
def decodeTurn : Value → Option LocomoTurn
  | .object fields => do
    let speaker ← (fields.lookup "speaker").bind decodeString
    let text ← (fields.lookup "text").bind decodeString
    let dateTime ← ((fields.lookup "date_time").map decodeOptionString).getD (some none)
    return ⟨speaker, text, dateTime⟩
  | .array [speaker, text] => do return ⟨← decodeString speaker, ← decodeString text, none⟩
  | .array [speaker, text, dateTime] => do
    return ⟨← decodeString speaker, ← decodeString text, ← decodeOptionString dateTime⟩
  | _ => none

def decodeTurns : Value → Option (List LocomoTurn)
  | .array items => items.mapM decodeTurn
  | _ => none

def isSessionLabel (label : String) : Bool :=
  match stripPrefix label "session_" with
  | some rest => !rest.isEmpty && rest.toList.all Char.isDigit
  | none => false

def monthFromName (name : String) : Option UInt32 :=
  match toAsciiLowercase name with
  | "january" | "jan" => some 1
  | "february" | "feb" => some 2
  | "march" | "mar" => some 3
  | "april" | "apr" => some 4
  | "may" => some 5
  | "june" | "jun" => some 6
  | "july" | "jul" => some 7
  | "august" | "aug" => some 8
  | "september" | "sep" | "sept" => some 9
  | "october" | "oct" => some 10
  | "november" | "nov" => some 11
  | "december" | "dec" => some 12
  | _ => none

def i64 (n : UInt32) : Int64 := Int64.ofNat n.toNat

-- Days since the epoch, in the wrapping arithmetic of a release build.
def daysFromCivil (year : Int64) (month day : UInt32) : Int64 :=
  let y := if month ≤ 2 then year - 1 else year
  let era := (if 0 ≤ y then y else y - 399) / 400
  let yoe := y - era * 400
  let m := i64 month
  let d := i64 day
  let doy := (153 * (if 2 < m then m - 3 else m + 9) + 2) / 5 + d - 1
  let doe := yoe * 365 + yoe / 4 - yoe / 100 + doy
  era * 146097 + doe - 719468

def checkedMul (a b : Int64) : Option Int64 :=
  let product := a.toInt * b.toInt
  if -2 ^ 63 ≤ product ∧ product < 2 ^ 63 then some (Int64.ofInt product) else none

def parseLocomoDatetime (s : String) : Option Nat :=
  let datePart := trimChars ((afterLast " on ".toList s.toList).getD s.toList)
  match splitWhitespace datePart with
  | [dayTok, monthTok, yearTok] => do
    let day := UInt32.ofNat (← fromStrRadix 10 (2 ^ 32 - 1) dayTok)
    let month ← monthFromName (String.ofList (monthTok.rdropWhile (· = ',')))
    let year ← parseI64 yearTok
    if ¬(1 ≤ day ∧ day ≤ 31) ∨ ¬(1 ≤ month ∧ month ≤ 12) then none
    else
      let secs ← checkedMul (daysFromCivil year month day) 86400
      let nanos ← checkedMul secs 1000000000
      if 0 ≤ nanos then some nanos.toInt.toNat else none
  | _ => none

def mapCategory : Option Nat → QuestionType
  | some 1 => .singleHop
  | some 2 => .multiHop
  | some 3 => .temporal
  | some 4 => .other
  | some 5 => .adversarial
  | _ => .other

structure Split where
  sessionArrays : List (String × Value)
  sessionDates : TreeMap String String

def splitEntry (acc : Split) (entry : String × Value) : Split :=
  match stripSuffix entry.1 "_date_time" with
  | some session =>
    match entry.2 with
    | .string date => { acc with sessionDates := acc.sessionDates.insert session date }
    | _ => acc
  | none =>
    -- speakers and other metadata fall through
    if isSessionLabel entry.1 then { acc with sessionArrays := acc.sessionArrays ++ [entry] }
    else acc

def turnRecord (sessionDate : Option String) (t : LocomoTurn) : TurnRecord :=
  let stamp := t.dateTime.orElse fun _ => sessionDate
  { role := "user"
    content :=
      match stamp with
      | some date => "[" ++ date ++ "] " ++ t.speaker ++ ": " ++ t.text
      | none => t.speaker ++ ": " ++ t.text
    occurredAtUnixNanos := stamp.bind parseLocomoDatetime }

def sessionOf (sessionDates : TreeMap String String) (entry : String × Value) : Option Session :=
  -- an array that does not decode drops its session
  (decodeTurns entry.2).map fun turns =>
    { turns := turns.map (turnRecord sessionDates[entry.1]?), sessionId := entry.1 }

def pad4 (n : Nat) : String :=
  let digits := (toString n).toList
  String.ofList (List.replicate (4 - digits.length) '0' ++ digits)

namespace LocomoSample

variable (sample : LocomoSample)

def split : Split := sample.conversation.toList.foldl splitEntry ⟨[], ∅⟩

def sessions : List Session :=
  sample.split.sessionArrays.filterMap (sessionOf sample.split.sessionDates)

def expandInto (out : List EvalInstance) : List EvalInstance :=
  out ++ sample.qa.mapIdx fun idx qa =>
    { questionId := sample.sampleId ++ "-" ++ pad4 idx
      question := qa.question
      answer := if qa.answer = "" then qa.adversarialAnswer else qa.answer
      questionType := mapCategory qa.category
      conversationId := some sample.sampleId
      sessions := sample.sessions }

end LocomoSample

def load (samples : List LocomoSample) : List EvalInstance :=
  samples.foldl (fun out sample => sample.expandInto out) []

end BrainEval.Locomo
