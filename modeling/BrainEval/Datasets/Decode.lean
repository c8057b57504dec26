import Mathlib
import BrainEval.Datasets.Locomo

set_option autoImplicit false

namespace BrainEval.Datasets

open RustStr Locomo Std

def hexByte (n : Nat) : List Char := [Nat.digitChar (n / 16), Nat.digitChar (n % 16)]

def escapeChar (c : Char) : List Char :=
  if c = '"' then ['\\', '"']
  else if c = '\\' then ['\\', '\\']
  else if c.toNat = 0x08 then ['\\', 'b']
  else if c.toNat = 0x09 then ['\\', 't']
  else if c.toNat = 0x0a then ['\\', 'n']
  else if c.toNat = 0x0c then ['\\', 'f']
  else if c.toNat = 0x0d then ['\\', 'r']
  else if c.toNat < 0x20 then ['\\', 'u', '0', '0'] ++ hexByte c.toNat
  else [c]

def quoted (s : String) : String := String.ofList ('"' :: s.toList.flatMap escapeChar ++ ['"'])

-- `Value::to_string`: compact JSON, the members of an object in the map's order.
mutual

def compact : Value → String
  | .null => "null"
  | .bool b => toString b
  | .number literal => literal
  | .string s => quoted s
  | .array items => "[" ++ compactItems items ++ "]"
  | .object fields => "\x7b" ++ compactFields fields ++ "\x7d"

def compactItems : List Value → String
  | [] => ""
  | [item] => compact item
  | item :: items => compact item ++ "," ++ compactItems items

def compactFields : List (String × Value) → String
  | [] => ""
  | [(name, value)] => quoted name ++ ":" ++ compact value
  | (name, value) :: fields => quoted name ++ ":" ++ compact value ++ "," ++ compactFields fields

end

-- The derived `Deserialize` of a struct: its fields by name, or in order, the last ones left to
-- their defaults.
def structFields (names : List String) (required : Nat) : Value → Option (List (String × Value))
  | .object fields => some fields
  | .array items =>
    if required ≤ items.length ∧ items.length ≤ names.length then some (names.zip items) else none
  | _ => none

section Fields

variable {α : Type} (fields : List (String × Value)) (name : String) (decode : Value → Option α)

def required : Option α := (fields.lookup name).bind decode

def defaulted (value : α) : Option α := ((fields.lookup name).map decode).getD (some value)

end Fields

def decodeList {α : Type} (decode : Value → Option α) : Value → Option (List α)
  | .array items => items.mapM decode
  | _ => none

def decodeMap : Value → Option (TreeMap String Value)
  | .object fields => some (TreeMap.ofList fields)
  | _ => none

def decodeOptionU8 : Value → Option (Option Nat)
  | .null => some none
  | .number literal => (fromStrRadix 10 255 literal.toList).map some
  | _ => none

def scalarToString : Value → String
  | .string s => s
  | .number literal => literal
  | .bool b => toString b
  | .null => ""
  | other => compact other

def decodeQa (v : Value) : Option LocomoQa := do
  let fields ← structFields ["question", "answer", "adversarial_answer", "category"] 1 v
  return {
    question := ← required fields "question" decodeString
    answer := ← defaulted fields "answer" (some ∘ scalarToString) ""
    adversarialAnswer := ← defaulted fields "adversarial_answer" (some ∘ scalarToString) ""
    category := ← defaulted fields "category" decodeOptionU8 none }

def defaultSampleId : String := "sample-0"

def decodeSample (v : Value) : Option LocomoSample := do
  let fields ← structFields ["sample_id", "conversation", "qa"] 0 v
  return {
    sampleId := ← defaulted fields "sample_id" decodeString defaultSampleId
    conversation := ← defaulted fields "conversation" decodeMap ∅
    qa := ← defaulted fields "qa" (decodeList decodeQa) [] }

end BrainEval.Datasets

namespace BrainEval.Dmr

open Locomo Datasets

structure DmrTurn where
  role : String
  content : String

structure DmrSession where
  sessionId : String
  turns : List DmrTurn

structure DmrRow where
  id : String
  question : String
  answer : String
  conversationId : Option String
  sessions : List DmrSession

def defaultSessionId : String := "session-0"

def decodeTurn (v : Value) : Option DmrTurn := do
  let fields ← structFields ["role", "content"] 2 v
  return {
    role := ← required fields "role" decodeString
    content := ← required fields "content" decodeString }

def decodeSession (v : Value) : Option DmrSession := do
  let fields ← structFields ["session_id", "turns"] 0 v
  return {
    sessionId := ← defaulted fields "session_id" decodeString defaultSessionId
    turns := ← defaulted fields "turns" (decodeList decodeTurn) [] }

def decodeRow (v : Value) : Option DmrRow := do
  let fields ← structFields ["id", "question", "answer", "conversation_id", "sessions"] 4 v
  return {
    id := ← required fields "id" decodeString
    question := ← required fields "question" decodeString
    answer := ← required fields "answer" decodeString
    conversationId := ← defaulted fields "conversation_id" decodeOptionString none
    sessions := ← defaulted fields "sessions" (decodeList decodeSession) [] }

def DmrSession.toSession (s : DmrSession) : Session where
  sessionId := s.sessionId
  turns := s.turns.map fun t => ⟨t.role, t.content, none⟩

def DmrRow.intoEvalInstance (row : DmrRow) : EvalInstance where
  questionId := row.id
  question := row.question
  answer := row.answer
  questionType := .singleHop
  conversationId := row.conversationId
  sessions := row.sessions.map (·.toSession)

end BrainEval.Dmr

namespace BrainEval.LongMemEval

open Locomo Datasets

structure LmeTurn where
  role : String
  content : String

structure LmeRow where
  questionId : String
  questionType : String
  question : String
  answer : String
  haystackSessions : List (List LmeTurn)

def defaultQtype : String := "single-session-user"

def deFlexibleString : Value → String
  | .string s => s
  | .null => ""
  | other => compact other

def decodeTurn (v : Value) : Option LmeTurn := do
  let fields ← structFields ["role", "content"] 1 v
  return {
    role := ← required fields "role" decodeString
    content := ← defaulted fields "content" decodeString "" }

def decodeRow (v : Value) : Option LmeRow := do
  let fields ← structFields
    ["question_id", "question_type", "question", "answer", "haystack_sessions"] 4 v
  return {
    questionId := ← required fields "question_id" decodeString
    questionType := ← defaulted fields "question_type" decodeString defaultQtype
    question := ← required fields "question" decodeString
    answer := ← required fields "answer" (some ∘ deFlexibleString)
    haystackSessions :=
      ← defaulted fields "haystack_sessions" (decodeList (decodeList decodeTurn)) [] }

def mapQuestionType : String → QuestionType
  | "single-session-user" | "single-session-assistant" => .singleHop
  | "single-session-preference" => .preference
  | "multi-session" => .multiHop
  | "temporal-reasoning" => .temporal
  | "knowledge-update" => .knowledgeUpdate
  | "abstention" => .abstention
  | _ => .other

def LmeRow.sessions (row : LmeRow) : List Session :=
  row.haystackSessions.mapIdx fun i turns =>
    { sessionId := "session-" ++ toString i
      turns := turns.map fun t => ⟨t.role, t.content, none⟩ }

def LmeRow.intoEvalInstance (row : LmeRow) : EvalInstance where
  questionId := row.questionId
  question := row.question
  answer := row.answer
  questionType := mapQuestionType row.questionType
  -- every question carries its own haystack
  conversationId := none
  sessions := row.sessions

end BrainEval.LongMemEval
