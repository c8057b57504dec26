import Mathlib
import BrainEval.Lib.Early
import BrainEval.HexCodec
import BrainEval.Blackbox.Scenario
import BrainEval.Blackbox.Rebuild

set_option autoImplicit false

namespace BrainEval.Backfill

open Early Scenario RustStr Locomo
open Rebuild (AdminResponse field asU64 asStr asStr_eq_some_iff snippet)

def asBool : Value → Option Bool
  | .bool b => some b
  | _ => none

def asArray : Value → Option (List Value)
  | .array items => some items
  | _ => none

def asObject : Value → Option (List (String × Value))
  | .object fields => some fields
  | _ => none

def isSuccess (resp : AdminResponse) : Bool := 200 ≤ resp.status && resp.status < 300

def name : String := "resumable_backfill"

def extractorId : Nat := 1

def startPath : String := "/v1/backfill?all&extractors=" ++ toString extractorId

structure World where
  parse : String → Except String Value
  debug : String → String
  hasSecret : Bool
  connected : Except String WireUuid
  encode : String → Except String Unit
  post : String → Except String AdminResponse
  get : String → Except String AdminResponse
  delete : String → Except String AdminResponse
  closed : Except String Unit

variable (w : World)

def numericFields : List String := ["shard", "completed", "failed", "skipped_already_completed"]

def nullableFields : List String := ["request_id", "last_processed_memory_id", "eta_secs"]

def assertProgressFields (entry : Value) : Run String Unit := do
  let obj ← okOr (asObject entry) "progress entry is not an object"
  numericFields.forM fun f =>
    require (((obj.lookup f).bind asU64).isSome = true)
      ("progress entry missing numeric field " ++ w.debug f)
  require (((obj.lookup "running").bind asBool).isSome = true)
    "progress entry missing bool field \"running\""
  nullableFields.forM fun f =>
    require ((obj.lookup f).isSome = true) ("progress entry missing field " ++ w.debug f)

def fromStr (body : String) : Run String Value :=
  ended ((w.parse body).mapError fun e => "not JSON: " ++ e ++ "; body=" ++ snippet body)

def parseBackfillStart (body : String) : Run String (String × Nat) := do
  let v ← fromStr w body
  let id ← okOr ((field v "backfill_id").bind asStr) "missing string field \"backfill_id\""
  require (id.utf8ByteSize = 32 ∧ ∀ c ∈ id.toList, c ∈ SpaceManifest.hexDigits)
    ("backfill_id " ++ w.debug id ++ " is not 32 hex chars")
  let progress ← okOr ((field v "progress").bind asArray) "missing array field \"progress\""
  require (progress.isEmpty = false) "progress array is empty"
  progress.forM (assertProgressFields w)
  return (id, progress.length)

def parseBackfillList (body : String) : Run String (Nat × Nat) := do
  let v ← fromStr w body
  let shards ← okOr ((field v "shards").bind asU64) "missing numeric field \"shards\""
  let progress ← okOr ((field v "progress").bind asArray) "missing array field \"progress\""
  progress.forM (assertProgressFields w)
  require (progress.length = shards)
    ("progress array length " ++ toString progress.length ++ " != shards " ++ toString shards)
  return (shards, progress.length)

def assertCancelled (entry : Value) : Run String Unit := do
  let obj ← okOr (asObject entry) "cancelled entry is not an object"
  require (((obj.lookup "shard").bind asU64).isSome = true)
    "cancelled entry missing numeric field \"shard\""
  require (((obj.lookup "cancelled").bind asBool).isSome = true)
    "cancelled entry missing bool field \"cancelled\""

def parseBackfillCancel (body expectedId : String) : Run String Nat := do
  let v ← fromStr w body
  let got := (field v "backfill_id").bind asStr
  require (got.map toAsciiLowercase = some (toAsciiLowercase expectedId))
    ("backfill_id " ++ debugOption w.debug got ++ " != requested " ++ w.debug expectedId)
  require (((field v "any_cancelled").bind asBool).isSome = true)
    "missing bool field \"any_cancelled\""
  let cancelled ← okOr ((field v "cancelled").bind asArray) "missing array field \"cancelled\""
  cancelled.forM assertCancelled
  return cancelled.length

def seeds (marker : String) : List String :=
  [marker ++ ": Alan Turing worked at Bletchley Park.",
    marker ++ ": the retrospective is scheduled for Friday.",
    marker ++ ": Globex Corporation opened an office in Berlin."]

def close : Run String Unit := labelled "harness: " w.closed

def run : Scenario ScenarioOutcome := do
  require (w.hasSecret = true) ("no admin secret configured (set BRAIN_EVAL_ADMIN_SECRET) — " ++
    "cannot drive /v1/backfill")
  let spaceId ← labelled "harness: " w.connected
  let marker := "backfill-marker-" ++ SpaceManifest.hex16 spaceId
  (seeds marker).forM fun s => labelled "sdk: " (w.encode s)
  let start ← labelled "admin: " (w.post startPath)
  requireOpen (close w) (isSuccess start = true)
    ("POST " ++ startPath ++ " returned " ++ toString start.status ++ " — " ++ snippet start.body)
  let (backfillId, startProgress) ←
    orClosing (close w) "start body malformed: " (parseBackfillStart w start.body)
  let list ← labelled "admin: " (w.get "/v1/backfill")
  requireOpen (close w) (list.status = 200)
    ("GET /v1/backfill returned " ++ toString list.status ++ " — " ++ snippet list.body)
  let (listShards, listProgress) ←
    orClosing (close w) "list body malformed: " (parseBackfillList w list.body)
  let cancel ← labelled "admin: " (w.delete ("/v1/backfill/" ++ backfillId))
  requireOpen (close w) (cancel.status = 200)
    ("DELETE /v1/backfill/" ++ backfillId ++ " returned " ++ toString cancel.status ++ " — " ++
      snippet cancel.body)
  let cancelShards ←
    orClosing (close w) "cancel body malformed: " (parseBackfillCancel w cancel.body backfillId)
  let noExtractors ← labelled "admin: " (w.post "/v1/backfill?all")
  requireOpen (close w) (noExtractors.status = 400)
    ("POST /v1/backfill?all (no extractors) returned " ++ toString noExtractors.status ++
      " — expected 400")
  let badId ← labelled "admin: " (w.delete "/v1/backfill/not-hex")
  close w
  require (badId.status = 400)
    ("DELETE /v1/backfill/not-hex returned " ++ toString badId.status ++ " — expected 400")
  return .pass name ("backfill started (id " ++ backfillId ++ ", " ++ toString startProgress ++
    " shard(s) of progress), GET reported " ++ toString listShards ++ " shard(s)/" ++
    toString listProgress ++ " progress entr(ies), DELETE cancelled across " ++
    toString cancelShards ++ " shard(s); missing-extractors and non-hex-id both rejected 400")

def resumableBackfill : Option ScenarioOutcome := outcome name (run w)

variable {w}

theorem yields_fromStr_iff {body : String} {v : Value} :
    Yields (fromStr w body) v ↔ w.parse body = .ok v := by
  rw [fromStr, yields_ended_iff]
  cases w.parse body <;> simp [Except.mapError]

theorem asArray_eq_some_iff {v : Value} {items : List Value} :
    asArray v = some items ↔ v = .array items := by
  cases v <;> simp [asArray]

theorem asObject_eq_some_iff {v : Value} {fields : List (String × Value)} :
    asObject v = some fields ↔ v = .object fields := by
  cases v <;> simp [asObject]

def ProgressEntry (entry : Value) : Prop :=
  ∃ obj, entry = .object obj ∧
    (∀ f ∈ numericFields, ((obj.lookup f).bind asU64).isSome = true) ∧
    ((obj.lookup "running").bind asBool).isSome = true ∧
    ∀ f ∈ nullableFields, (obj.lookup f).isSome = true

theorem yields_assertProgressFields_iff {entry : Value} {u : Unit} :
    Yields (assertProgressFields w entry) u ↔ ProgressEntry entry := by
  simp only [assertProgressFields, yields_bind_iff, yields_okOr_iff, asObject_eq_some_iff,
    yields_forM_iff, yields_require_iff]
  constructor
  · rintro ⟨obj, same, -, numeric, -, running, nullable⟩
    exact ⟨obj, same, numeric, running, nullable⟩
  · rintro ⟨obj, same, numeric, running, nullable⟩
    exact ⟨obj, same, (), numeric, (), running, nullable⟩

def StartBody (w : World) (body id : String) (entries : Nat) : Prop :=
  ∃ v, w.parse body = .ok v ∧ field v "backfill_id" = some (.string id) ∧
    (id.utf8ByteSize = 32 ∧ ∀ c ∈ id.toList, c ∈ SpaceManifest.hexDigits) ∧
    ∃ progress, field v "progress" = some (.array progress) ∧ progress ≠ [] ∧
      (∀ entry ∈ progress, ProgressEntry entry) ∧ progress.length = entries

theorem yields_parseBackfillStart_iff {body id : String} {entries : Nat} :
    Yields (parseBackfillStart w body) (id, entries) ↔ StartBody w body id entries := by
  simp only [parseBackfillStart, yields_bind_iff, yields_fromStr_iff, yields_okOr_iff,
    Option.bind_eq_some_iff, asStr_eq_some_iff, asArray_eq_some_iff, exists_eq_right,
    yields_require_iff, List.isEmpty_eq_false_iff, yields_forM_iff,
    yields_assertProgressFields_iff, yields_pure_iff, Prod.mk.injEq]
  constructor
  · rintro ⟨v, parsed, id', named, -, hex, progress, listed, -, some_progress, -, each, rfl, sized⟩
    exact ⟨v, parsed, named, hex, progress, listed, some_progress, each, sized⟩
  · rintro ⟨v, parsed, named, hex, progress, listed, some_progress, each, sized⟩
    exact ⟨v, parsed, id, named, (), hex, progress, listed, (), some_progress, (), each, rfl, sized⟩

def ListBody (w : World) (body : String) (shards entries : Nat) : Prop :=
  ∃ v, w.parse body = .ok v ∧ (field v "shards").bind asU64 = some shards ∧
    ∃ progress, field v "progress" = some (.array progress) ∧
      (∀ entry ∈ progress, ProgressEntry entry) ∧ progress.length = shards ∧
      progress.length = entries

theorem yields_parseBackfillList_iff {body : String} {shards entries : Nat} :
    Yields (parseBackfillList w body) (shards, entries) ↔ ListBody w body shards entries := by
  simp only [parseBackfillList, yields_bind_iff, yields_fromStr_iff, yields_okOr_iff,
    yields_require_iff, yields_forM_iff, yields_assertProgressFields_iff, yields_pure_iff,
    Prod.mk.injEq]
  simp only [Option.bind_eq_some_iff, asArray_eq_some_iff, exists_eq_right]
  constructor
  · rintro ⟨v, parsed, shards', declared, progress, listed, -, each, -, agree, rfl, sized⟩
    exact ⟨v, parsed, Option.bind_eq_some_iff.mpr declared, progress, listed, each, agree, sized⟩
  · rintro ⟨v, parsed, declared, progress, listed, each, agree, sized⟩
    exact ⟨v, parsed, shards, Option.bind_eq_some_iff.mp declared, progress, listed, (), each, (),
      agree, rfl, sized⟩

def CancelledEntry (entry : Value) : Prop :=
  ∃ obj, entry = .object obj ∧ ((obj.lookup "shard").bind asU64).isSome = true ∧
    ((obj.lookup "cancelled").bind asBool).isSome = true

theorem yields_assertCancelled_iff {entry : Value} {u : Unit} :
    Yields (assertCancelled entry) u ↔ CancelledEntry entry := by
  simp only [assertCancelled, yields_bind_iff, yields_okOr_iff, asObject_eq_some_iff,
    yields_require_iff]
  constructor
  · rintro ⟨obj, same, -, shard, cancelled⟩
    exact ⟨obj, same, shard, cancelled⟩
  · rintro ⟨obj, same, shard, cancelled⟩
    exact ⟨obj, same, (), shard, cancelled⟩

def CancelBody (w : World) (body expectedId : String) (entries : Nat) : Prop :=
  ∃ v, w.parse body = .ok v ∧
    (∃ got, field v "backfill_id" = some (.string got) ∧
      toAsciiLowercase got = toAsciiLowercase expectedId) ∧
    ((field v "any_cancelled").bind asBool).isSome = true ∧
    ∃ cancelled, field v "cancelled" = some (.array cancelled) ∧
      (∀ entry ∈ cancelled, CancelledEntry entry) ∧ cancelled.length = entries

theorem yields_parseBackfillCancel_iff {body expectedId : String} {entries : Nat} :
    Yields (parseBackfillCancel w body expectedId) entries ↔
      CancelBody w body expectedId entries := by
  have echoed {v : Value} : ((field v "backfill_id").bind asStr).map toAsciiLowercase =
      some (toAsciiLowercase expectedId) ↔ ∃ got, field v "backfill_id" = some (.string got) ∧
        toAsciiLowercase got = toAsciiLowercase expectedId := by
    simp only [Option.map_eq_some_iff, Option.bind_eq_some_iff, asStr_eq_some_iff,
      exists_eq_right]
  simp only [parseBackfillCancel, yields_bind_iff, yields_fromStr_iff, yields_okOr_iff,
    yields_require_iff, echoed, yields_forM_iff, yields_assertCancelled_iff, yields_pure_iff]
  simp only [Option.bind_eq_some_iff, asArray_eq_some_iff, exists_eq_right]
  constructor
  · rintro ⟨v, parsed, -, echo, -, any, cancelled, listed, -, each, sized⟩
    exact ⟨v, parsed, echo, any, cancelled, listed, each, sized⟩
  · rintro ⟨v, parsed, echo, any, cancelled, listed, each, sized⟩
    exact ⟨v, parsed, (), echo, (), any, cancelled, listed, (), each, sized⟩

theorem resumable_backfill_passes_iff (w : World) :
    Passes (resumableBackfill w) ↔ w.hasSecret = true ∧
      (∃ spaceId, w.connected = .ok spaceId ∧
        ∀ s ∈ seeds ("backfill-marker-" ++ SpaceManifest.hex16 spaceId), w.encode s = .ok ()) ∧
      (∃ start id entries, w.post startPath = .ok start ∧ isSuccess start = true ∧
        StartBody w start.body id entries ∧
        ∃ cancel cancelled, w.delete ("/v1/backfill/" ++ id) = .ok cancel ∧ cancel.status = 200 ∧
          CancelBody w cancel.body id cancelled) ∧
      (∃ list shards entries, w.get "/v1/backfill" = .ok list ∧ list.status = 200 ∧
        ListBody w list.body shards entries) ∧
      (∃ refused, w.post "/v1/backfill?all" = .ok refused ∧ refused.status = 400) ∧
      (∃ refused, w.delete "/v1/backfill/not-hex" = .ok refused ∧ refused.status = 400) ∧
      w.closed = .ok () := by
  rw [resumableBackfill, passes_outcome_iff]
  simp only [run, yields_bind_iff, yields_labelled_iff, yields_require_iff, yields_requireOpen_iff,
    yields_orClosing_iff, yields_forM_iff, yields_pure_iff, close, Prod.exists,
    yields_parseBackfillStart_iff, yields_parseBackfillList_iff, yields_parseBackfillCancel_iff]
  constructor
  · rintro ⟨-, ⟨-, secret, spaceId, connected, -, seeded, start, started, -, success, id, entries,
      startBody, list, listed, -, two_hundred, shards, progress, listBody, cancel, deleted, -,
      taken, cancelled, cancelBody, noExtractors, posted, -, refused, badId, asked, ⟨⟩, closed, -,
      refused_id, rfl⟩, -⟩
    exact ⟨secret, ⟨spaceId, connected, seeded⟩, ⟨start, id, entries, started, success,
      startBody, cancel, cancelled, deleted, taken, cancelBody⟩, ⟨list, shards, progress, listed, two_hundred,
      listBody⟩, ⟨noExtractors, posted, refused⟩, ⟨badId, asked, refused_id⟩, closed⟩
  · rintro ⟨secret, ⟨spaceId, connected, seeded⟩, ⟨start, id, entries, started, success,
      startBody, cancel, cancelled, deleted, taken, cancelBody⟩, ⟨list, shards, progress, listed, two_hundred,
      listBody⟩, ⟨noExtractors, posted, refused⟩, ⟨badId, asked, refused_id⟩, closed⟩
    exact ⟨_, ⟨(), secret, spaceId, connected, (), seeded, start, started, (), success, id, entries,
      startBody, list, listed, (), two_hundred, shards, progress, listBody, cancel, deleted, (),
      taken, cancelled, cancelBody, noExtractors, posted, (), refused, badId, asked, (), closed, (),
      refused_id, rfl⟩, rfl⟩

end BrainEval.Backfill
