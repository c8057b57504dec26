import Mathlib
import BrainEval.Datasets.Chronology
import BrainEval.Datasets.Decode

set_option autoImplicit false

namespace BrainEval.Locomo

open Datasets

-- `LocomoBenchmark::load` on the value of the file; `none` is its parse error.
def loadFile (v : Value) : Option (List EvalInstance) := (decodeList decodeSample v).map load

def arrayItems : Value → List Value
  | .array items => items
  | _ => []

namespace LocomoSample

def elements (sample : LocomoSample) : List (String × Value) :=
  (sample.conversation.toList.filter fun entry => isSessionLabel entry.1).flatMap fun entry =>
    (arrayItems entry.2).map fun item => (entry.1, item)

-- The turn that stands for an element: what is said there, dated by itself or by its session.
def TurnFor (sample : LocomoSample) (element : String × Value) (turn : TurnRecord) : Prop :=
  ∃ t, decodeTurn element.2 = some t ∧
    turn = turnRecord sample.split.sessionDates[element.1]? t

end LocomoSample

/-- A file whose every session element is one turn of every instance of its sample, in order, if
the file loads, and which does not load where an element is no turn. -/
structure NothingLost (v : Value) : Prop where
  kept : ∀ samples out, decodeList decodeSample v = some samples → loadFile v = some out →
    out = samples.flatMap (·.expandInto []) ∧
      ∀ sample ∈ samples, ∀ inst ∈ sample.expandInto [],
        List.Forall₂ sample.TurnFor sample.elements (inst.sessions.flatMap (·.turns))
  refused : ∀ samples, decodeList decodeSample v = some samples →
    (∃ sample ∈ samples, ∃ element ∈ sample.elements, decodeTurn element.2 = none) →
      loadFile v = none

theorem exists_decodeTurns {items : List Value}
    (decodes : ∀ item ∈ items, (decodeTurn item).isSome = true) :
    ∃ turns, decodeTurns (.array items) = some turns ∧
      List.Forall₂ (fun item t => decodeTurn item = some t) items turns := by
  rw [decodeTurns]
  induction items with
  | nil => exact ⟨[], rfl, List.Forall₂.nil⟩
  | cons item items ih =>
    obtain ⟨here, decodes⟩ := List.forall_mem_cons.mp decodes
    obtain ⟨t, decoded⟩ := Option.isSome_iff_exists.mp here
    obtain ⟨turns, rest, related⟩ := ih decodes
    exact ⟨t :: turns, by simp [List.mapM_cons, decoded, rest], List.Forall₂.cons decoded related⟩

namespace LocomoSample

variable {sample : LocomoSample}

-- A value that is no array has no element to lose.
theorem entry_kept {entry : String × Value}
    (decodes : ∀ item ∈ arrayItems entry.2, (decodeTurn item).isSome = true) :
    List.Forall₂ sample.TurnFor ((arrayItems entry.2).map fun item => (entry.1, item))
      ((sessionOf sample.split.sessionDates entry).toList.flatMap (·.turns)) := by
  obtain ⟨label, value⟩ := entry
  cases value with
  | array items =>
    obtain ⟨turns, decoded, related⟩ : ∃ turns, decodeTurns (.array items) = some turns ∧
        List.Forall₂ (fun item t => decodeTurn item = some t) items turns :=
      exists_decodeTurns decodes
    simp only [sessionOf, decoded, Option.map_some, Option.toList_some, List.flatMap_cons,
      List.flatMap_nil, List.append_nil, arrayItems]
    rw [List.forall₂_map_left_iff, List.forall₂_map_right_iff]
    exact related.imp fun item t here => ⟨t, here, rfl⟩
  | null | bool | number | string | object => exact List.Forall₂.nil

theorem flatMap_filterMap {α β γ : Type} (f : α → Option β) (g : β → List γ) (as : List α) :
    (as.filterMap f).flatMap g = as.flatMap fun a => (f a).toList.flatMap g := by
  induction as with
  | nil => rfl
  | cons a as ih => cases here : f a <;> simp [here, ih]

theorem sessions_kept
    (decodes : ∀ element ∈ sample.elements, (decodeTurn element.2).isSome = true) :
    List.Forall₂ sample.TurnFor sample.elements (sample.sessions.flatMap (·.turns)) := by
  rw [sessions, flatMap_filterMap, split_sessionArrays]
  unfold elements at decodes ⊢
  generalize sample.conversation.toList.filter (fun entry => isSessionLabel entry.1) = entries
    at decodes ⊢
  induction entries with
  | nil => exact List.Forall₂.nil
  | cons entry entries ih =>
    rw [List.flatMap_cons, List.flatMap_cons]
    rw [List.flatMap_cons] at decodes
    apply List.rel_append
    · apply entry_kept
      intro item member
      exact decodes (entry.1, item) (List.mem_append_left _ (List.mem_map_of_mem member))
    · exact ih fun element member => decodes element (List.mem_append_right _ member)

end LocomoSample

theorem nothing_lost_iff (v : Value) :
    NothingLost v ↔ ∀ samples, decodeList decodeSample v = some samples →
      ∀ sample ∈ samples, ∀ element ∈ sample.elements, (decodeTurn element.2).isSome = true := by
  constructor
  · intro nothing samples decoded sample member element inside
    by_contra undecoded
    have refused := nothing.refused samples decoded
      ⟨sample, member, element, inside, Option.not_isSome_iff_eq_none.mp undecoded⟩
    rw [loadFile, decoded] at refused
    exact Option.some_ne_none _ refused
  · intro decodes
    constructor
    · intro samples out decoded loaded
      rw [loadFile, decoded, Option.map_some, Option.some_inj] at loaded
      refine ⟨loaded ▸ load_eq_flatMap samples, fun sample member inst expanded => ?_⟩
      rw [LocomoSample.mem_expandInto expanded]
      exact LocomoSample.sessions_kept (decodes samples decoded sample member)
    · rintro samples decoded ⟨sample, member, element, inside, undecoded⟩
      have some_turn := decodes samples decoded sample member element inside
      simp [undecoded] at some_turn

def pictureFile : Value :=
  .array [.object [("sample_id", .string "conv-1"),
    ("conversation", .object [("session_1", .array [
      .object [("speaker", .string "Ann"), ("text", .string "I moved to Oslo.")],
      .object [("speaker", .string "Bob"), ("img_url", .string "oslo.png")]])]),
    ("qa", .array [.object [("question", .string "Where does Ann live?"),
      ("answer", .string "Oslo"), ("category", .number "1")]])]]

theorem picture_drops_session :
    (loadFile pictureFile).map (·.map (·.sessions)) = some [[]] ∧ ¬ NothingLost pictureFile := by
  have loaded : (loadFile pictureFile).map (·.map (·.sessions)) = some [[]] := by decide +kernel
  have undecoded : (decodeList decodeSample pictureFile).map (fun samples =>
      samples.any fun sample => sample.elements.any fun element => (decodeTurn element.2).isNone) = some true := by
    decide +kernel
  refine ⟨loaded, fun nothing => ?_⟩
  obtain ⟨samples, decoded, lost⟩ := Option.map_eq_some_iff.mp undecoded
  obtain ⟨sample, member, lost⟩ := List.any_eq_true.mp lost
  obtain ⟨element, inside, lost⟩ := List.any_eq_true.mp lost
  have refused := nothing.refused samples decoded
    ⟨sample, member, element, inside, Option.isNone_iff_eq_none.mp lost⟩
  rw [refused] at loaded
  exact Option.some_ne_none _ loaded.symm

end BrainEval.Locomo
