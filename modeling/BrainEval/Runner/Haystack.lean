import Mathlib
import BrainEval.Datasets.Decode
import BrainEval.Datasets.Chronology
import BrainEval.Runner.Fate

set_option autoImplicit false

namespace BrainEval.Runner

open Locomo Datasets Grouping

-- The loaders that read a dataset file, each from the JSON rows of the file.
inductive FileLoader where
  | locomo
  | longmemeval
  | dmr
  deriving DecidableEq, Repr

namespace FileLoader

def load : FileLoader → List Value → Option (List EvalInstance)
  | .locomo, rows => (rows.mapM decodeSample).map Locomo.load
  | .longmemeval, rows => (rows.mapM LongMemEval.decodeRow).map (·.map (·.intoEvalInstance))
  | .dmr, rows => (rows.mapM Dmr.decodeRow).map (·.map (·.intoEvalInstance))

-- The id and the sessions of every row that asks a question, as the file has them.
def conversations : FileLoader → List Value → List (String × List Session)
  | .locomo, rows =>
    let samples := (rows.mapM decodeSample).getD []
    (samples.filter (!·.qa.isEmpty)).map fun sample => (sample.sampleId, sample.sessions)
  | .longmemeval, rows =>
    let decoded := (rows.mapM LongMemEval.decodeRow).getD []
    decoded.map fun row => (row.questionId, row.sessions)
  | .dmr, rows =>
    let decoded := (rows.mapM Dmr.decodeRow).getD []
    decoded.map fun row => (row.conversationId.getD row.id, row.sessions.map (·.toSession))

end FileLoader

/-- In every run over the instances, the sessions that are ingested for a group, those of its first
member, are the sessions of each of its members. -/
def OwnHaystack (instances : List EvalInstance) : Prop :=
  ∀ run : Run, run.loaded = instances → ∀ group ∈ run.groups.toList, ∀ idx ∈ group.2,
    (run.inst idx).sessions = (run.inst (group.2.headD 0)).sessions

def OneHaystackPerKey (keyed : List (String × List Session)) : Prop :=
  ∀ a ∈ keyed, ∀ b ∈ keyed, a.1 = b.1 → a.2 = b.2

def keyed (instances : List EvalInstance) : List (String × List Session) :=
  instances.map fun inst => (convKey inst, inst.sessions)

theorem mem_of_selected {config : RunConfig} {loaded : List EvalInstance} {inst : EvalInstance}
    (member : inst ∈ selectInstances config loaded) : inst ∈ loaded := by
  unfold selectInstances at member
  grind [List.mem_of_mem_take]

namespace Run

variable (run : Run)

theorem inst_mem {idx : Nat} (within : idx < run.instances.length) : run.inst idx ∈ run.loaded := by
  have listed : run.inst idx ∈ run.instances := by simp [inst, within]
  exact mem_of_selected listed

theorem mem_membersOf {k : String} {idx : Nat} :
    idx ∈ run.membersOf k ↔ idx < run.instances.length ∧ run.key idx = k := by
  simp [membersOf]

theorem membersOf_mem_groups {k : String} {idx : Nat} (member : idx ∈ run.membersOf k) :
    (k, run.membersOf k) ∈ run.groups.toList := by
  rw [groups, Grouping.mem_toList, members_groups]
  exact ⟨rfl, List.ne_nil_of_mem member⟩

end Run

theorem ownHaystack_iff (instances : List EvalInstance) :
    OwnHaystack instances ↔ OneHaystackPerKey (keyed instances) := by
  constructor
  · intro own a left b right same
    obtain ⟨i, at_i, rfl⟩ := List.mem_map.mp left
    obtain ⟨j, at_j, rfl⟩ := List.mem_map.mp right
    obtain ⟨n, n_lt, rfl⟩ := List.mem_iff_getElem.mp at_i
    obtain ⟨m, m_lt, rfl⟩ := List.mem_iff_getElem.mp at_j
    -- a run with no filter asks every question of the file
    let run := plainRun .silent instances
    have asked : ∀ {l : Nat} (within : l < instances.length), run.inst l = instances[l] := by
      intro l within
      simp [Run.inst, Run.instances, selectInstances, run, plainRun, plainConfig, within]
    have grouped : ∀ {l : Nat} (within : l < instances.length),
        convKey instances[l] = convKey instances[n] →
        l ∈ run.membersOf (convKey instances[n]) := by
      intro l within key
      refine run.mem_membersOf.mpr ⟨within, ?_⟩
      rw [Run.key, asked within, key]
    have first := own run rfl _ (run.membersOf_mem_groups (grouped n_lt rfl))
    calc
      instances[n].sessions = (run.inst n).sessions := by rw [asked n_lt]
      _ = (run.inst m).sessions := (first n (grouped n_lt rfl)).trans
        (first m (grouped m_lt same.symm)).symm
      _ = instances[m].sessions := by rw [asked m_lt]
  · rintro one run rfl ⟨k, idxs⟩ group idx member
    obtain ⟨rfl, some_member⟩ := run.mem_groups group
    have head : (run.membersOf k).headD 0 ∈ run.membersOf k := by
      cases members : run.membersOf k with
      | nil => exact absurd members some_member
      | cons first rest => exact List.mem_cons_self
    obtain ⟨here, key⟩ := run.mem_membersOf.mp member
    obtain ⟨there, headKey⟩ := run.mem_membersOf.mp head
    exact one _ (List.mem_map.mpr ⟨_, run.inst_mem here, rfl⟩)
      _ (List.mem_map.mpr ⟨_, run.inst_mem there, rfl⟩) (key.trans headKey.symm)

-- A sample's questions share its id and its sessions.
theorem mem_keyed_expandInto {sample : LocomoSample} {pair : String × List Session} :
    pair ∈ keyed (sample.expandInto []) ↔
      sample.qa ≠ [] ∧ (sample.sampleId, sample.sessions) = pair := by
  rw [keyed, LocomoSample.expandInto, List.nil_append, List.mem_map]
  constructor
  · rintro ⟨inst, member, rfl⟩
    obtain ⟨idx, bound, rfl⟩ := List.mem_mapIdx.mp member
    exact ⟨List.ne_nil_of_length_pos (Nat.zero_lt_of_lt bound), rfl⟩
  · rintro ⟨asks, rfl⟩
    exact ⟨_, List.mem_mapIdx.mpr ⟨0, List.length_pos_iff.mpr asks, rfl⟩, rfl⟩

theorem mem_keyed_locomo {samples : List LocomoSample} {pair : String × List Session} :
    pair ∈ keyed (Locomo.load samples) ↔
      pair ∈ (samples.filter (!·.qa.isEmpty)).map fun sample =>
        (sample.sampleId, sample.sessions) := by
  rw [load_eq_flatMap, keyed, List.map_flatMap, List.mem_flatMap, List.mem_map]
  refine exists_congr fun sample => ?_
  rw [← keyed, mem_keyed_expandInto]
  simp [and_assoc]

namespace FileLoader

variable (loader : FileLoader)

theorem mem_keyed_load {rows : List Value} {instances : List EvalInstance}
    (accepted : loader.load rows = some instances) (pair : String × List Session) :
    pair ∈ keyed instances ↔ pair ∈ loader.conversations rows := by
  cases loader with
  | locomo =>
    obtain ⟨samples, decoded, rfl⟩ := Option.map_eq_some_iff.mp accepted
    have listed : pair ∈ keyed (Locomo.load samples) ↔ _ := mem_keyed_locomo
    simpa [conversations, decoded] using listed
  | longmemeval =>
    obtain ⟨decoded_rows, decoded, rfl⟩ := Option.map_eq_some_iff.mp accepted
    simp [conversations, decoded, keyed, convKey, LongMemEval.LmeRow.intoEvalInstance]
  | dmr =>
    obtain ⟨decoded_rows, decoded, rfl⟩ := Option.map_eq_some_iff.mp accepted
    simp [conversations, decoded, keyed, convKey, Dmr.DmrRow.intoEvalInstance]

theorem own_haystack_iff {rows : List Value} {instances : List EvalInstance}
    (accepted : loader.load rows = some instances) :
    OwnHaystack instances ↔ OneHaystackPerKey (loader.conversations rows) := by
  rw [ownHaystack_iff]
  simp only [OneHaystackPerKey, loader.mem_keyed_load accepted]

def turnRow (text : String) : Value :=
  .object [("speaker", .string "Ann"), ("text", .string text)]

def sampleRow (idFields : List (String × Value)) (text : String) : Value :=
  .object (idFields ++ [("conversation", .object [("session_1", .array [turnRow text])]),
    ("qa", .array [.object [("question", .string "Where does Ann live?")]])])

def namedFile : List Value :=
  [sampleRow [("sample_id", .string "conv-1")] "I live in Paris.",
    sampleRow [("sample_id", .string "conv-2")] "I live in Rome."]

theorem named_samples_keep_their_haystacks :
    ∃ instances, FileLoader.locomo.load namedFile = some instances ∧ OwnHaystack instances := by
  have loads : (FileLoader.locomo.load namedFile).isSome = true := by decide +kernel
  obtain ⟨instances, accepted⟩ := Option.isSome_iff_exists.mp loads
  refine ⟨instances, accepted, (own_haystack_iff .locomo accepted).mpr ?_⟩
  unfold OneHaystackPerKey
  decide +kernel

-- Neither sample has an id: both take the default one.
def unnamedFile : List Value := [sampleRow [] "I live in Paris.", sampleRow [] "I live in Rome."]

theorem unnamed_samples_share_a_space :
    (FileLoader.locomo.load unnamedFile).map keyed =
      some [("sample-0", [⟨"session_1", [⟨"user", "Ann: I live in Paris.", none⟩]⟩]),
        ("sample-0", [⟨"session_1", [⟨"user", "Ann: I live in Rome.", none⟩]⟩])] ∧
      ∃ instances, FileLoader.locomo.load unnamedFile = some instances ∧
        ¬ OwnHaystack instances := by
  have loads : (FileLoader.locomo.load unnamedFile).map keyed =
      some [("sample-0", [⟨"session_1", [⟨"user", "Ann: I live in Paris.", none⟩]⟩]),
        ("sample-0", [⟨"session_1", [⟨"user", "Ann: I live in Rome.", none⟩]⟩])] := by
    decide +kernel
  refine ⟨loads, ?_⟩
  obtain ⟨instances, accepted, shared⟩ := Option.map_eq_some_iff.mp loads
  refine ⟨instances, accepted, ?_⟩
  rw [ownHaystack_iff, shared, OneHaystackPerKey]
  decide +kernel

end FileLoader

end BrainEval.Runner
