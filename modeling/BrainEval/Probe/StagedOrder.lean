import Mathlib
import BrainEval.Lib.Encounter
import BrainEval.Probe.Staged
import BrainEval.Runner.Config

set_option autoImplicit false

namespace BrainEval.Staged

open Std RustStr Runner Grouping Encounter

structure ReadRecord where
  r8Answered : Bool
  verdict : Verdict
  failStage : Option String

structure ReadRollup where
  total : Nat
  correct : Nat
  partialCredit : Nat
  scoreSum : ℚ
  failRetrieval : Nat
  failAbstention : Nat
  failAnswerDrop : Nat
  failWrong : Nat

def ReadRollup.zero : ReadRollup := ⟨0, 0, 0, 0, 0, 0, 0, 0⟩

def ReadRollup.record (agg : ReadRollup) (r : ReadRecord) : ReadRollup :=
  let agg := { agg with total := agg.total + 1, scoreSum := agg.scoreSum + r.verdict.score }
  let agg :=
    match r.verdict with
    | .correct => { agg with correct := agg.correct + 1 }
    | .partialCredit => { agg with partialCredit := agg.partialCredit + 1 }
    | .incorrect | .notJudged => agg
  match r.failStage with
  | some s =>
    if contains s "abstention" then { agg with failAbstention := agg.failAbstention + 1 }
    else if contains s "answer dropped" then { agg with failAnswerDrop := agg.failAnswerDrop + 1 }
    else if contains s "retrieval" then { agg with failRetrieval := agg.failRetrieval + 1 }
    else { agg with failWrong := agg.failWrong + 1 }
  | none => agg

-- What answers the calls of one run.
structure StagedWorld where
  connect : String → Except String Unit
  encode : String → List EncodeRequest → Except String EncodeAck
  drainAndCount : String → List String → Except String Unit
  focusRead : EvalInstance → Except String Unit
  stagedRead : EvalInstance → Except String ReadRecord
  close : String → Except String Unit

/-- What the group loop carries, with the questions asked so far in place of their number. -/
structure Progress where
  asked : List EvalInstance
  agg : ReadRollup
  totalDurable : Nat
  totalTurns : Nat

def Progress.start : Progress := ⟨[], .zero, 0, 0⟩

def Progress.capped (maxQuestions : Option Nat) (p : Progress) : Bool :=
  maxQuestions.any fun m => p.asked.length ≥ m

def groupByConversation (instances : List EvalInstance) : TreeMap String (List EvalInstance) :=
  groupBy convKey id instances

section Run

variable (world : StagedWorld) (maxQuestions : Option Nat)

def readQuestions : List EvalInstance → Progress → Except String Progress
  | [], p => .ok p
  | inst :: insts, p =>
    if p.capped maxQuestions then .ok p
    else do
      let read ← world.stagedRead inst
      readQuestions insts { p with asked := p.asked ++ [inst], agg := p.agg.record read }

-- The write of one conversation, or what stands in its place when a space is reused.
def writeStage (reuse : Bool) (conv : String) (insts : List EvalInstance) (p : Progress) :
    Except String Progress := do
  let sessions := (insts.head?.map (·.sessions)).getD []
  let texts := turnTexts sessions
  if reuse then
    world.drainAndCount conv texts
    return p
  else
    let durable ← (writeConversation (world.encode conv) sessions).2
    world.drainAndCount conv texts
    return { p with
      totalDurable := p.totalDurable + durable
      totalTurns := p.totalTurns + texts.length }

def focusStage (focusQid conv : String) (insts : List EvalInstance) : Except String Unit := do
  match insts.find? (·.questionId = focusQid) with
  | some inst => world.focusRead inst
  | none => pure ()
  world.close conv

variable (reuse : Bool) (focusQid : Option String)

def runGroups : List (String × List EvalInstance) → Progress → Except String Progress
  | [], p => .ok p
  | (conv, insts) :: groups, p =>
    if p.capped maxQuestions then .ok p
    else do
      world.connect conv
      match focusQid with
      | some qid =>
        focusStage world qid conv insts
        return p
      | none =>
        let p ← writeStage world reuse conv insts p
        let p ← readQuestions world maxQuestions insts p
        world.close conv
        if reuse then return p else runGroups groups p

def runStaged (instances : List EvalInstance) : Except String (Progress × Bool) := do
  let p ← runGroups world maxQuestions reuse focusQid (groupByConversation instances).toList .start
  return (p, p.agg.correct == p.agg.total && p.agg.total > 0)

end Run

theorem bind_ok {ε α β : Type} {x : Except ε α} {f : α → Except ε β} {result : β}
    (done : x >>= f = .ok result) : ∃ value, x = .ok value ∧ f value = .ok result := by
  cases x with
  | ok value => exact ⟨value, rfl, done⟩
  | error e => simp [bind, Except.bind] at done

section Asked

variable {world : StagedWorld} {n : Nat} {p result : Progress}

theorem capped_iff : p.capped (some n) = true ↔ n ≤ p.asked.length := by
  simp [Progress.capped]

theorem take_of_capped {insts : List EvalInstance} (capped : p.capped (some n) = true) :
    p.asked = p.asked ++ insts.take (n - p.asked.length) := by
  rw [Nat.sub_eq_zero_of_le (capped_iff.mp capped), List.take_zero, List.append_nil]

-- One conversation asks as many of its questions as the cap has left.
theorem readQuestions_asked {insts : List EvalInstance}
    (done : readQuestions world (some n) insts p = .ok result) :
    result.asked = p.asked ++ insts.take (n - p.asked.length) := by
  induction insts generalizing p with
  | nil =>
    obtain rfl := Except.ok.inj done
    simp
  | cons inst insts ih =>
    rw [readQuestions] at done
    by_cases capped : p.capped (some n) = true
    next =>
      rw [if_pos capped] at done
      obtain rfl := Except.ok.inj done
      exact take_of_capped capped
    next =>
      rw [if_neg capped] at done
      obtain ⟨read, -, done⟩ := bind_ok done
      have room : n - p.asked.length = n - (p.asked.length + 1) + 1 := by
        rw [capped_iff] at capped
        omega
      rw [ih done, room, List.take_succ_cons, List.append_assoc, List.singleton_append,
        List.length_append, List.length_singleton]

theorem writeStage_asked {reuse : Bool} {conv : String} {insts : List EvalInstance}
    (done : writeStage world reuse conv insts p = .ok result) : result.asked = p.asked := by
  unfold writeStage at done
  dsimp only at done
  split at done
  next =>
    obtain ⟨_, -, done⟩ := bind_ok done
    rw [← Except.ok.inj done]
  next =>
    obtain ⟨durable, -, done⟩ := bind_ok done
    obtain ⟨_, -, done⟩ := bind_ok done
    rw [← Except.ok.inj done]

theorem runGroups_asked {groups : List (String × List EvalInstance)}
    (done : runGroups world (some n) false none groups p = .ok result) :
    result.asked = p.asked ++ (groups.flatMap Prod.snd).take (n - p.asked.length) := by
  induction groups generalizing p with
  | nil =>
    obtain rfl := Except.ok.inj done
    simp
  | cons group groups ih =>
    obtain ⟨conv, insts⟩ := group
    rw [runGroups] at done
    by_cases capped : p.capped (some n) = true
    next =>
      rw [if_pos capped] at done
      obtain rfl := Except.ok.inj done
      exact take_of_capped capped
    next =>
      rw [if_neg capped] at done
      obtain ⟨_, -, done⟩ := bind_ok done
      obtain ⟨written, wrote, done⟩ := bind_ok done
      obtain ⟨read, asked, done⟩ := bind_ok done
      obtain ⟨_, -, done⟩ := bind_ok done
      rw [if_neg Bool.false_ne_true] at done
      rw [ih done, readQuestions_asked asked, writeStage_asked wrote, List.flatMap_cons,
        List.take_append, List.append_assoc, List.length_append, List.length_take]
      congr 3
      dsimp only
      omega

end Asked

def conversations (instances : List EvalInstance) : List String :=
  firstSeen (instances.map convKey)

def questionsOf (instances : List EvalInstance) (conv : String) : List EvalInstance :=
  instances.filter (convKey · = conv)

def encounterOrder (instances : List EvalInstance) : List EvalInstance :=
  (conversations instances).flatMap (questionsOf instances)

section Order

variable {instances : List EvalInstance} {n : Nat}

theorem convKey_of_question (conv : String) :
    ∀ inst ∈ questionsOf instances conv, convKey inst = conv := by
  intro inst member
  simpa using (List.mem_filter.mp member).2

theorem questionsOf_ne_nil {conv : String} (met : conv ∈ conversations instances) :
    questionsOf instances conv ≠ [] := by
  obtain ⟨inst, member, same⟩ := List.mem_map.mp (mem_firstSeen.mp met)
  exact List.ne_nil_of_mem (List.mem_filter.mpr ⟨member, decide_eq_true same⟩)

-- The map hands the conversations out in key order.
theorem groups_in_key_order :
    (groupByConversation instances).toList.flatMap Prod.snd =
      (groupByConversation instances).keys.flatMap (questionsOf instances) := by
  rw [groupByConversation, toList_eq, List.flatMap_map]
  congr 1
  funext conv
  simp [members, questionsOf]

theorem keys_sorted : (groupByConversation instances).keys.Pairwise (· < ·) :=
  TreeMap.ordered_keys.imp fun less => compare_lt_iff_lt.mp less

theorem capped_probe_asks_first_iff {world : StagedWorld} {result : Progress} {passed : Bool}
    (done : runStaged world (some n) false none instances = .ok (result, passed)) :
    result.asked = (encounterOrder instances).take n ↔
      ∀ before conv after, conversations instances = before ++ conv :: after →
        (before.flatMap (questionsOf instances)).length < n → ∀ later ∈ after, conv < later := by
  obtain ⟨p, run, same⟩ := bind_ok done
  obtain ⟨rfl, -⟩ := Prod.mk.inj (Except.ok.inj same)
  rw [runGroups_asked run, groups_in_key_order, encounterOrder]
  exact take_flatMap_eq_iff keys_sorted (keys_perm_firstSeen convKey id instances)
    convKey_of_question (fun _ => questionsOf_ne_nil) n

end Order

def calmWorld : StagedWorld where
  connect _ := .ok ()
  encode _ := acks
  drainAndCount _ _ := .ok ()
  focusRead _ := .ok ()
  stagedRead _ := .ok ⟨true, .correct, none⟩
  close _ := .ok ()

def oneQuestion (conv : String) : EvalInstance :=
  { twoSessions with questionId := conv ++ "-q", conversationId := some conv, sessions := [] }

theorem sorted_conversations_asked_first :
    ∃ result passed,
      runStaged calmWorld (some 1) false none [oneQuestion "a", oneQuestion "b"] =
        .ok (result, passed) ∧
      result.asked = (encounterOrder [oneQuestion "a", oneQuestion "b"]).take 1 := by
  have met : conversations [oneQuestion "a", oneQuestion "b"] = ["a", "b"] := by decide +kernel
  have ends : (runStaged calmWorld (some 1) false none
      [oneQuestion "a", oneQuestion "b"]).isOk = true := by decide +kernel
  cases run : runStaged calmWorld (some 1) false none [oneQuestion "a", oneQuestion "b"] with
  | error e => simp [run, Except.isOk, Except.toBool] at ends
  | ok pair =>
    refine ⟨pair.1, pair.2, rfl, (capped_probe_asks_first_iff run).mpr ?_⟩
    intro before conv after split _ later member
    have sorted : (before ++ conv :: after).Pairwise (· < ·) := by
      rw [← split, met]
      decide
    exact (List.pairwise_cons.mp (List.pairwise_append.mp sorted).2.1).1 later member

-- Two conversations met against the order of their keys: a cap of one asks of the second.
theorem later_conversation_asked_first :
    (runStaged calmWorld (some 1) false none [oneQuestion "b", oneQuestion "a"]).toOption.map
        (·.1.asked) = some [oneQuestion "a"] ∧
      (encounterOrder [oneQuestion "b", oneQuestion "a"]).take 1 = [oneQuestion "b"] ∧
      oneQuestion "a" ≠ oneQuestion "b" :=
  ⟨by decide +kernel, by decide +kernel, by decide⟩

end BrainEval.Staged
