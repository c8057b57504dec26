import Mathlib
import BrainEval.Lib.Template
import BrainEval.Score.AnswerText
import BrainEval.Score.JudgePrompt

set_option autoImplicit false

namespace BrainEval

open RustStr Replace Template

inductive PromptSlot where
  | question
  | groundTruth
  | systemAnswer
  | category
  | typeGuidance
  | retrieved
  deriving DecidableEq

def PromptSlot.name : PromptSlot → String
  | .question => "question"
  | .groundTruth => "ground_truth"
  | .systemAnswer => "system_answer"
  | .category => "category"
  | .typeGuidance => "type_guidance"
  | .retrieved => "retrieved"

-- The verdict prompt as written: its literal text, the JSON example in single braces, and its
-- slots.
def verdictPieces : List (Piece PromptSlot) :=
  [.text "You are a strict grader for a long-term-memory question-answering benchmark. Decide whether the SYSTEM ANSWER is correct given the REFERENCE ANSWER, judging meaning rather than surface wording.

Question: ",
    .slot .question, .text "\n", .text "Reference answer: ",
    .slot .groundTruth, .text "\n", .text "System answer: ",
    .slot .systemAnswer, .text "\n", .text "Question category: ",
    .slot .category, .text "\n\n",
    .slot .typeGuidance,
    .text "General rules:
- Judge meaning, not form: ignore paraphrase, formatting, and equivalent date-number expressions (e.g. \"two weeks\" vs \"14 days\").
- Do not reward verbosity: extra correct context is fine, but any claim that CONTRADICTS the reference makes the answer incorrect.
- When the reference enumerates several items, the answer is correct only if EVERY item is present (order-independent); extra non-contradicting items are tolerated.
- An empty, evasive, or \"I don't know\" answer is incorrect UNLESS the category rule says otherwise.

Reason first, then decide. Respond with ONLY a JSON object — no prose, no code fence — with \"reasoning\" BEFORE \"correct\":\n",
    .text "\x7b\"reasoning\": \"<1-2 sentences>\", \"correct\": true\x7d"]

def supportPieces : List (Piece PromptSlot) :=
  [.text "You are auditing the RETRIEVAL stage of a memory question-answering system. You are given a question, its gold answer, and the memories the system retrieved. Decide whether the gold answer can be derived ENTIRELY from the retrieved memories — i.e. the memories contain enough information to support the gold answer on their own, without outside knowledge.

Question: ",
    .slot .question, .text "\n", .text "Gold answer: ",
    .slot .groundTruth, .text "\n", .text "Retrieved memories:\n",
    .slot .retrieved, .text "\n",
    .text "
Answer \"yes\" only if a reader could produce the gold answer using ONLY the retrieved memories. Answer \"no\" if the memories are missing the key fact, contradict it, or are empty. Paraphrase is fine — the fact need not be stated verbatim, but it must be present.

Respond with ONLY a JSON object, no prose:\n",
    .text "\x7b\"supported\": true | false, \"reasoning\": \"<one short sentence>\"\x7d"]

-- The two templates spelled out, character by character.
set_option maxRecDepth 20000 in
theorem verdictPieces_spell :
    verdictPromptTemplate.toList = verdictPieces.flatMap (Piece.spell PromptSlot.name) := by
  have template : verdictPromptTemplate = String.ofList _ := rfl
  rw [template, String.toList_ofList]
  simp only [verdictPieces, List.flatMap_cons, List.flatMap_nil, Piece.spell]
  repeat rw [String.toList_ofList]
  decide +kernel

set_option maxRecDepth 20000 in
theorem supportPieces_spell :
    supportPromptTemplate.toList = supportPieces.flatMap (Piece.spell PromptSlot.name) := by
  have template : supportPromptTemplate = String.ofList _ := rfl
  rw [template, String.toList_ofList]
  simp only [supportPieces, List.flatMap_cons, List.flatMap_nil, Piece.spell]
  repeat rw [String.toList_ofList]
  decide +kernel

-- No pattern of a prompt holds one of these.
def isGuard (c : Char) : Bool := c = ' ' || c = '\n' || c = 'G'

theorem plain_ofList {cs : List Char} (plain : cs.all (fun c => c ≠ '{' && c ≠ '}') = true) :
    Plain (String.ofList cs) := by
  intro c member
  rw [String.toList_ofList] at member
  simpa using List.all_eq_true.mp plain c member

theorem slot_plain (s : PromptSlot) : Plain s.name := by
  cases s <;> unfold PromptSlot.name <;> exact plain_ofList (by decide)

theorem slots_apart (s s' : PromptSlot)
    (inside : placeholder s.name <:+: placeholder s'.name) : s = s' := by
  have same := placeholder_infix (slot_plain s) (slot_plain s') inside
  revert same
  cases s <;> cases s' <;> simp [PromptSlot.name]

theorem slot_spares (s : PromptSlot) : (placeholder s.name).all (fun c => !isGuard c) = true := by
  cases s <;> unfold placeholder PromptSlot.name <;> rw [String.toList_ofList] <;> decide

theorem spares_steps (fills : List (PromptSlot × String)) :
    Spares isGuard (fillSteps PromptSlot.name fills ++ undouble) := by
  intro step member
  have free : step.1 ≠ [] ∧ step.1.all (fun c => !isGuard c) = true := by
    rcases List.mem_append.mp member with filled | doubled
    · obtain ⟨entry, _, rfl⟩ := List.mem_map.mp filled
      exact ⟨placeholder_ne_nil _, slot_spares entry.1⟩
    · simp only [undouble, List.mem_cons, List.not_mem_nil, or_false] at doubled
      rcases doubled with rfl | rfl
      · exact ⟨by simp, by decide⟩
      · exact ⟨by simp, by decide⟩
  refine ⟨free.1, fun c guarded inside => ?_⟩
  have unguarded := List.all_eq_true.mp free.2 c inside
  simp [guarded] at unguarded

set_option maxRecDepth 20000 in
theorem verdict_seams : (verdictPieces.map (Piece.spell PromptSlot.name)).IsChain
    fun a b => seam isGuard a b = true := by
  simp only [verdictPieces, List.map_cons, List.map_nil, Piece.spell]
  repeat rw [String.toList_ofList]
  decide +kernel

set_option maxRecDepth 20000 in
theorem support_seams : (supportPieces.map (Piece.spell PromptSlot.name)).IsChain
    fun a b => seam isGuard a b = true := by
  simp only [supportPieces, List.map_cons, List.map_nil, Piece.spell]
  repeat rw [String.toList_ofList]
  decide +kernel

theorem absent_of_plain {s : String} (plain : Plain s) (slot : PromptSlot) :
    ¬ placeholder slot.name <:+: doubleBraces s.toList := by
  intro inside
  obtain ⟨c, member, same⟩ := List.mem_flatMap.mp (inside.subset List.mem_cons_self)
  obtain ⟨opens, closes⟩ := plain c member
  simp [opens, closes, opens.symm] at same

set_option maxRecDepth 20000 in
theorem verdict_literal (s : String) (member : .text s ∈ verdictPieces) (slot : PromptSlot) :
    ¬ placeholder slot.name <:+: doubleBraces s.toList := by
  simp only [verdictPieces, List.mem_cons, List.not_mem_nil, or_false, Piece.text.injEq,
    reduceCtorEq, false_or] at member
  rcases member with rfl | rfl | rfl | rfl | rfl | rfl | rfl | rfl | rfl | rfl
  rotate_right
  · rw [String.toList_ofList]
    cases slot <;> decide +kernel
  all_goals exact absent_of_plain (plain_ofList (by decide +kernel)) slot

set_option maxRecDepth 20000 in
theorem support_literal (s : String) (member : .text s ∈ supportPieces) (slot : PromptSlot) :
    ¬ placeholder slot.name <:+: doubleBraces s.toList := by
  simp only [supportPieces, List.mem_cons, List.not_mem_nil, or_false, Piece.text.injEq,
    reduceCtorEq, false_or] at member
  rcases member with rfl | rfl | rfl | rfl | rfl | rfl | rfl | rfl
  rotate_right
  · rw [String.toList_ofList]
    cases slot <;> decide +kernel
  all_goals exact absent_of_plain (plain_ofList (by decide +kernel)) slot

section Braces

theorem toList_opened : "\x7b\x7b".toList = ['{', '{'] := String.toList_ofList

theorem toList_closed : "\x7d\x7d".toList = ['}', '}'] := String.toList_ofList

theorem toList_opens : "\x7b".toList = ['{'] := String.toList_ofList

theorem toList_closes : "\x7d".toList = ['}'] := String.toList_ofList

theorem toList_newline : "\n".toList = ['\n'] := String.toList_ofList

theorem toList_typeGuidance : "\x7btype_guidance\x7d".toList = placeholder "type_guidance" := by
  rw [placeholder, String.toList_ofList, String.toList_ofList]
  rfl

theorem toList_category : "\x7bcategory\x7d".toList = placeholder "category" := by
  rw [placeholder, String.toList_ofList, String.toList_ofList]
  rfl

theorem toList_question : "\x7bquestion\x7d".toList = placeholder "question" := by
  rw [placeholder, String.toList_ofList, String.toList_ofList]
  rfl

theorem toList_groundTruth : "\x7bground_truth\x7d".toList = placeholder "ground_truth" := by
  rw [placeholder, String.toList_ofList, String.toList_ofList]
  rfl

theorem toList_systemAnswer : "\x7bsystem_answer\x7d".toList = placeholder "system_answer" := by
  rw [placeholder, String.toList_ofList, String.toList_ofList]
  rfl

theorem toList_retrieved : "\x7bretrieved\x7d".toList = placeholder "retrieved" := by
  rw [placeholder, String.toList_ofList, String.toList_ofList]
  rfl

end Braces

-- In both prompts three slots are filled with text from outside, each ended by a line break.
theorem three_slots {t t' t'' last a a' b b' c c' : List Char}
    (gainA : a'.count '\n' ≤ a.count '\n') (gainB : b'.count '\n' ≤ b.count '\n') (gainC : c'.count '\n' ≤ c.count '\n') :
    t ++ (a ++ '\n' :: (t' ++ (b ++ '\n' :: (t'' ++ (c ++ '\n' :: last))))) =
        t ++ (a' ++ '\n' :: (t' ++ (b' ++ '\n' :: (t'' ++ (c' ++ '\n' :: last))))) ↔
      a = a' ∧ b = b' ∧ c = c' := by
  let parts : List (List Char × List Char × List Char) := [(t, a, a'), (t', b, b'), (t'', c, c')]
  have gained : ∀ part ∈ parts, part.2.2.count '\n' ≤ part.2.1.count '\n' := by
    simp [parts, gainA, gainB, gainC]
  simpa [parts, weave] using weave_eq_iff gained last

theorem settled_gains (later : List (PromptSlot × String)) (text : String) :
    text.toList.count '\n' ≤
      (run (fillSteps PromptSlot.name later ++ undouble) text.toList).count '\n' :=
  count_le_run (spares_steps later) (by decide) text.toList

section Verdict

variable (qtype : QuestionType) (question groundTruth systemAnswer : String)

def verdictFills : List (PromptSlot × String) :=
  [(.typeGuidance, verdictTypeGuidance qtype), (.category, qtype.tag), (.question, question),
    (.groundTruth, groundTruth), (.systemAnswer, systemAnswer)]

def verdictArgs : PromptSlot → String
  | .question => question
  | .groundTruth => groundTruth
  | .systemAnswer => systemAnswer
  | .category => qtype.tag
  | .typeGuidance => verdictTypeGuidance qtype
  | .retrieved => ""

def filledVerdictPrompt : String :=
  String.ofList (verdictPieces.flatMap
    (Piece.fill (verdictArgs qtype question groundTruth systemAnswer)))

/-- Each argument comes through the replacements after its own. -/
structure VerdictKept : Prop where
  question : Kept PromptSlot.name [(.groundTruth, groundTruth), (.systemAnswer, systemAnswer)]
    question
  groundTruth : Kept PromptSlot.name [(.systemAnswer, systemAnswer)] groundTruth
  systemAnswer : Undoubled systemAnswer

theorem renderVerdictPrompt_run :
    (renderVerdictPrompt qtype question groundTruth systemAnswer).toList =
      run (fillSteps PromptSlot.name (verdictFills qtype question groundTruth systemAnswer) ++
        undouble) verdictPromptTemplate.toList := by
  simp only [renderVerdictPrompt, toList_replace]
  generalize verdictPromptTemplate.toList = template
  simp only [toList_typeGuidance, toList_category, toList_question, toList_groundTruth,
    toList_systemAnswer, toList_opened, toList_closed, toList_opens, toList_closes]
  simp only [verdictFills, fillSteps, undouble, List.map_cons, List.map_nil, List.cons_append,
    List.nil_append, PromptSlot.name]
  rw [run_cons, run_cons, run_cons, run_cons, run_cons, run_cons, run_cons, run_nil]

set_option maxRecDepth 20000 in
theorem guidance_plain : Plain (verdictTypeGuidance qtype) := by
  unfold verdictTypeGuidance
  split <;> exact plain_ofList (by decide +kernel)

theorem tag_plain : Plain qtype.tag := by
  unfold QuestionType.tag
  split <;> exact plain_ofList (by decide +kernel)

theorem renderVerdictPrompt_eq :
    (renderVerdictPrompt qtype question groundTruth systemAnswer).toList =
      verdictPieces.flatMap (Piece.render PromptSlot.name
        (verdictFills qtype question groundTruth systemAnswer)) := by
  rw [renderVerdictPrompt_run, verdictPieces_spell]
  exact run_pieces slots_apart (spares_steps _) verdict_seams verdict_literal

theorem verdict_guidance :
    settle PromptSlot.name (verdictFills qtype question groundTruth systemAnswer) .typeGuidance =
      (verdictTypeGuidance qtype).toList := by
  simp only [verdictFills, settle, if_true]
  exact kept_of_plain (guidance_plain qtype)

theorem verdict_category :
    settle PromptSlot.name (verdictFills qtype question groundTruth systemAnswer) .category =
      qtype.tag.toList := by
  simp only [verdictFills, settle, reduceCtorEq, if_false, if_true]
  exact kept_of_plain (tag_plain qtype)

theorem verdict_question :
    settle PromptSlot.name (verdictFills qtype question groundTruth systemAnswer) .question =
      run (fillSteps PromptSlot.name [(.groundTruth, groundTruth), (.systemAnswer, systemAnswer)] ++
        undouble) question.toList := by
  simp only [verdictFills, settle, reduceCtorEq, if_false, if_true]

theorem verdict_groundTruth :
    settle PromptSlot.name (verdictFills qtype question groundTruth systemAnswer) .groundTruth =
      run (fillSteps PromptSlot.name [(.systemAnswer, systemAnswer)] ++ undouble)
        groundTruth.toList := by
  simp only [verdictFills, settle, reduceCtorEq, if_false, if_true]

theorem verdict_systemAnswer :
    settle PromptSlot.name (verdictFills qtype question groundTruth systemAnswer) .systemAnswer =
      run (fillSteps PromptSlot.name [] ++ undouble) systemAnswer.toList := by
  simp only [verdictFills, settle, reduceCtorEq, if_false, if_true]

theorem renderVerdictPrompt_eq_iff :
    renderVerdictPrompt qtype question groundTruth systemAnswer =
        filledVerdictPrompt qtype question groundTruth systemAnswer ↔
      VerdictKept question groundTruth systemAnswer := by
  rw [← String.toList_inj, renderVerdictPrompt_eq, filledVerdictPrompt, String.toList_ofList]
  simp only [verdictPieces, List.flatMap_cons, List.flatMap_nil, Piece.render, Piece.fill,
    verdict_guidance, verdict_category, verdict_question, verdict_groundTruth,
    verdict_systemAnswer, verdictArgs, toList_newline, List.singleton_append]
  refine (three_slots (settled_gains _ _) (settled_gains _ _) (settled_gains _ _)).trans ?_
  constructor
  · rintro ⟨asked, gold, answer⟩
    exact ⟨asked, gold, (run_undouble_eq_self_iff _).mp answer⟩
  · rintro ⟨asked, gold, answer⟩
    exact ⟨asked, gold, (run_undouble_eq_self_iff _).mpr answer⟩

theorem verdictKept_iff_of_absent
    (asked : ∀ slot ∈ [PromptSlot.groundTruth, .systemAnswer],
      ¬ placeholder slot.name <:+: question.toList)
    (gold : ¬ placeholder PromptSlot.systemAnswer.name <:+: groundTruth.toList) :
    VerdictKept question groundTruth systemAnswer ↔
      Undoubled question ∧ Undoubled groundTruth ∧ Undoubled systemAnswer := by
  have keptQuestion : Kept PromptSlot.name
      [(.groundTruth, groundTruth), (.systemAnswer, systemAnswer)] question ↔ Undoubled question :=
    kept_iff_of_absent (by simpa using asked)
  have keptGold : Kept PromptSlot.name [(.systemAnswer, systemAnswer)] groundTruth ↔
      Undoubled groundTruth :=
    kept_iff_of_absent (by simpa using gold)
  rw [← keptQuestion, ← keptGold]
  exact ⟨fun kept => ⟨kept.question, kept.groundTruth, kept.systemAnswer⟩,
    fun ⟨asked, gold, answer⟩ => ⟨asked, gold, answer⟩⟩

end Verdict

section Support

variable (question groundTruth : String) (retrieved : List String)

def supportFills : List (PromptSlot × String) :=
  [(.question, question), (.groundTruth, groundTruth), (.retrieved, numbered retrieved)]

def supportArgs : PromptSlot → String
  | .question => question
  | .groundTruth => groundTruth
  | .retrieved => numbered retrieved
  | .systemAnswer | .category | .typeGuidance => ""

def filledSupportPrompt : String :=
  String.ofList (supportPieces.flatMap
    (Piece.fill (supportArgs question groundTruth retrieved)))

structure SupportKept : Prop where
  question : Kept PromptSlot.name [(.groundTruth, groundTruth), (.retrieved, numbered retrieved)]
    question
  groundTruth : Kept PromptSlot.name [(.retrieved, numbered retrieved)] groundTruth
  memories : ∀ m ∈ retrieved, Undoubled m

theorem renderSupportPrompt_run :
    (renderSupportPrompt question groundTruth retrieved).toList =
      run (fillSteps PromptSlot.name (supportFills question groundTruth retrieved) ++ undouble)
        supportPromptTemplate.toList := by
  simp only [renderSupportPrompt, toList_replace]
  generalize supportPromptTemplate.toList = template
  simp only [toList_question, toList_groundTruth, toList_retrieved, toList_opened, toList_closed,
    toList_opens, toList_closes]
  simp only [supportFills, fillSteps, undouble, List.map_cons, List.map_nil, List.cons_append,
    List.nil_append, PromptSlot.name]
  rw [run_cons, run_cons, run_cons, run_cons, run_cons, run_nil]

theorem renderSupportPrompt_eq :
    (renderSupportPrompt question groundTruth retrieved).toList =
      supportPieces.flatMap (Piece.render PromptSlot.name
        (supportFills question groundTruth retrieved)) := by
  rw [renderSupportPrompt_run, supportPieces_spell]
  exact run_pieces slots_apart (spares_steps _) support_seams support_literal

theorem support_question :
    settle PromptSlot.name (supportFills question groundTruth retrieved) .question =
      run (fillSteps PromptSlot.name [(.groundTruth, groundTruth),
        (.retrieved, numbered retrieved)] ++ undouble) question.toList := by
  simp only [supportFills, settle, if_true]

theorem support_groundTruth :
    settle PromptSlot.name (supportFills question groundTruth retrieved) .groundTruth =
      run (fillSteps PromptSlot.name [(.retrieved, numbered retrieved)] ++ undouble)
        groundTruth.toList := by
  simp only [supportFills, settle, reduceCtorEq, if_false, if_true]

theorem support_retrieved :
    settle PromptSlot.name (supportFills question groundTruth retrieved) .retrieved =
      run (fillSteps PromptSlot.name [] ++ undouble) (numbered retrieved).toList := by
  simp only [supportFills, settle, reduceCtorEq, if_false, if_true]

def memoryLabel (i : Nat) : List Char :=
  (if i = 0 then [] else ['\n']) ++ ('[' :: Nat.toDigits 10 (i + 1) ++ [']', ' '])

theorem numbered_spelled :
    (numbered retrieved).toList =
      Occurrence.spelled (retrieved.mapIdx fun i m => (memoryLabel i, m.toList)) := by
  rw [numbered, String.toList_intercalate, Occurrence.map_mapIdx]
  simpa [memoryLabel] using Occurrence.intercalate_mapIdx ['\n']
    (fun i => '[' :: Nat.toDigits 10 (i + 1) ++ [']', ' ']) String.toList retrieved

theorem not_mem_memoryLabel {c : Char} (brace : c = '{' ∨ c = '}') (i : Nat) :
    c ∉ memoryLabel i := by
  have digits : c ∉ Nat.toDigits 10 (i + 1) := by
    intro member
    have digit := Decimal.allDigits_toDigits _ c member
    rcases brace with rfl | rfl <;> simp at digit
  unfold memoryLabel
  rcases brace with rfl | rfl <;> split <;> simp [digits]

-- The labels hold no brace, so a doubled one is a memory's.
theorem doubled_numbered_iff {c : Char} (brace : c = '{' ∨ c = '}') :
    [c, c] <:+: (numbered retrieved).toList ↔ ∃ m ∈ retrieved, [c, c] <:+: m.toList := by
  have labelled : ∀ p ∈ retrieved.mapIdx fun i m => (memoryLabel i, m.toList), p.1 ≠ [] := by
    intro p member
    obtain ⟨i, _, rfl⟩ := List.mem_mapIdx.mp member
    simp [memoryLabel]
  have clear : ¬ Occurrence.TouchesLabel [c, c]
      (retrieved.mapIdx fun i m => (memoryLabel i, m.toList)) := by
    rintro ⟨found, inside, spelled, ⟨x, label⟩, member, rfl⟩
    obtain rfl : x = c := by
      have listed := List.mem_map_of_mem (f := Prod.fst) member
      rw [spelled] at listed
      simpa using listed
    have marked := inside.subset member
    rw [Occurrence.marked, List.mem_flatMap] at marked
    obtain ⟨p, part, marked⟩ := marked
    obtain ⟨i, _, rfl⟩ := List.mem_mapIdx.mp part
    simp [not_mem_memoryLabel brace i] at marked
  rw [numbered_spelled, Occurrence.infix_spelled_iff labelled (by simp), or_iff_left clear]
  constructor
  · rintro ⟨p, part, inside⟩
    obtain ⟨i, within, rfl⟩ := List.mem_mapIdx.mp part
    exact ⟨_, List.getElem_mem within, inside⟩
  · rintro ⟨m, member, inside⟩
    obtain ⟨i, within, rfl⟩ := List.mem_iff_getElem.mp member
    exact ⟨_, List.mem_mapIdx.mpr ⟨i, within, rfl⟩, inside⟩

theorem undoubled_iff {text : String} :
    Undoubled text ↔ ¬ ['{', '{'] <:+: text.toList ∧ ¬ ['}', '}'] <:+: text.toList := by
  simp [Undoubled, undouble]

theorem undoubled_numbered_iff :
    Undoubled (numbered retrieved) ↔ ∀ m ∈ retrieved, Undoubled m := by
  simp only [undoubled_iff, doubled_numbered_iff retrieved (Or.inl rfl),
    doubled_numbered_iff retrieved (Or.inr rfl), not_exists, not_and]
  exact forall₂_and.symm

theorem renderSupportPrompt_eq_iff :
    renderSupportPrompt question groundTruth retrieved =
        filledSupportPrompt question groundTruth retrieved ↔
      SupportKept question groundTruth retrieved := by
  rw [← String.toList_inj, renderSupportPrompt_eq, filledSupportPrompt, String.toList_ofList]
  simp only [supportPieces, List.flatMap_cons, List.flatMap_nil, Piece.render, Piece.fill,
    support_question, support_groundTruth, support_retrieved, supportArgs, toList_newline,
    List.singleton_append]
  refine (three_slots (settled_gains _ _) (settled_gains _ _) (settled_gains _ _)).trans ?_
  constructor
  · rintro ⟨asked, gold, shown⟩
    exact ⟨asked, gold, (undoubled_numbered_iff _).mp ((run_undouble_eq_self_iff _).mp shown)⟩
  · rintro ⟨asked, gold, shown⟩
    exact ⟨asked, gold, (run_undouble_eq_self_iff _).mpr ((undoubled_numbered_iff _).mpr shown)⟩

end Support

-- A prompt is its template with every slot filled at once exactly when each argument comes through
-- the replacements after its own: no doubled brace, and no later slot's name that the filling would
-- change.
theorem prompts_filled_iff (qtype : QuestionType) (question groundTruth systemAnswer : String)
    (retrieved : List String) :
    (renderVerdictPrompt qtype question groundTruth systemAnswer =
        filledVerdictPrompt qtype question groundTruth systemAnswer ↔
      VerdictKept question groundTruth systemAnswer) ∧
    (renderSupportPrompt question groundTruth retrieved =
        filledSupportPrompt question groundTruth retrieved ↔
      SupportKept question groundTruth retrieved) :=
  ⟨renderVerdictPrompt_eq_iff qtype question groundTruth systemAnswer,
    renderSupportPrompt_eq_iff question groundTruth retrieved⟩

-- The slot's name in the question is filled in as well.
theorem question_naming_a_slot_rewritten :
    renderVerdictPrompt .singleHop "What is the slot \x7bsystem_answer\x7d for?" "the answer"
        "Paris" ≠
      filledVerdictPrompt .singleHop "What is the slot \x7bsystem_answer\x7d for?" "the answer"
        "Paris" := by
  rw [Ne, renderVerdictPrompt_eq_iff]
  intro kept
  exact absurd kept.question (by decide +kernel)

end BrainEval
