import Mathlib
import BrainEval.Core.Instance
import BrainEval.Lib.Replace
import BrainEval.Lib.Str

set_option autoImplicit false

namespace BrainEval

open RustStr

def verdictPromptTemplate : String :=
  "You are a strict grader for a long-term-memory question-answering benchmark. Decide whether the SYSTEM ANSWER is correct given the REFERENCE ANSWER, judging meaning rather than surface wording.

Question: \x7bquestion\x7d
Reference answer: \x7bground_truth\x7d
System answer: \x7bsystem_answer\x7d
Question category: \x7bcategory\x7d

\x7btype_guidance\x7dGeneral rules:
- Judge meaning, not form: ignore paraphrase, formatting, and equivalent date-number expressions (e.g. \"two weeks\" vs \"14 days\").
- Do not reward verbosity: extra correct context is fine, but any claim that CONTRADICTS the reference makes the answer incorrect.
- When the reference enumerates several items, the answer is correct only if EVERY item is present (order-independent); extra non-contradicting items are tolerated.
- An empty, evasive, or \"I don't know\" answer is incorrect UNLESS the category rule says otherwise.

Reason first, then decide. Respond with ONLY a JSON object — no prose, no code fence — with \"reasoning\" BEFORE \"correct\":
\x7b\x7b\"reasoning\": \"<1-2 sentences>\", \"correct\": true\x7d\x7d"

def supportPromptTemplate : String :=
  "You are auditing the RETRIEVAL stage of a memory question-answering system. You are given a question, its gold answer, and the memories the system retrieved. Decide whether the gold answer can be derived ENTIRELY from the retrieved memories — i.e. the memories contain enough information to support the gold answer on their own, without outside knowledge.

Question: \x7bquestion\x7d
Gold answer: \x7bground_truth\x7d
Retrieved memories:
\x7bretrieved\x7d

Answer \"yes\" only if a reader could produce the gold answer using ONLY the retrieved memories. Answer \"no\" if the memories are missing the key fact, contradict it, or are empty. Paraphrase is fine — the fact need not be stated verbatim, but it must be present.

Respond with ONLY a JSON object, no prose:
\x7b\x7b\"supported\": true | false, \"reasoning\": \"<one short sentence>\"\x7d\x7d"

def verdictTypeGuidance : QuestionType → String
  | .singleHop | .other =>
    "Category rule (single-hop): mark correct when the system answer states the gold fact; a paraphrase or additional correct context is fine. Missing or contradicting the gold fact is incorrect.\n\n"
  | .multiHop =>
    "Category rule (multi-hop): the answer must combine facts across memories. Mark correct when it states the final synthesized fact, or all the intermediate facts that entail it. If the reference lists several items, EVERY gold item must be present (order-independent); missing any one is incorrect.\n\n"
  | .temporal =>
    "Category rule (temporal): apply the general rules, but do NOT penalize an off-by-one on a day / week / month COUNT (e.g. 19 vs 18 days is correct). The referenced date or event itself must still match — a wrong date or wrong event is incorrect.\n\n"
  | .knowledgeUpdate =>
    "Category rule (knowledge-update): the reference is the MOST RECENT value after an update. Mark correct only if the system states the current value (it may also mention older superseded values); stating only an outdated value is incorrect.\n\n"
  | .preference =>
    "Category rule (preference): mark correct when the system captures the user's stated preference (the liked / disliked / favorite thing); reasonable phrasing variants are fine.\n\n"
  | .abstention | .adversarial =>
    "Category rule (unanswerable): the reference indicates the information is unavailable. Mark correct ONLY if the system declined or said it does not know; a confident, concrete answer is incorrect.\n\n"

def renderVerdictPrompt (qtype : QuestionType) (question groundTruth systemAnswer : String) :
    String :=
  let s := replace verdictPromptTemplate "\x7btype_guidance\x7d" (verdictTypeGuidance qtype)
  let s := replace s "\x7bcategory\x7d" qtype.tag
  let s := replace s "\x7bquestion\x7d" question
  let s := replace s "\x7bground_truth\x7d" groundTruth
  let s := replace s "\x7bsystem_answer\x7d" systemAnswer
  -- the template's JSON example is in doubled braces
  let s := replace s "\x7b\x7b" "\x7b"
  replace s "\x7d\x7d" "\x7d"

def numbered (retrieved : List String) : String :=
  "\n".intercalate (retrieved.mapIdx fun i m => "[" ++ toString (i + 1) ++ "] " ++ m)

def renderSupportPrompt (question groundTruth : String) (retrieved : List String) : String :=
  let s := replace supportPromptTemplate "\x7bquestion\x7d" question
  let s := replace s "\x7bground_truth\x7d" groundTruth
  let s := replace s "\x7bretrieved\x7d" (numbered retrieved)
  let s := replace s "\x7b\x7b" "\x7b"
  replace s "\x7d\x7d" "\x7d"

end BrainEval
