import Mathlib
import BrainEval.Lib.Replace
import BrainEval.Datasets.Pin

set_option autoImplicit false

namespace BrainEval.Pin

open ParitySum Replace

def turnChars (turn : String × String) : List Char :=
  turn.1.toList ++ '\x1e' :: (turn.2.toList ++ ['\x1e'])

def Content.chars (c : Content) : List Char :=
  c.questionId.toList ++ '\x1f' :: (c.question.toList ++ '\x1f' :: (c.answer.toList ++
    '\x1f' :: c.turns.flatMap turnChars))

theorem utf8_append (s t : String) : utf8 (s ++ t) = utf8 s ++ utf8 t := by
  simp [utf8, String.toByteArray_append]

theorem utf8_ofList_append (cs ds : List Char) :
    utf8 (String.ofList (cs ++ ds)) = utf8 (String.ofList cs) ++ utf8 (String.ofList ds) := by
  rw [String.ofList_append, utf8_append]

theorem utf8_ofList_toList (s : String) : utf8 (String.ofList s.toList) = utf8 s := by
  rw [String.ofList_toList]

theorem utf8_inj {s t : String} : utf8 s = utf8 t ↔ s = t := by
  constructor
  · intro same
    have arrays : s.toUTF8 = t.toUTF8 := ByteArray.ext (Array.toList_inj.mp same)
    exact String.toByteArray_inj.mp arrays
  · exact fun same => congrArg utf8 same

theorem utf8_unit : utf8 (String.ofList ['\x1f']) = [0x1f] := rfl

theorem utf8_record : utf8 (String.ofList ['\x1e']) = [0x1e] := rfl

theorem utf8_turns (turns : List (String × String)) :
    utf8 (String.ofList (turns.flatMap turnChars)) =
      turns.flatMap fun turn => utf8 turn.1 ++ [0x1e] ++ utf8 turn.2 ++ [0x1e] := by
  induction turns with
  | nil => rfl
  | cons turn turns ih =>
    have here : turnChars turn = turn.1.toList ++ (['\x1e'] ++ (turn.2.toList ++ ['\x1e'])) := rfl
    rw [List.flatMap_cons, List.flatMap_cons, utf8_ofList_append, ih, here]
    simp only [utf8_ofList_append, utf8_ofList_toList, utf8_record, List.append_assoc]

theorem canonical_eq (inst : EvalInstance) :
    canonical inst = utf8 (String.ofList (content inst).chars) := by
  have turns : (inst.sessions.flatMap fun session =>
      session.turns.flatMap fun turn => utf8 turn.role ++ [0x1e] ++ utf8 turn.content ++ [0x1e]) =
      (content inst).turns.flatMap fun turn => utf8 turn.1 ++ [0x1e] ++ utf8 turn.2 ++ [0x1e] := by
    rw [content, List.flatMap_assoc]
    simp only [List.flatMap_map]
  have text : (content inst).chars = inst.questionId.toList ++ (['\x1f'] ++
      (inst.question.toList ++ (['\x1f'] ++ (inst.answer.toList ++ (['\x1f'] ++
        (content inst).turns.flatMap turnChars))))) := rfl
  rw [canonical, turns, text]
  simp only [utf8_ofList_append, utf8_ofList_toList, utf8_unit, utf8_turns, List.append_assoc]

theorem canonical_eq_iff {i j : EvalInstance} :
    canonical i = canonical j ↔ (content i).chars = (content j).chars := by
  rw [canonical_eq, canonical_eq, utf8_inj, String.ofList_inj]

/-- No field holds the separator it is ended by. -/
structure Content.Separated (c : Content) : Prop where
  questionId : '\x1f' ∉ c.questionId.toList
  question : '\x1f' ∉ c.question.toList
  answer : '\x1f' ∉ c.answer.toList
  turns : ∀ turn ∈ c.turns, '\x1e' ∉ turn.1.toList ∧ '\x1e' ∉ turn.2.toList

theorem turns_injective {turns turns' : List (String × String)}
    (clean : ∀ turn ∈ turns, '\x1e' ∉ turn.1.toList ∧ '\x1e' ∉ turn.2.toList)
    (clean' : ∀ turn ∈ turns', '\x1e' ∉ turn.1.toList ∧ '\x1e' ∉ turn.2.toList)
    (same : turns.flatMap turnChars = turns'.flatMap turnChars) : turns = turns' := by
  induction turns generalizing turns' with
  | nil =>
    cases turns' with
    | nil => rfl
    | cons turn' turns' => simp [turnChars] at same
  | cons turn turns ih =>
    cases turns' with
    | nil => simp [turnChars] at same
    | cons turn' turns' =>
      obtain ⟨⟨role, text⟩, clean⟩ := List.forall_mem_cons.mp clean
      obtain ⟨⟨role', text'⟩, clean'⟩ := List.forall_mem_cons.mp clean'
      simp only [List.flatMap_cons, turnChars, List.append_assoc, List.cons_append,
        List.nil_append] at same
      obtain ⟨roles, same⟩ := append_cons_inj_of_not_mem role role' same
      obtain ⟨texts, same⟩ := append_cons_inj_of_not_mem text text' same
      rw [ih clean clean' same, Prod.ext (String.toList_inj.mp roles) (String.toList_inj.mp texts)]

-- Of the last three separators one in the answer is told from the one behind it where the turns
-- hold none.
theorem chars_injective {c d : Content}
    (ids : '\x1f' ∉ c.questionId.toList ∧ '\x1f' ∉ d.questionId.toList)
    (questions : '\x1f' ∉ c.question.toList ∧ '\x1f' ∉ d.question.toList)
    (clean : ∀ turn ∈ c.turns, '\x1e' ∉ turn.1.toList ∧ '\x1e' ∉ turn.2.toList)
    (clean' : ∀ turn ∈ d.turns, '\x1e' ∉ turn.1.toList ∧ '\x1e' ∉ turn.2.toList)
    (last : '\x1f' ∉ c.answer.toList ∧ '\x1f' ∉ d.answer.toList ∨
      '\x1f' ∉ c.turns.flatMap turnChars ∧ '\x1f' ∉ d.turns.flatMap turnChars)
    (same : c.chars = d.chars) : c = d := by
  obtain ⟨sameId, same⟩ := append_cons_inj_of_not_mem ids.1 ids.2 same
  obtain ⟨sameQuestion, same⟩ := append_cons_inj_of_not_mem questions.1 questions.2 same
  have rest : c.answer.toList = d.answer.toList ∧
      c.turns.flatMap turnChars = d.turns.flatMap turnChars := by
    rcases last with ⟨left, right⟩ | ⟨left, right⟩
    · exact append_cons_inj_of_not_mem left right same
    · exact append_cons_inj_of_not_mem_right left right same
  have turns := turns_injective clean clean' rest.2
  cases c
  cases d
  simp only [Content.mk.injEq]
  exact ⟨String.toList_inj.mp sameId, String.toList_inj.mp sameQuestion,
    String.toList_inj.mp rest.1, turns⟩

theorem content_of_canonical {i j : EvalInstance} (clean : (content i).Separated)
    (clean' : (content j).Separated) (same : canonical i = canonical j) : content i = content j :=
  chars_injective ⟨clean.questionId, clean'.questionId⟩ ⟨clean.question, clean'.question⟩
    clean.turns clean'.turns (.inl ⟨clean.answer, clean'.answer⟩) (canonical_eq_iff.mp same)

-- The id and the question are written in one alphabet, the answer, the last field before the turns,
-- in a second, the turns in a third.
structure WrittenOver (header answer turn : Set Char) (inst : EvalInstance) : Prop where
  questionId : ∀ c ∈ inst.questionId.toList, c ∈ header
  question : ∀ c ∈ inst.question.toList, c ∈ header
  answer : ∀ c ∈ inst.answer.toList, c ∈ answer
  turns : ∀ t ∈ (content inst).turns, (∀ c ∈ t.1.toList, c ∈ turn) ∧ ∀ c ∈ t.2.toList, c ∈ turn

theorem WrittenOver.turnChars {header answer turn : Set Char} {inst : EvalInstance}
    (written : WrittenOver header answer turn inst) (unit : '\x1f' ∉ turn) :
    '\x1f' ∉ (content inst).turns.flatMap Pin.turnChars := by
  intro inside
  obtain ⟨t, member, listed⟩ := List.mem_flatMap.mp inside
  obtain ⟨role, text⟩ := written.turns t member
  simp only [Pin.turnChars, List.mem_append, List.mem_cons, List.not_mem_nil, or_false] at listed
  rcases listed with inRole | record | inText | record
  · exact unit (role _ inRole)
  · exact absurd record (by decide)
  · exact unit (text _ inText)
  · exact absurd record (by decide)

def bare (questionId question : String) (turns : List TurnRecord) : EvalInstance where
  questionId := questionId
  question := question
  answer := ""
  questionType := .singleHop
  conversationId := none
  sessions := [⟨"session_1", turns⟩]

def answered (answer : String) (turns : List TurnRecord) : EvalInstance :=
  { bare "" "" turns with answer := answer }

theorem canonical_injective_iff (header answer turn : Set Char) :
    (∀ i j : EvalInstance, WrittenOver header answer turn i → WrittenOver header answer turn j →
        canonical i = canonical j → content i = content j) ↔
      '\x1f' ∉ header ∧ '\x1e' ∉ turn ∧ ('\x1f' ∉ answer ∨ '\x1f' ∉ turn) := by
  constructor
  · intro injective
    refine ⟨?_, ?_, ?_⟩
    · intro unit
      have moved : content (bare "\x1f" "" []) = content (bare "" "\x1f" []) := by
        apply injective
        · constructor <;> simp [bare, content, unit]
        · constructor <;> simp [bare, content, unit]
        · rfl
      simp [bare, content] at moved
    · intro record
      have moved : content (bare "" "" [⟨"\x1e", "", none⟩]) =
          content (bare "" "" [⟨"", "\x1e", none⟩]) := by
        apply injective
        · constructor <;> simp [bare, content, record]
        · constructor <;> simp [bare, content, record]
        · rfl
      simp [bare, content] at moved
    · by_contra both
      obtain ⟨inAnswer, inTurn⟩ : '\x1f' ∈ answer ∧ '\x1f' ∈ turn := by
        simpa only [not_or, not_not] using both
      have moved : content (answered "\x1f" [⟨"", "", none⟩]) =
          content (answered "" [⟨"\x1f", "", none⟩]) := by
        apply injective
        · constructor <;> simp [answered, bare, content, inAnswer]
        · constructor <;> simp [answered, bare, content, inTurn]
        · rfl
      simp [answered, bare, content] at moved
  · rintro ⟨unit, record, last⟩ i j written written' same
    have ids {inst : EvalInstance} (written : WrittenOver header answer turn inst) :
        '\x1f' ∉ (content inst).questionId.toList := fun inside =>
      unit (written.questionId _ inside)
    have questions {inst : EvalInstance} (written : WrittenOver header answer turn inst) :
        '\x1f' ∉ (content inst).question.toList := fun inside => unit (written.question _ inside)
    have turns {inst : EvalInstance} (written : WrittenOver header answer turn inst) :
        ∀ t ∈ (content inst).turns, '\x1e' ∉ t.1.toList ∧ '\x1e' ∉ t.2.toList :=
      fun t member => ⟨fun inside => record ((written.turns t member).1 _ inside),
        fun inside => record ((written.turns t member).2 _ inside)⟩
    refine chars_injective ⟨ids written, ids written'⟩ ⟨questions written, questions written'⟩
      (turns written) (turns written') ?_ (canonical_eq_iff.mp same)
    rcases last with foreign | foreign
    · exact .inl ⟨fun inside => foreign (written.answer _ inside),
        fun inside => foreign (written'.answer _ inside)⟩
    · exact .inr ⟨written.turnChars foreign, written'.turnChars foreign⟩

theorem separator_moves_between_fields :
    canonical (bare "a\x1fb" "c" []) = canonical (bare "a" "b\x1fc" []) ∧
      content (bare "a\x1fb" "c" []) ≠ content (bare "a" "b\x1fc" []) :=
  ⟨rfl, by decide⟩

def Digest.ofNat (n : Nat) : Digest := ⟨Vector.ofFn fun i => UInt8.ofNat (n / 256 ^ (31 - i.val))⟩

def paris : EvalInstance := bare "q1" "where?" [⟨"user", "I live in Paris", none⟩]

def ada (question : String) : EvalInstance := bare "q2" question [⟨"user", "Ada is my friend", none⟩]

-- SHA-256 of the messages that pins of these instances hash.
def sampleSha256 (bytes : List UInt8) : Digest :=
  let parisHash := Digest.ofNat 0xa04dabfd5106a7bbe210c8a691f46aabbc65749ebf5dc07a853588cf27a42acb
  let whoHash := Digest.ofNat 0xab8a5134e077516cad58c8a6a5399fe44b853248ffbfbe16df8acc185bf51c65
  let whomHash := Digest.ofNat 0xe27d681495ce85e8f155fbb1f19de96a7a4b94c16fc0533a4fec4c59dfc1b767
  if bytes = canonical paris then parisHash
  else if bytes = canonical (ada "who?") then whoHash
  else if bytes = canonical (ada "whom?") then whomHash
  else if bytes = (parisHash + whoHash).bytes.toList ++ toLeBytes 2 then
    Digest.ofNat 0x9f8e66190c055450313dd78d38818cb705ad6f8003c1551d2d1f80ec19875185
  else if bytes = (parisHash + whomHash).bytes.toList ++ toLeBytes 2 then
    Digest.ofNat 0x60ebd6b338de848dfa6c2f03f03aeb7a7c72cfc8d97cab6609cd21c25a615c06
  else if bytes = (0 : Digest).bytes.toList ++ toLeBytes 2 then
    Digest.ofNat 0x1de986ac168dcfb8a52b6320497a49a9cb6e9e9728ab59cfbb4b0d44da18fc04
  else 0

section Fold

variable (sha256 : List UInt8 → Digest) (name : String)

def digestOf (c : Content) : Digest := sha256 (utf8 (String.ofList c.chars))

theorem instanceDigest_eq (inst : EvalInstance) :
    instanceDigest sha256 inst = digestOf sha256 (content inst) := by
  rw [instanceDigest, canonical_eq, digestOf]

theorem foldl_xor (instances : List EvalInstance) (start : Digest) :
    instances.foldl (fun fold inst => fold.xor (instanceDigest sha256 inst)) start =
      start + (instances.map (instanceDigest sha256)).sum := by
  induction instances generalizing start with
  | nil => simp
  | cons inst instances ih =>
    rw [List.foldl_cons, ih, List.map_cons, List.sum_cons, ← add_assoc]
    rfl

theorem map_digestOf (instances : List EvalInstance) :
    (instances.map content).map (digestOf sha256) = instances.map (instanceDigest sha256) := by
  rw [List.map_map]
  exact List.map_congr_left fun inst _ => (instanceDigest_eq sha256 inst).symm

theorem fold_eq_sum (instances : List EvalInstance) :
    fold sha256 instances = ((instances.map content).map (digestOf sha256)).sum := by
  rw [fold, foldl_xor, zero_add, map_digestOf]

theorem message_inj {A B : List EvalInstance} (same : message sha256 A = message sha256 B) :
    fold sha256 A = fold sha256 B := by
  have sized : (fold sha256 A).bytes.toList.length = (fold sha256 B).bytes.toList.length := by simp
  exact Digest.ext (Vector.toList_inj.mp (List.append_inj same sized).1)

theorem message_eq_of_fold {A B : List EvalInstance} (folds : fold sha256 A = fold sha256 B)
    (lengths : A.length = B.length) : message sha256 A = message sha256 B := by
  rw [message, message, folds, lengths]

theorem pin_eq_of_perm {A B : List EvalInstance} (perm : (A.map content).Perm (B.map content)) :
    pinInstances sha256 name A = pinInstances sha256 name B := by
  have lengths : A.length = B.length := by simpa using perm.length_eq
  have folds : fold sha256 A = fold sha256 B := by
    rw [fold_eq_sum, fold_eq_sum]
    exact (perm.map _).sum_eq
  rw [pinInstances, pinInstances, message_eq_of_fold sha256 folds lengths, lengths]

theorem verifyPin_ok_iff {A B : List EvalInstance} :
    verifyPin sha256 (pinInstances sha256 name A) B = .ok () ↔
      A.length = B.length ∧ sha256 (message sha256 A) = sha256 (message sha256 B) := by
  have hashes : (pinInstances sha256 name B).contentSha256 =
      (pinInstances sha256 name A).contentSha256 ↔
        sha256 (message sha256 A) = sha256 (message sha256 B) :=
    ⟨fun same => (Digest.hex_injective same).symm, fun same => congrArg Digest.hex same.symm⟩
  unfold verifyPin
  by_cases lengths : A.length = B.length
  next =>
    have counted : ¬ (pinInstances sha256 name A).instances ≠ B.length := not_not_intro lengths
    rw [if_neg counted]
    by_cases same : sha256 (message sha256 A) = sha256 (message sha256 B)
    next =>
      have kept := hashes.mpr same
      simp only [pinInstances] at kept ⊢
      simp [kept, lengths, same]
    next =>
      have moved := hashes.not.mpr same
      simp only [pinInstances] at moved ⊢
      simp [moved, same]
  next =>
    have counted : (pinInstances sha256 name A).instances ≠ B.length := lengths
    rw [if_pos counted]
    simp [lengths]

theorem verifyPin_hash {A B : List EvalInstance} (lengths : A.length = B.length)
    (moved : sha256 (message sha256 A) ≠ sha256 (message sha256 B)) :
    verifyPin sha256 (pinInstances sha256 name A) B =
      .error (.hash (pinInstances sha256 name A).contentSha256
        (pinInstances sha256 name B).contentSha256) := by
  have counted : ¬ (pinInstances sha256 name A).instances ≠ B.length := not_not_intro lengths
  have differs : (pinInstances sha256 name B).contentSha256 ≠
      (pinInstances sha256 name A).contentSha256 :=
    fun same => moved (Digest.hex_injective same).symm
  rw [verifyPin, if_neg counted]
  exact if_pos differs

-- Everything else in the fold cancels.
theorem fold_edit {before after : List EvalInstance} {x y : EvalInstance}
    (same : fold sha256 (before ++ x :: after) = fold sha256 (before ++ y :: after)) :
    instanceDigest sha256 x = instanceDigest sha256 y := by
  rw [fold_eq_sum, fold_eq_sum] at same
  simp only [List.map_append, List.map_cons, List.sum_append, List.sum_cons,
    ← instanceDigest_eq] at same
  exact add_right_cancel (add_left_cancel same)

theorem pin_invariant_and_sensitive :
    (∀ A B : List EvalInstance, (A.map content).Perm (B.map content) →
      pinInstances sha256 name A = pinInstances sha256 name B) ∧
    ∀ (before after : List EvalInstance) (x y : EvalInstance),
      instanceDigest sha256 x ≠ instanceDigest sha256 y →
      Set.InjOn sha256
        {message sha256 (before ++ x :: after), message sha256 (before ++ y :: after)} →
      pinInstances sha256 name (before ++ x :: after) ≠
          pinInstances sha256 name (before ++ y :: after) ∧
        verifyPin sha256 (pinInstances sha256 name (before ++ x :: after))
            (before ++ y :: after) =
          .error (.hash (pinInstances sha256 name (before ++ x :: after)).contentSha256
            (pinInstances sha256 name (before ++ y :: after)).contentSha256) := by
  constructor
  · exact fun A B perm => pin_eq_of_perm sha256 name perm
  · intro before after x y edited injective
    have moved : sha256 (message sha256 (before ++ x :: after)) ≠
        sha256 (message sha256 (before ++ y :: after)) := by
      intro same
      have messages := injective (by simp) (by simp) same
      exact edited (fold_edit sha256 (message_inj sha256 messages))
    constructor
    · intro same
      exact moved (Digest.hex_injective (congrArg DatasetPin.contentSha256 same))
    · exact verifyPin_hash sha256 name (by simp) moved

end Fold

set_option maxRecDepth 20000 in
theorem pin_of_edited_question :
    pinInstances sampleSha256 "t" [paris, ada "who?"] =
        pinInstances sampleSha256 "t" [ada "who?", paris] ∧
      pinInstances sampleSha256 "t" [paris, ada "who?"] ≠
        pinInstances sampleSha256 "t" [paris, ada "whom?"] ∧
      verifyPin sampleSha256 (pinInstances sampleSha256 "t" [paris, ada "who?"])
          [paris, ada "whom?"] =
        .error (.hash (pinInstances sampleSha256 "t" [paris, ada "who?"]).contentSha256
          (pinInstances sampleSha256 "t" [paris, ada "whom?"]).contentSha256) :=
  ⟨(pin_invariant_and_sensitive sampleSha256 "t").1 _ _ (List.Perm.swap _ _ []),
    (pin_invariant_and_sensitive sampleSha256 "t").2 [paris] [] (ada "who?") (ada "whom?")
      (by decide +kernel)
      (Set.injOn_pair.mpr fun same => absurd same (by decide +kernel))⟩

-- SHA-256 as a pin of one corpus checked on another needs it: no two of the messages hashed
-- collide, and the digests that occur with different parities in the two do not cancel.
structure CollisionFree (sha256 : List UInt8 → Digest) (A B : List EvalInstance) : Prop where
  messages : Set.InjOn sha256
    {m | (∃ inst ∈ A ++ B, m = canonical inst) ∨ m = message sha256 A ∨ m = message sha256 B}
  apart : Apart (A.map (instanceDigest sha256)) (B.map (instanceDigest sha256))

-- Two corpora of two instances and one fold need no more of SHA-256 than three digests.
theorem collisionFree_of_pair {sha256 : List UInt8 → Digest} {A B : List EvalInstance}
    {x y : EvalInstance} (only : ∀ inst ∈ A ++ B, inst = x ∨ inst = y)
    (messages : message sha256 B = message sha256 A)
    (distinct : ([canonical x, canonical y, message sha256 A].map sha256).Nodup)
    (left : instanceDigest sha256 x ≠ 0) (right : instanceDigest sha256 y ≠ 0) :
    CollisionFree sha256 A B := by
  constructor
  · have hashed : ∀ m, (∃ inst ∈ A ++ B, m = canonical inst) ∨ m = message sha256 A ∨
        m = message sha256 B → m ∈ [canonical x, canonical y, message sha256 A] := by
      rintro m (⟨inst, member, rfl⟩ | rfl | rfl)
      · obtain rfl | rfl := only inst member <;> simp
      · simp
      · simp [messages]
    intro m left m' right same
    exact List.inj_on_of_nodup_map distinct (hashed m left) (hashed m' right) same
  · have other : instanceDigest sha256 x ≠ instanceDigest sha256 y := by
      intro same
      have hashes : sha256 (canonical x) = sha256 (canonical y) := same
      simp [hashes] at distinct
    apply Independent.apart
    intro T inside
    apply independent_pair Digest.add_self left right other T
    intro d member
    obtain ⟨inst, held, rfl⟩ : ∃ inst ∈ A ++ B, instanceDigest sha256 inst = d := by
      rw [← List.mem_map, List.map_append, List.mem_append]
      exact inside member
    obtain rfl | rfl := only inst held
    · exact Set.mem_insert _ _
    · exact Set.mem_insert_of_mem _ rfl

theorem paris_separated : (content paris).Separated := by
  constructor <;> decide

theorem ada_separated : (content (ada "who?")).Separated := by
  constructor <;> decide

section Faithful

variable {sha256 : List UInt8 → Digest} {A B : List EvalInstance}

theorem content_of_digest (free : CollisionFree sha256 A B)
    (clean : ∀ inst ∈ A ++ B, (content inst).Separated) {i j : EvalInstance} (left : i ∈ A ++ B)
    (right : j ∈ A ++ B) (same : instanceDigest sha256 i = instanceDigest sha256 j) :
    content i = content j := by
  have bytes := free.messages (Or.inl ⟨i, left, rfl⟩) (Or.inl ⟨j, right, rfl⟩) same
  exact content_of_canonical (clean i left) (clean j right) bytes

theorem digestOf_injOn (free : CollisionFree sha256 A B)
    (clean : ∀ inst ∈ A ++ B, (content inst).Separated) :
    Set.InjOn (digestOf sha256) {c | c ∈ A.map content ∨ c ∈ B.map content} := by
  have listed : ∀ c, c ∈ A.map content ∨ c ∈ B.map content →
      ∃ inst ∈ A ++ B, content inst = c := by
    intro c member
    rw [← List.mem_append, ← List.map_append] at member
    exact List.mem_map.mp member
  intro c left d right same
  obtain ⟨i, member, rfl⟩ := listed c left
  obtain ⟨j, member', rfl⟩ := listed d right
  rw [← instanceDigest_eq, ← instanceDigest_eq] at same
  exact content_of_digest free clean member member' same

theorem hashes_eq_iff (free : CollisionFree sha256 A B) (lengths : A.length = B.length) :
    sha256 (message sha256 A) = sha256 (message sha256 B) ↔ fold sha256 A = fold sha256 B := by
  constructor
  · intro same
    exact message_inj sha256 (free.messages (Or.inr (Or.inl rfl)) (Or.inr (Or.inr rfl)) same)
  · intro folds
    rw [message_eq_of_fold sha256 folds lengths]

theorem verify_pin_ok_iff (sha256 : List UInt8 → Digest) (name : String)
    (A B : List EvalInstance) (free : CollisionFree sha256 A B)
    (clean : ∀ inst ∈ A ++ B, (content inst).Separated) :
    (verifyPin sha256 (pinInstances sha256 name A) B = .ok () ↔
      A.length = B.length ∧
        ∀ c, Odd ((A.map content).count c) ↔ Odd ((B.map content).count c)) ∧
    ((A.map content).Nodup →
      (verifyPin sha256 (pinInstances sha256 name A) B = .ok () ↔
        (A.map content).Perm (B.map content))) ∧
    ∀ (before after : List EvalInstance) (x y : EvalInstance),
      A = before ++ x :: after → B = before ++ y :: after → content x ≠ content y →
        verifyPin sha256 (pinInstances sha256 name A) B =
          .error (.hash (pinInstances sha256 name A).contentSha256
            (pinInstances sha256 name B).contentSha256) := by
  have verified : verifyPin sha256 (pinInstances sha256 name A) B = .ok () ↔
      A.length = B.length ∧
        ∀ c, Odd ((A.map content).count c) ↔ Odd ((B.map content).count c) := by
    have apart := free.apart
    rw [← map_digestOf, ← map_digestOf] at apart
    rw [verifyPin_ok_iff, ← odd_count_map_iff (digestOf_injOn free clean),
      ← sum_eq_iff Digest.add_self apart, ← fold_eq_sum, ← fold_eq_sum]
    exact and_congr_right (hashes_eq_iff free)
  refine ⟨verified, ?_, ?_⟩
  · intro distinct
    rw [verified, perm_iff_odd_counts distinct, List.length_map, List.length_map]
  · rintro before after x y rfl rfl edited
    have lengths : (before ++ x :: after).length = (before ++ y :: after).length := by simp
    apply verifyPin_hash sha256 name lengths
    intro same
    have digests := fold_edit sha256 ((hashes_eq_iff free lengths).mp same)
    exact edited (content_of_digest free clean (by simp) (by simp) digests)

end Faithful

set_option maxRecDepth 20000 in
theorem verify_pin_ok_of_reversed :
    verifyPin sampleSha256 (pinInstances sampleSha256 "t" [paris, ada "who?"])
      [ada "who?", paris] = .ok () := by
  have free : CollisionFree sampleSha256 [paris, ada "who?"] [ada "who?", paris] :=
    collisionFree_of_pair (x := paris) (y := ada "who?") (by simp) (by decide +kernel)
      (by decide +kernel) (by decide +kernel) (by decide +kernel)
  have clean : ∀ inst ∈ [paris, ada "who?"] ++ [ada "who?", paris], (content inst).Separated := by
    simp [paris_separated, ada_separated]
  exact ((verify_pin_ok_iff sampleSha256 "t" _ _ free clean).2.1 (by decide)).mpr
    (List.Perm.swap _ _ [])

-- Every instance of the corpus edited the same way: the pairs cancel before and after.
theorem doubled_instances_cancel :
    CollisionFree sampleSha256 [paris, paris] [ada "who?", ada "who?"] ∧
      (∀ inst ∈ [paris, paris] ++ [ada "who?", ada "who?"], (content inst).Separated) ∧
      verifyPin sampleSha256 (pinInstances sampleSha256 "t" [paris, paris])
        [ada "who?", ada "who?"] = .ok () ∧
      ¬ (([paris, paris].map content).Perm ([ada "who?", ada "who?"].map content)) := by
  have free : CollisionFree sampleSha256 [paris, paris] [ada "who?", ada "who?"] :=
    collisionFree_of_pair (x := paris) (y := ada "who?") (by simp) (by decide +kernel)
      (by decide +kernel) (by decide +kernel) (by decide +kernel)
  refine ⟨free, by simp [paris_separated, ada_separated], by decide +kernel, by decide⟩

end BrainEval.Pin
