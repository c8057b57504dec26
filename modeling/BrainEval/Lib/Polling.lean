import Mathlib

set_option autoImplicit false

namespace Polling

section Streak

variable {α : Type} {p : α → Bool}

-- How many items at the end of the list pass the test without a break.
def streak (p : α → Bool) (items : List α) : ℕ := (items.rtakeWhile p).length

@[simp] theorem streak_nil : streak p [] = 0 := by simp [streak]

@[simp] theorem streak_concat (items : List α) (item : α) :
    streak p (items ++ [item]) = if p item then streak p items + 1 else 0 := by
  by_cases passes : p item = true
  · simp [streak, passes]
  · simp [streak, passes]

theorem le_streak_iff {items : List α} {n : ℕ} :
    n ≤ streak p items ↔ n ≤ items.length ∧ ∀ item ∈ items.rtake n, p item = true := by
  induction items using List.reverseRecOn generalizing n with
  | nil => simp [List.rtake]
  | append_singleton items item ih =>
    cases n with
    | zero => simp [List.rtake]
    | succ n =>
      rw [List.rtake_concat_succ, streak_concat]
      by_cases passes : p item = true
      · simp only [passes, if_true, Nat.add_le_add_iff_right, ih, List.length_append,
          List.length_singleton, List.mem_append, List.mem_singleton]
        constructor
        · rintro ⟨long, all⟩
          refine ⟨long, ?_⟩
          rintro other (earlier | rfl)
          · exact all other earlier
          · exact passes
        · rintro ⟨long, all⟩
          exact ⟨long, fun other earlier => all other (.inl earlier)⟩
      · simp only [passes, Bool.false_eq_true, if_false]
        constructor
        · intro empty
          omega
        · rintro ⟨-, all⟩
          exact absurd (all item (by simp)) passes

theorem rtake_map {β : Type} (f : α → β) (items : List α) (n : ℕ) :
    (items.map f).rtake n = (items.rtake n).map f := by
  simp [List.rtake, List.map_drop]

end Streak

section EarlyReturn

variable {σ α β : Type} (step : σ → α → Except β σ)

/-- The loop, run on the inputs in turn, returns at the input of this index. -/
def ReturnsAt (start : σ) (inputs : List α) (t : ℕ) (value : β) : Prop :=
  ∃ s a, (inputs.take t).foldlM step start = .ok s ∧ inputs[t]? = some a ∧ step s a = .error value

theorem foldlM_error_iff {start : σ} {inputs : List α} {value : β} :
    inputs.foldlM step start = .error value ↔ ∃ t, ReturnsAt step start inputs t value := by
  induction inputs generalizing start with
  | nil => simp [ReturnsAt, pure, Except.pure]
  | cons a inputs ih =>
    rw [List.foldlM_cons]
    cases next : step start a with
    | error other =>
      constructor
      · intro same
        exact ⟨0, start, a, rfl, rfl, next.trans same⟩
      · rintro ⟨t | t, s, b, reached, here, returned⟩
        · cases reached
          cases here
          exact next.symm.trans returned
        · rw [List.take_succ_cons, List.foldlM_cons, next] at reached
          cases reached
    | ok s' =>
      refine Iff.trans ih ⟨?_, ?_⟩
      · rintro ⟨t, s, b, reached, here, returned⟩
        refine ⟨t + 1, s, b, ?_, here, returned⟩
        rw [List.take_succ_cons, List.foldlM_cons, next]
        exact reached
      · rintro ⟨t | t, s, b, reached, here, returned⟩
        · cases reached
          cases here
          cases next.symm.trans returned
        · rw [List.take_succ_cons, List.foldlM_cons, next] at reached
          exact ⟨t, s, b, reached, here, returned⟩

theorem foldlM_concat_ok {start s : σ} {inputs : List α} {a : α}
    (reached : inputs.foldlM step start = .ok s) :
    (inputs ++ [a]).foldlM step start = step s a := by
  rw [List.foldlM_append, reached]
  change step s a >>= pure = step s a
  cases step s a <;> rfl

theorem foldlM_concat_error {start : σ} {inputs : List α} {a : α} {value : β}
    (returned : inputs.foldlM step start = .error value) :
    (inputs ++ [a]).foldlM step start = .error value := by
  rw [List.foldlM_append, returned]
  rfl

theorem foldlM_ok_inv (Inv : List α → σ → Prop) {start s : σ} {inputs : List α}
    (init : Inv [] start)
    (next : ∀ {before s a s'}, Inv before s → step s a = .ok s' → Inv (before ++ [a]) s')
    (reached : inputs.foldlM step start = .ok s) : Inv inputs s := by
  induction inputs using List.reverseRecOn generalizing s with
  | nil =>
    cases reached
    exact init
  | append_singleton inputs a ih =>
    cases earlier : inputs.foldlM step start with
    | error value =>
      cases reached.symm.trans (foldlM_concat_error step earlier)
    | ok s' =>
      rw [foldlM_concat_ok step earlier] at reached
      exact next (ih earlier) reached

/-- What the loop knows of the inputs so far, and which input it returns at, with what. -/
structure Decides (start : σ) (valid : α → Prop) (Known : List α → σ → Prop)
    (done : List α → α → Prop) (value : List α → α → β) : Prop where
  init : Known [] start
  keeps : ∀ {before s a}, valid a → Known before s → ¬ done before a →
    ∃ s', step s a = .ok s' ∧ Known (before ++ [a]) s'
  returns : ∀ {before s a}, valid a → Known before s → done before a →
    step s a = .error (value before a)

variable {step} {start : σ} {valid : α → Prop} {Known : List α → σ → Prop}
  {done : List α → α → Prop} {value : List α → α → β}

theorem Decides.run (decides : Decides step start valid Known done value) (inputs : List α)
    (all : ∀ a ∈ inputs, valid a) :
    (∃ s, inputs.foldlM step start = .ok s ∧ Known inputs s ∧
      ∀ t a, inputs[t]? = some a → ¬ done (inputs.take t) a) ∨
    ((∃ b, inputs.foldlM step start = .error b) ∧
      ∃ t a, inputs[t]? = some a ∧ done (inputs.take t) a) := by
  induction inputs using List.reverseRecOn with
  | nil => exact .inl ⟨start, rfl, decides.init, by simp⟩
  | append_singleton inputs a ih =>
    simp only [List.mem_append, List.mem_singleton] at all
    have earlier : ∀ {t : ℕ}, t < inputs.length → (inputs ++ [a])[t]? = inputs[t]? ∧
        (inputs ++ [a]).take t = inputs.take t := fun less =>
      ⟨List.getElem?_append_left less, List.take_append_of_le_length less.le⟩
    have last : (inputs ++ [a])[inputs.length]? = some a ∧
        (inputs ++ [a]).take inputs.length = inputs := by simp
    rcases ih fun b member => all b (.inl member) with
      ⟨s, reached, known, never⟩ | ⟨⟨b, returned⟩, t, b', here, at_t⟩
    · by_cases here : done inputs a
      · have returned := decides.returns (all a (.inr rfl)) known here
        refine .inr ⟨⟨_, (foldlM_concat_ok step reached).trans returned⟩,
          inputs.length, a, last.1, ?_⟩
        rw [last.2]
        exact here
      · obtain ⟨s', next, kept⟩ := decides.keeps (all a (.inr rfl)) known here
        refine .inl ⟨s', (foldlM_concat_ok step reached).trans next, kept, fun t b found => ?_⟩
        rcases lt_trichotomy t inputs.length with less | rfl | more
        · rw [(earlier less).1] at found
          rw [(earlier less).2]
          exact never t b found
        · rw [last.1, Option.some.injEq] at found
          rw [last.2, ← found]
          exact here
        · rw [List.getElem?_eq_none (by simpa using more)] at found
          cases found
    · have less : t < inputs.length := (List.getElem?_eq_some_iff.mp here).1
      refine .inr ⟨⟨b, foldlM_concat_error step returned⟩, t, b', ?_⟩
      rw [(earlier less).1, (earlier less).2]
      exact ⟨here, at_t⟩

theorem Decides.returnsAt_iff (decides : Decides step start valid Known done value)
    {inputs : List α} (all : ∀ a ∈ inputs, valid a) {t : ℕ} {b : β} :
    ReturnsAt step start inputs t b ↔
      ∃ a, inputs[t]? = some a ∧ done (inputs.take t) a ∧ b = value (inputs.take t) a ∧
        ∀ u < t, ∀ c, inputs[u]? = some c → ¬ done (inputs.take u) c := by
  have before := decides.run (inputs.take t) fun a member => all a (List.mem_of_mem_take member)
  have earlier : ∀ {u : ℕ}, u < t → (inputs.take t)[u]? = inputs[u]? ∧
      (inputs.take t).take u = inputs.take u := fun less => by
    rw [List.getElem?_take_of_lt less, List.take_take, min_eq_left less.le]
    exact ⟨rfl, rfl⟩
  constructor
  · rintro ⟨s, a, reached, here, returned⟩
    rcases before with ⟨s', reached', known, never⟩ | ⟨⟨c, failed⟩, -⟩
    · obtain rfl : s' = s := Except.ok.inj (reached'.symm.trans reached)
      have valid_a := all a (List.mem_of_getElem? here)
      have finished : done (inputs.take t) a := by
        by_contra going
        obtain ⟨s'', next, -⟩ := decides.keeps valid_a known going
        cases next.symm.trans returned
      refine ⟨a, here, finished, ?_, fun u less c found => ?_⟩
      · exact Except.error.inj (returned.symm.trans (decides.returns valid_a known finished))
      · rw [← (earlier less).2]
        exact never u c ((earlier less).1.trans found)
    · cases reached.symm.trans failed
  · rintro ⟨a, here, finished, rfl, first⟩
    rcases before with ⟨s, reached, known, -⟩ | ⟨-, u, c, found, at_u⟩
    · exact ⟨s, a, reached, here,
        decides.returns (all a (List.mem_of_getElem? here)) known finished⟩
    · have less : u < t := by
        have within := (List.getElem?_eq_some_iff.mp found).1
        simp only [List.length_take] at within
        omega
      rw [(earlier less).1] at found
      rw [(earlier less).2] at at_u
      exact absurd at_u (first u less c found)

theorem Decides.known_of_never (decides : Decides step start valid Known done value)
    {inputs : List α} (all : ∀ a ∈ inputs, valid a)
    (never : ∀ t a, inputs[t]? = some a → ¬ done (inputs.take t) a) :
    ∃ s, inputs.foldlM step start = .ok s ∧ Known inputs s := by
  rcases decides.run inputs all with ⟨s, reached, known, -⟩ | ⟨-, t, a, here, at_t⟩
  · exact ⟨s, reached, known⟩
  · exact absurd at_t (never t a here)

end EarlyReturn

end Polling
