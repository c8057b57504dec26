import Mathlib

set_option autoImplicit false

namespace Early

variable {ε α β σ : Type}

/-- A run that may return early, or not end at all. -/
abbrev Run (ε α : Type) : Type := ExceptT ε Option α

def ended (result : Except ε α) : Run ε α := ExceptT.mk (some result)

def labelled (label : String) (result : Except String α) : Run String α :=
  ended (result.mapError (label ++ ·))

-- The same for a step that may not end.
def labelledRun (label : String) (result : Option (Except String α)) : Run String α :=
  ExceptT.mk (result.map fun ended => ended.mapError (label ++ ·))

def require (p : Prop) [Decidable p] (otherwise : ε) : Run ε Unit :=
  if p then pure () else throw otherwise

/-- The same where something is closed before the return, which may fail too. -/
def requireOpen (close : Run ε Unit) (p : Prop) [Decidable p] (otherwise : ε) : Run ε Unit :=
  if p then pure ()
  else do
    close
    throw otherwise

-- Return early where there is no value.
def okOr (value : Option α) (otherwise : ε) : Run ε α :=
  match value with
  | some a => pure a
  | none => throw otherwise

/-- A part whose early return ends the whole under a label, after something is closed. -/
def orClosing (close : Run String Unit) (label : String) (part : Run String α) : Run String α :=
  match part.run with
  | none => ExceptT.mk none
  | some (.ok a) => pure a
  | some (.error e) => do
    close
    throw (label ++ e)

def countM (step : σ → Run ε Unit) (items : List σ) : Run ε Nat :=
  items.foldlM (fun n item => do
    step item
    return n + 1) 0

-- The run ends, and not early, with this value.
def Yields (run : Run ε α) (value : α) : Prop := run.run = some (.ok value)

theorem yields_pure_iff {a b : α} : Yields (pure a : Run ε α) b ↔ a = b := by
  simp [Yields, pure, ExceptT.pure, ExceptT.run, ExceptT.mk]

theorem yields_bind_iff {run : Run ε α} {next : α → Run ε β} {b : β} :
    Yields (run >>= next) b ↔ ∃ a, Yields run a ∧ Yields (next a) b := by
  change (run.run >>= ExceptT.bindCont next) = some (.ok b) ↔ ∃ a, run.run = some (.ok a) ∧ _
  cases ran : run.run with
  | none => simp
  | some result =>
    cases result with
    | error e => simp [ExceptT.bindCont]
    | ok a =>
      constructor
      · intro yielded
        exact ⟨a, rfl, yielded⟩
      · rintro ⟨a', same, yielded⟩
        obtain rfl := Except.ok.inj (Option.some.inj same)
        exact yielded

theorem yields_ended_iff {result : Except ε α} {a : α} :
    Yields (ended result) a ↔ result = .ok a := by
  simp [Yields, ended, ExceptT.run, ExceptT.mk]

theorem yields_labelled_iff {label : String} {result : Except String α} {a : α} :
    Yields (labelled label result) a ↔ result = .ok a := by
  rw [labelled, yields_ended_iff]
  cases result <;> simp [Except.mapError]

theorem yields_labelledRun_iff {label : String} {result : Option (Except String α)} {a : α} :
    Yields (labelledRun label result) a ↔ result = some (.ok a) := by
  rcases result with _ | _ | _ <;>
    simp [labelledRun, Yields, ExceptT.run, ExceptT.mk, Except.mapError]

theorem not_yields_throw {e : ε} {a : α} : ¬ Yields (throw e : Run ε α) a := by
  simp [Yields, throw, throwThe, MonadExceptOf.throw, ExceptT.run, ExceptT.mk]

theorem yields_require_iff {p : Prop} [Decidable p] {otherwise : ε} {u : Unit} :
    Yields (require p otherwise) u ↔ p := by
  unfold require
  split
  next holds => simp [yields_pure_iff, holds]
  next fails => simp [not_yields_throw, fails]

theorem yields_requireOpen_iff {close : Run ε Unit} {p : Prop} [Decidable p] {otherwise : ε}
    {u : Unit} : Yields (requireOpen close p otherwise) u ↔ p := by
  unfold requireOpen
  split
  next holds => simp [yields_pure_iff, holds]
  next fails => simp [yields_bind_iff, not_yields_throw, fails]

theorem yields_okOr_iff {value : Option α} {otherwise : ε} {a : α} :
    Yields (okOr value otherwise) a ↔ value = some a := by
  cases value with
  | none => simp [okOr, not_yields_throw]
  | some b => simp [okOr, yields_pure_iff]

theorem yields_orClosing_iff {close : Run String Unit} {label : String} {part : Run String α}
    {a : α} : Yields (orClosing close label part) a ↔ Yields part a := by
  have told : Yields part a ↔ part.run = some (.ok a) := Iff.rfl
  rw [told, orClosing]
  rcases part.run with _ | e | b
  · simp [Yields, ExceptT.run, ExceptT.mk]
  · simp [yields_bind_iff, not_yields_throw]
  · simp [yields_pure_iff]

theorem yields_countM_iff {step : σ → Run ε Unit} {items : List σ} {n : Nat} :
    Yields (countM step items) n ↔ (∀ item ∈ items, Yields (step item) ()) ∧ n = items.length := by
  have from_count (count : Nat) :
      Yields (items.foldlM (fun n item => do
        step item
        return n + 1) count) n ↔
          (∀ item ∈ items, Yields (step item) ()) ∧ n = count + items.length := by
    induction items generalizing count with
    | nil => simp [yields_pure_iff, eq_comm]
    | cons item items ih =>
      simp only [List.foldlM_cons, yields_bind_iff, yields_pure_iff, ih, List.forall_mem_cons,
        List.length_cons]
      constructor
      · rintro ⟨-, ⟨⟨⟩, here, rfl⟩, rest, rfl⟩
        exact ⟨⟨here, rest⟩, by omega⟩
      · rintro ⟨⟨here, rest⟩, rfl⟩
        exact ⟨_, ⟨(), here, rfl⟩, rest, by omega⟩
  rw [countM, from_count, Nat.zero_add]

theorem yields_forM_iff {step : σ → Run ε Unit} {items : List σ} {u : Unit} :
    Yields (items.forM step) u ↔ ∀ item ∈ items, Yields (step item) () := by
  induction items with
  | nil => simp [yields_pure_iff]
  | cons item items ih =>
    change Yields (step item >>= fun _ => items.forM step) u ↔ _
    rw [yields_bind_iff, List.forall_mem_cons]
    constructor
    · rintro ⟨⟨⟩, here, rest⟩
      exact ⟨here, ih.mp rest⟩
    · rintro ⟨here, rest⟩
      exact ⟨(), here, ih.mpr rest⟩

theorem yields_foldlM_range_iff {step : σ → Nat → Run ε σ} {n : Nat} {start last : σ} :
    Yields ((List.range n).foldlM step start) last ↔
      ∃ states : Nat → σ, states 0 = start ∧ states n = last ∧
        ∀ i < n, Yields (step (states i) i) (states (i + 1)) := by
  induction n generalizing last with
  | zero =>
    rw [List.range_zero, List.foldlM_nil, yields_pure_iff]
    constructor
    · rintro rfl
      exact ⟨fun _ => start, rfl, rfl, fun i inside => absurd inside (Nat.not_lt_zero i)⟩
    · rintro ⟨states, first, final, -⟩
      rw [← first, final]
  | succ n ih =>
    rw [List.range_succ, List.foldlM_append, yields_bind_iff]
    simp only [List.foldlM_cons, List.foldlM_nil, bind_pure]
    constructor
    · rintro ⟨before, earlier, step⟩
      obtain ⟨states, first, final, each⟩ := ih.mp earlier
      refine ⟨Function.update states (n + 1) last, ?_, by simp, ?_⟩
      · rw [Function.update_of_ne (by omega), first]
      · intro i inside
        rw [Function.update_of_ne (by omega)]
        rcases Nat.lt_succ_iff_lt_or_eq.mp inside with earlier | rfl
        · rw [Function.update_of_ne (by omega)]
          exact each i earlier
        · rw [Function.update_self, final]
          exact step
    · rintro ⟨states, first, final, each⟩
      refine ⟨states n, ih.mpr ⟨states, first, rfl, fun i inside => each i (by omega)⟩, ?_⟩
      rw [← final]
      exact each n (Nat.lt_succ_self n)

end Early
