import Mathlib

set_option autoImplicit false

namespace Concurrent

section Machine

variable {σ α : Type} (step : σ → α → Option σ) (start : σ)

inductive Reachable : σ → Prop where
  | start : Reachable start
  | next {s s' : σ} (a : α) : Reachable s → step s a = some s' → Reachable s'

variable {step start}

theorem Reachable.inv {P : σ → Prop} (first : P start)
    (preserved : ∀ s a s', P s → step s a = some s' → P s') {s : σ}
    (reached : Reachable step start s) : P s := by
  induction reached with
  | start => exact first
  | next a _ taken ih => exact preserved _ a _ ih taken

end Machine

section Buffered

variable {α β : Type}

/-- A stream of futures: those still to complete, in start order, and what completed. -/
structure Buffered (α β : Type) where
  todo : List α
  done : List β

def Buffered.start (todo : List α) : Buffered α β := ⟨todo, []⟩

-- `buffer_unordered(width)`: only the first `width` unfinished futures are polled, and any of
-- them may finish next.
def Buffered.inFlight (b : Buffered α β) (width slot : Nat) : Option α :=
  if slot < width then b.todo[slot]? else none

def Buffered.complete (b : Buffered α β) (slot : Nat) (result : β) : Buffered α β :=
  ⟨b.todo.eraseIdx slot, b.done ++ [result]⟩

def Buffered.update (b : Buffered α β) (slot : Nat) (item : α) : Buffered α β :=
  ⟨b.todo.set slot item, b.done⟩

def Buffered.yields (f : α → β) (b : Buffered α β) : List β := b.done ++ b.todo.map f

theorem Buffered.yields_finished (f : α → β) {b : Buffered α β} (finished : b.todo = []) :
    b.yields f = b.done := by
  rw [yields, finished, List.map_nil, List.append_nil]

theorem Buffered.inFlight_eq_some {b : Buffered α β} {width slot : Nat} {item : α}
    (polled : b.inFlight width slot = some item) :
    ∃ within : slot < b.todo.length, b.todo[slot] = item := by
  unfold inFlight at polled
  split at polled
  · exact List.getElem?_eq_some_iff.mp polled
  · simp at polled

theorem Buffered.mem_of_inFlight {b : Buffered α β} {width slot : Nat} {item : α}
    (polled : b.inFlight width slot = some item) : item ∈ b.todo := by
  obtain ⟨within, rfl⟩ := inFlight_eq_some polled
  exact List.getElem_mem within

@[simp] theorem Buffered.inFlight_head (item : α) (todo : List α) (done : List β) {width : Nat}
    (positive : 0 < width) :
    (⟨item :: todo, done⟩ : Buffered α β).inFlight width 0 = some item := by
  simp [inFlight, positive]

-- Completing in any order only permutes what the stream yields.
theorem Buffered.complete_yields (f : α → β) {b : Buffered α β} {width slot : Nat} {item : α}
    (polled : b.inFlight width slot = some item) :
    ((b.complete slot (f item)).yields f).Perm (b.yields f) := by
  obtain ⟨within, rfl⟩ := inFlight_eq_some polled
  have picked := (List.getElem_cons_eraseIdx_perm within).map f
  rw [List.map_cons] at picked
  simpa [yields, complete] using picked.append_left b.done

theorem Buffered.update_yields (f : α → β) {b : Buffered α β} {width slot : Nat} {item item' : α}
    (polled : b.inFlight width slot = some item) (same : f item' = f item) :
    (b.update slot item').yields f = b.yields f := by
  obtain ⟨within, rfl⟩ := inFlight_eq_some polled
  have kept : (b.todo.map f).set slot (f item') = b.todo.map f := by
    rw [same]
    apply List.ext_getElem
    · simp
    · intro i _ _
      by_cases here : slot = i
      · subst here
        simp
      · simp [here]
  rw [yields, yields, update, List.map_set, kept]

section Held

variable {γ : Type} {f : α → List γ} {b : Buffered α β} {width slot : Nat} {item : α}
  (polled : b.inFlight width slot = some item)

include polled

theorem Buffered.updated_subset (item' : α) : f item' ⊆ (b.update slot item').todo.flatMap f := by
  obtain ⟨within, -⟩ := inFlight_eq_some polled
  exact fun x held => List.mem_flatMap.mpr ⟨item', List.mem_set within item', held⟩

-- A future that only gains loses nothing of what is in flight.
theorem Buffered.subset_update {item' : α} (grown : f item ⊆ f item') :
    b.todo.flatMap f ⊆ (b.update slot item').todo.flatMap f := by
  intro x inside
  obtain ⟨other, listed, held⟩ := List.mem_flatMap.mp inside
  obtain ⟨k, below, rfl⟩ := List.getElem_of_mem listed
  by_cases here : slot = k
  next =>
    subst here
    obtain ⟨within, rfl⟩ := inFlight_eq_some polled
    exact updated_subset polled item' (grown held)
  next =>
    refine List.mem_flatMap.mpr ⟨_, List.mem_of_getElem? (i := k) ?_, held⟩
    simp [update, here, below]

theorem Buffered.mem_complete {x : γ} (inside : x ∈ b.todo.flatMap f) (result : β) :
    x ∈ f item ∨ x ∈ (b.complete slot result).todo.flatMap f := by
  obtain ⟨within, rfl⟩ := inFlight_eq_some polled
  have picked := (List.getElem_cons_eraseIdx_perm within).flatMap_right f
  rwa [← picked.mem_iff, List.flatMap_cons, List.mem_append] at inside

end Held

end Buffered

end Concurrent
