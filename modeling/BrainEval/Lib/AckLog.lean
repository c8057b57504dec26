import Mathlib

set_option autoImplicit false

namespace AckLog

variable {K : Type}

/-- A store that keeps a log: the records that are on disk, those that are written but may still be
lost, and those whose write has been answered. -/
@[ext]
structure State (K : Type) where
  synced : Set K
  pending : Set K
  acked : Set K

def State.empty : State K := ⟨∅, ∅, ∅⟩

inductive Step : State K → State K → Prop where
  | write (s : State K) (k : K) : Step s { s with pending := insert k s.pending }
  | sync (s : State K) {k : K} (written : k ∈ s.pending) :
      Step s { s with synced := insert k s.synced }
  -- a write is answered once its record is on disk
  | ack (s : State K) {k : K} (onDisk : k ∈ s.synced) :
      Step s { s with acked := insert k s.acked }
  -- a crash keeps what is on disk, and may keep any of the rest
  | crash (s : State K) {kept : Set K} (written : kept ⊆ s.pending) :
      Step s { s with synced := s.synced ∪ kept, pending := ∅ }

abbrev Steps (s t : State K) : Prop := Relation.ReflTransGen Step s t

-- What was answered is on disk.
def Sound (s : State K) : Prop := s.acked ⊆ s.synced

theorem Step.sound {s t : State K} (step : Step s t) (sound : Sound s) : Sound t := by
  cases step with
  | write k => exact sound
  | sync written => exact sound.trans (Set.subset_insert _ _)
  | ack onDisk => exact Set.insert_subset onDisk sound
  | crash written => exact sound.trans Set.subset_union_left

theorem Step.acked_subset {s t : State K} (step : Step s t) : s.acked ⊆ t.acked := by
  cases step with
  | ack onDisk => exact Set.subset_insert _ _
  | _ => exact subset_rfl

theorem Steps.sound {s t : State K} (steps : Steps s t) (sound : Sound s) : Sound t := by
  induction steps with
  | refl => exact sound
  | tail _ step ih => exact step.sound ih

theorem Steps.acked_subset {s t : State K} (steps : Steps s t) : s.acked ⊆ t.acked := by
  induction steps with
  | refl => exact subset_rfl
  | tail _ step ih => exact ih.trans step.acked_subset

theorem Steps.kept {s t : State K} (sound : Sound s) (steps : Steps s t) : s.acked ⊆ t.synced :=
  steps.acked_subset.trans (steps.sound sound)

theorem steps_answered (s : State K) (k : K) :
    Steps s ⟨insert k s.synced, insert k s.pending, insert k s.acked⟩ :=
  ((Relation.ReflTransGen.single (.write s k)).tail (.sync _ (Set.mem_insert k _))).tail
    (.ack _ (Set.mem_insert k _))

end AckLog
