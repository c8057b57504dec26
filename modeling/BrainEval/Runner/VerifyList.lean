import Mathlib
import BrainEval.Client.Harness
import BrainEval.Lib.Paging

set_option autoImplicit false

namespace BrainEval

structure MemoryListRequest where
  limit : Nat
  cursor : List UInt8
  includeTombstoned : Bool
  deriving DecidableEq

structure MemoryListItem where
  memoryId : WireMemoryId
  text : String
  state : Nat
  deriving DecidableEq

structure MemoryListFrame where
  items : List MemoryListItem
  nextCursor : List UInt8
  isFinal : Bool
  deriving DecidableEq

namespace MemoryList

open Harness Paging

-- The outcomes of the page requests of a walk, in order.
abbrev Answers := List (Except String (List MemoryListFrame))

def pageLimit : Nat := 100

def rows (page : List MemoryListFrame) : List MemoryListItem := page.flatMap (·.items)

def nextCursor (page : List MemoryListFrame) : List UInt8 :=
  page.foldl (fun next frame => if frame.nextCursor.isEmpty then next else frame.nextCursor) []

structure Listing where
  sent : List MemoryListRequest
  counted : List MemoryListItem
  listed : Nat
  texts : List String

def Listing.empty : Listing := ⟨[], [], 0, []⟩

def Listing.addFrame (l : Listing) (frame : MemoryListFrame) : Listing :=
  { l with
    counted := l.counted ++ frame.items
    listed := saturatingAdd l.listed frame.items.length
    texts := frame.items.foldl
      (fun texts item => if texts.length < 5 then texts ++ [item.text] else texts) l.texts }

/-- The walk of `verify_memory_list`; `none` while it asks for a page more. -/
def verifyWalk : Answers → List UInt8 → Listing → Option Listing
  | [], _, _ => none
  | answer :: answers, cursor, l =>
    let l := { l with sent := l.sent ++ [⟨pageLimit, cursor, false⟩] }
    match answer with
    -- a failed page stops the walk
    | .error _ => some l
    | .ok frames =>
      let l := frames.foldl Listing.addFrame l
      let next := nextCursor frames
      if next.isEmpty then some l else verifyWalk answers next l

structure Verification where
  lines : List String
  panicked : Option String
  deriving DecidableEq

def textLine (i : Nat) (text : String) : String :=
  let trimmed := String.ofList (text.toList.take 80)
  let ellipsis := if 80 < text.toList.length then "…" else ""
  s!"MEMORY_LIST verify ::   [{i}] {trimmed}{ellipsis}"

def verdictLine (listed stored : Nat) : String :=
  let verdict := if listed = stored then "MATCH" else "MISMATCH"
  s!"MEMORY_LIST verify :: listed {listed} vs ingest-stored {stored} => {verdict}"

def verifyMemoryList (convKey : String) (stored : Nat) (answers : Answers) : Option Verification :=
  (verifyWalk answers [] .empty).map fun l =>
    { lines :=
        s!"MEMORY_LIST verify :: conversation {convKey}: {l.listed} memories listed" ::
          (l.texts.mapIdx textLine ++
            if 0 < stored then [verdictLine l.listed stored] else [])
      panicked :=
        if 0 < l.listed then none
        else some s!"MEMORY_LIST verify :: conversation {convKey} listed 0 memories after drain" }

def verifyStops (page : List MemoryListFrame) : Bool := (nextCursor page).isEmpty

def answerStops : Except String (List MemoryListFrame) → Bool
  | .error _ => true
  | .ok page => verifyStops page

def answerRows : Except String (List MemoryListFrame) → List MemoryListItem
  | .error _ => []
  | .ok page => rows page

theorem foldl_nextCursor (page : List MemoryListFrame) (next : List UInt8) :
    (page.foldl (fun next frame => if frame.nextCursor.isEmpty then next else frame.nextCursor)
      next).isEmpty = (next.isEmpty && page.all (·.nextCursor.isEmpty)) := by
  induction page generalizing next with
  | nil => simp
  | cons frame page ih =>
    rw [List.foldl_cons, ih, List.all_cons]
    by_cases closed : frame.nextCursor.isEmpty = true <;> simp [closed]

theorem verifyStops_iff {page : List MemoryListFrame} :
    verifyStops page = true ↔ ∀ frame ∈ page, frame.nextCursor.isEmpty = true := by
  rw [verifyStops, nextCursor, foldl_nextCursor, List.isEmpty_nil, Bool.true_and, List.all_eq_true]

theorem foldl_addFrame_counted (frames : List MemoryListFrame) (l : Listing) :
    (frames.foldl Listing.addFrame l).counted = l.counted ++ rows frames := by
  induction frames generalizing l with
  | nil => simp [rows]
  | cons frame frames ih => simp [ih, rows, Listing.addFrame]

theorem foldl_addFrame_sent (frames : List MemoryListFrame) (l : Listing) :
    (frames.foldl Listing.addFrame l).sent = l.sent := by
  induction frames generalizing l with
  | nil => rfl
  | cons frame frames ih => simp [ih, Listing.addFrame]

theorem verifyWalk_sent {answers : Answers} {cursor : List UInt8} {l final : Listing}
    (done : verifyWalk answers cursor l = some final) :
    l.sent ++ [⟨pageLimit, cursor, false⟩] <+: final.sent := by
  induction answers generalizing cursor l with
  | nil => simp [verifyWalk] at done
  | cons answer answers ih =>
    cases answer with
    | error message =>
      simp only [verifyWalk, Option.some_inj] at done
      rw [← done]
    | ok frames =>
      simp only [verifyWalk] at done
      split at done
      next =>
        rw [← Option.some_inj.mp done, foldl_addFrame_sent]
      next =>
        have later := ih done
        rw [foldl_addFrame_sent] at later
        exact (List.prefix_append _ _).trans later

theorem verifyWalk_answers (answers : Answers) (cursor : List UInt8) (l : Listing) :
    (verifyWalk answers cursor l).map (·.counted) =
      (readPages answerStops answers).map fun seen => l.counted ++ seen.flatMap answerRows := by
  induction answers generalizing cursor l with
  | nil => rfl
  | cons answer answers ih =>
    by_cases last : answerStops answer = true
    next =>
      rw [readPages_of_stops last]
      cases answer with
      | error message => simp [verifyWalk, answerRows]
      | ok page =>
        have closed : (nextCursor page).isEmpty = true := last
        simp [verifyWalk, closed, answerRows, foldl_addFrame_counted]
    next =>
      rw [readPages_of_goes_on last]
      cases answer with
      | error message => exact absurd rfl last
      | ok page =>
        have more : ¬ (nextCursor page).isEmpty = true := last
        simp only [verifyWalk, if_neg more, ih, foldl_addFrame_counted, Option.map_map,
          Function.comp_def, List.flatMap_cons, answerRows, List.append_assoc]

-- A walk whose requests all come back is the one over their pages.
theorem verifyWalk_counted (pages : List (List MemoryListFrame)) (cursor : List UInt8)
    (l : Listing) :
    (verifyWalk (pages.map .ok) cursor l).map (·.counted) =
      (readPages verifyStops pages).map fun seen => l.counted ++ seen.flatMap rows := by
  rw [verifyWalk_answers, readPages_map, Option.map_map]
  simp only [answerStops, answerRows, Function.comp_def, List.flatMap_map]

end MemoryList

end BrainEval
