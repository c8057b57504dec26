import Mathlib
import BrainEval.Runner.VerifyList

set_option autoImplicit false

namespace BrainEval.MemoryList

open RustStr Paging

structure Enumeration where
  sent : List MemoryListRequest
  visited : List MemoryListItem
  present : Finset WireMemoryId

def Enumeration.empty : Enumeration := ⟨[], [], ∅⟩

-- State 0 is active.
def keeps (marker : String) (item : MemoryListItem) : Bool :=
  item.state = 0 && contains item.text marker

def Enumeration.addItem (marker : String) (e : Enumeration) (item : MemoryListItem) :
    Enumeration :=
  { e with
    visited := e.visited ++ [item]
    present := if keeps marker item then insert item.memoryId e.present else e.present }

def Enumeration.addPage (marker : String) (e : Enumeration) (page : List MemoryListFrame) :
    Enumeration :=
  page.foldl (fun e frame => frame.items.foldl (Enumeration.addItem marker) e) e

-- The cursor and the final flag that the loop over the frames leaves behind.
def lastFrame (page : List MemoryListFrame) : List UInt8 × Bool :=
  page.foldl (fun _ frame => (frame.nextCursor, frame.isFinal)) ([], true)

-- The walk of `durable_active_memory_ids`; `none` while it asks for a page more.
def durableWalk (marker : String) :
    Answers → List UInt8 → Enumeration → Option (Except String Enumeration)
  | [], _, _ => none
  | answer :: answers, cursor, e =>
    let e : Enumeration := { e with sent := e.sent ++ [⟨pageLimit, cursor, true⟩] }
    match answer with
    | .error message => some (.error message)
    | .ok frames =>
      let e := e.addPage marker frames
      let (lastCursor, done) := lastFrame frames
      if done || lastCursor.isEmpty then some (.ok e) else durableWalk marker answers lastCursor e

def durableActiveMemoryIds (marker : String) (answers : Answers) :
    Option (Except String (Finset WireMemoryId)) :=
  (durableWalk marker answers [] .empty).map fun walked => walked.map (·.present)

def countSurvivors (marker : String) (acked : List (WireMemoryId × String)) (answers : Answers) :
    Option (Except String Nat) :=
  (durableActiveMemoryIds marker answers).map fun walked =>
    walked.map fun present => acked.countP fun (id, _) => id ∈ present

def durableStops (page : List MemoryListFrame) : Bool :=
  (lastFrame page).2 || (lastFrame page).1.isEmpty

theorem lastFrame_concat (page : List MemoryListFrame) (frame : MemoryListFrame) :
    lastFrame (page ++ [frame]) = (frame.nextCursor, frame.isFinal) := by
  simp [lastFrame]

theorem nextCursor_concat {page : List MemoryListFrame} {frame : MemoryListFrame}
    (given : ¬ frame.nextCursor.isEmpty = true) :
    nextCursor (page ++ [frame]) = frame.nextCursor := by
  rw [nextCursor, List.foldl_append, List.foldl_cons, List.foldl_nil, if_neg given]

theorem durableStops_of_verifyStops (page : List MemoryListFrame)
    (stop : verifyStops page = true) : durableStops page = true := by
  rcases List.eq_nil_or_concat page with rfl | ⟨front, frame, rfl⟩
  · rfl
  · rw [List.concat_eq_append] at stop ⊢
    have closed := verifyStops_iff.mp stop frame (by simp)
    rw [durableStops, lastFrame_concat, closed, Bool.or_true]

-- Where the durable walk goes on, both ask for the same page.
theorem lastCursor_of_goes_on {page : List MemoryListFrame} (on : ¬ durableStops page = true) :
    (lastFrame page).1 = nextCursor page := by
  rcases List.eq_nil_or_concat page with rfl | ⟨front, frame, rfl⟩
  · exact absurd rfl on
  · rw [List.concat_eq_append] at on ⊢
    rw [durableStops, lastFrame_concat] at on
    have given : ¬ frame.nextCursor.isEmpty = true := by
      intro closed
      simp [closed] at on
    rw [lastFrame_concat, nextCursor_concat given]

section Walk

variable (marker : String)

theorem foldl_addItem_visited (items : List MemoryListItem) (e : Enumeration) :
    (items.foldl (Enumeration.addItem marker) e).visited = e.visited ++ items := by
  induction items generalizing e with
  | nil => simp
  | cons item items ih => simp [ih, Enumeration.addItem]

theorem addPage_visited (page : List MemoryListFrame) (e : Enumeration) :
    (e.addPage marker page).visited = e.visited ++ rows page := by
  unfold Enumeration.addPage
  induction page generalizing e with
  | nil => simp [rows]
  | cons frame page ih => simp [ih, foldl_addItem_visited, rows]

/-- The ids are those of the rows visited so far that are kept. -/
def Enumeration.Exact (e : Enumeration) : Prop :=
  ∀ id, id ∈ e.present ↔ ∃ item ∈ e.visited, keeps marker item = true ∧ item.memoryId = id

variable {marker}

theorem Enumeration.Exact.addItem {e : Enumeration} (exact : e.Exact marker)
    (item : MemoryListItem) : (e.addItem marker item).Exact marker := by
  intro id
  simp only [Enumeration.addItem, List.mem_append, List.mem_singleton, or_and_right, exists_or,
    exists_eq_left]
  rw [← exact id]
  by_cases kept : keeps marker item = true
  next => simp [kept, or_comm, eq_comm]
  next => simp [kept]

theorem Enumeration.Exact.addItems {e : Enumeration} (exact : e.Exact marker)
    (items : List MemoryListItem) : (items.foldl (Enumeration.addItem marker) e).Exact marker := by
  induction items generalizing e with
  | nil => exact exact
  | cons item items ih => exact ih (exact.addItem item)

theorem Enumeration.Exact.addPage {e : Enumeration} (exact : e.Exact marker)
    (page : List MemoryListFrame) : (e.addPage marker page).Exact marker := by
  unfold Enumeration.addPage
  induction page generalizing e with
  | nil => exact exact
  | cons frame page ih => exact ih (exact.addItems frame.items)

theorem durableWalk_exact {answers : Answers} {cursor : List UInt8} {e final : Enumeration}
    (exact : e.Exact marker) (done : durableWalk marker answers cursor e = some (.ok final)) :
    final.Exact marker := by
  induction answers generalizing cursor e with
  | nil => simp [durableWalk] at done
  | cons answer answers ih =>
    cases answer with
    | error message => simp [durableWalk] at done
    | ok frames =>
      simp only [durableWalk] at done
      have asked : Enumeration.Exact marker
          { e with sent := e.sent ++ [⟨pageLimit, cursor, true⟩] } := exact
      split at done
      next =>
        obtain rfl := Except.ok.inj (Option.some.inj done)
        exact asked.addPage frames
      next => exact ih (asked.addPage frames) done

theorem durableWalk_visited (pages : List (List MemoryListFrame)) (cursor : List UInt8)
    (e : Enumeration) :
    (durableWalk marker (pages.map .ok) cursor e).map (fun walked => walked.map (·.visited)) =
      (readPages durableStops pages).map fun seen => .ok (e.visited ++ seen.flatMap rows) := by
  induction pages generalizing cursor e with
  | nil => rfl
  | cons page pages ih =>
    rw [List.map_cons, durableWalk]
    by_cases last : durableStops page = true
    next =>
      have stop : ((lastFrame page).2 || (lastFrame page).1.isEmpty) = true := last
      simp [stop, readPages_of_stops last, addPage_visited, Except.map]
    next =>
      have more : ¬ ((lastFrame page).2 || (lastFrame page).1.isEmpty) = true := last
      simp only [if_neg more, readPages_of_goes_on last, ih, addPage_visited, Option.map_map,
        Function.comp_def, List.flatMap_cons, List.append_assoc]

theorem foldl_addItem_sent (items : List MemoryListItem) (e : Enumeration) :
    (items.foldl (Enumeration.addItem marker) e).sent = e.sent := by
  induction items generalizing e with
  | nil => rfl
  | cons item items ih => simp [ih, Enumeration.addItem]

theorem addPage_sent (page : List MemoryListFrame) (e : Enumeration) :
    (e.addPage marker page).sent = e.sent := by
  unfold Enumeration.addPage
  induction page generalizing e with
  | nil => rfl
  | cons frame page ih => simp [ih, foldl_addItem_sent]

-- Served the same pages, the durable walk asks for the first of those that the other asks for.
theorem durable_asks_prefix {pages : List (List MemoryListFrame)} {cursor : List UInt8}
    {e final : Enumeration} {l listing : Listing}
    (same : e.sent.map (·.cursor) = l.sent.map (·.cursor))
    (done : durableWalk marker (pages.map .ok) cursor e = some (.ok final))
    (listed : verifyWalk (pages.map .ok) cursor l = some listing) :
    final.sent.map (·.cursor) <+: listing.sent.map (·.cursor) := by
  induction pages generalizing cursor e l with
  | nil => simp [durableWalk] at done
  | cons page pages ih =>
    rw [List.map_cons, durableWalk] at done
    by_cases last : durableStops page = true
    next =>
      have stop : ((lastFrame page).2 || (lastFrame page).1.isEmpty) = true := last
      simp only [if_pos stop, Option.some_inj, Except.ok.injEq] at done
      have asked := (verifyWalk_sent listed).map (·.cursor)
      rw [List.map_append, ← same] at asked
      rw [← done, addPage_sent, List.map_append]
      exact asked
    next =>
      have more : ¬ ((lastFrame page).2 || (lastFrame page).1.isEmpty) = true := last
      have on : ¬ (nextCursor page).isEmpty = true := mt (durableStops_of_verifyStops page) last
      rw [List.map_cons, verifyWalk] at listed
      simp only [if_neg on] at listed
      simp only [if_neg more] at done
      rw [lastCursor_of_goes_on last] at done
      refine ih ?_ done listed
      simp [addPage_sent, foldl_addFrame_sent, same]

end Walk

theorem exact_of_walk {marker : String} {answers : Answers} {e : Enumeration}
    (walked : durableWalk marker answers [] .empty = some (.ok e)) : e.Exact marker :=
  durableWalk_exact (e := .empty) (by simp [Enumeration.Exact, Enumeration.empty]) walked

theorem durableIds_iff {marker : String} {answers : Answers} {ids : Finset WireMemoryId} :
    durableActiveMemoryIds marker answers = some (.ok ids) ↔
      ∃ e, durableWalk marker answers [] .empty = some (.ok e) ∧ e.present = ids := by
  rw [durableActiveMemoryIds]
  rcases durableWalk marker answers [] .empty with _ | _ | e <;> simp [Except.map]

theorem mem_present_iff {marker : String} {answers : Answers} {e : Enumeration}
    (walked : durableWalk marker answers [] .empty = some (.ok e)) {id : WireMemoryId} :
    id ∈ e.present ↔ ∃ row ∈ e.visited, row.memoryId = id ∧ row.state = 0 ∧
      contains row.text marker = true := by
  rw [exact_of_walk walked id]
  simp only [keeps, Bool.and_eq_true, decide_eq_true_eq]
  exact exists_congr fun row => and_congr_right fun _ => and_comm

theorem exists_walk_of_final_page (marker : String) (items : List MemoryListItem)
    (cursor : List UInt8) : ∃ e,
      durableWalk marker [.ok [⟨items, cursor, true⟩]] [] .empty = some (.ok e) ∧
        e.visited = items := by
  refine ⟨_, rfl, ?_⟩
  rw [addPage_visited]
  simp [rows, Enumeration.empty]

-- The rows that the durable walk visits, before its text filter.
def durableRows (marker : String) (pages : List (List MemoryListFrame)) :
    Option (Except String (List MemoryListItem)) :=
  (durableWalk marker (pages.map .ok) [] .empty).map fun walked => walked.map (·.visited)

def verifyRows (pages : List (List MemoryListFrame)) : Option (List MemoryListItem) :=
  (verifyWalk (pages.map .ok) [] .empty).map (·.counted)

-- What the durable walk visits is a first part of what the other counts.
theorem durable_rows_prefix {marker : String} {pages : List (List MemoryListFrame)}
    {listed : List MemoryListItem} (counted : verifyRows pages = some listed) :
    ∃ visited, durableRows marker pages = some (.ok visited) ∧ visited <+: listed := by
  rw [verifyRows, verifyWalk_counted] at counted
  obtain ⟨seen, done, rfl⟩ := Option.map_eq_some_iff.mp counted
  obtain ⟨start, begun, inside⟩ := readPages_prefix durableStops_of_verifyStops done
  refine ⟨start.flatMap rows, ?_, ?_⟩
  · rw [durableRows, durableWalk_visited, begun]
    rfl
  · obtain ⟨rest, rfl⟩ := inside
    rw [List.flatMap_append]
    exact List.prefix_append _ _

/-- The walks enumerate the same rows, so that no marked row that one lists is missing from the
ids of the other. -/
structure WalksAgree (marker : String) (pages : List (List MemoryListFrame)) : Prop where
  rows : durableRows marker pages = (verifyRows pages).map .ok
  kept : ∀ listed present, verifyRows pages = some listed →
    durableActiveMemoryIds marker (pages.map .ok) = some (.ok present) →
      ∀ item ∈ listed, keeps marker item = true → item.memoryId ∈ present

theorem kept_of_same_rows {marker : String} {pages : List (List MemoryListFrame)}
    (same : durableRows marker pages = (verifyRows pages).map .ok)
    {listed : List MemoryListItem} {present : Finset WireMemoryId}
    (counted : verifyRows pages = some listed)
    (durable : durableActiveMemoryIds marker (pages.map .ok) = some (.ok present)) :
    ∀ item ∈ listed, keeps marker item = true → item.memoryId ∈ present := by
  intro item member kept
  obtain ⟨walked, done, ids⟩ := Option.map_eq_some_iff.mp durable
  cases walked with
  | error message => simp [Except.map] at ids
  | ok final =>
    obtain rfl : final.present = present := by simpa [Except.map] using ids
    have visited : final.visited = listed := by
      rw [durableRows, done, counted] at same
      simpa [Except.map] using same
    have exact : final.Exact marker :=
      durableWalk_exact (e := .empty) (by simp [Enumeration.Exact, Enumeration.empty]) done
    exact (exact item.memoryId).mpr ⟨item, visited ▸ member, kept, rfl⟩

theorem walks_agree_iff (marker : String) (pages : List (List MemoryListFrame))
    (ends : ∃ page ∈ pages, verifyStops page = true) :
    WalksAgree marker pages ↔
      ∀ page, Overruns durableStops verifyStops pages page → rows page = [] := by
  obtain ⟨seen, done⟩ := exists_readPages ends
  have counted : verifyRows pages = some (seen.flatMap rows) := by
    rw [verifyRows, verifyWalk_counted, done, Option.map_some]
    rfl
  have durable : durableRows marker pages =
      ((readPages durableStops pages).map (·.flatMap rows)).map .ok := by
    rw [durableRows, durableWalk_visited, Option.map_map]
    rfl
  have same : durableRows marker pages = (verifyRows pages).map .ok ↔
      (readPages durableStops pages).map (·.flatMap rows) = some (seen.flatMap rows) := by
    rw [durable, counted]
    exact (Option.map_injective fun _ _ => Except.ok.inj).eq_iff
  rw [← readPages_rows_eq_iff durableStops_of_verifyStops rows done, ← same]
  exact ⟨WalksAgree.rows, fun agree => ⟨agree, fun _ _ => kept_of_same_rows agree⟩⟩

def activeRow (id : WireMemoryId) : MemoryListItem := ⟨id, "fact " ++ toString id, 0⟩

def twoPages (isFinal : Bool) : List (List MemoryListFrame) :=
  [[⟨[activeRow 1], [1], isFinal⟩], [⟨[activeRow 2], [], true⟩]]

theorem walks_agree_across_open_pages : WalksAgree "fact" (twoPages false) := by
  have ends : ∃ page ∈ twoPages false, verifyStops page = true :=
    ⟨_, List.mem_cons_of_mem _ List.mem_cons_self, rfl⟩
  refine (walks_agree_iff "fact" (twoPages false) ends).mpr ?_
  rintro page ⟨front, back, split, clear, earlier, member, stop⟩
  have listed : earlier ∈ twoPages false := split ▸ List.mem_append_left _ member
  simp only [twoPages, List.mem_cons, List.not_mem_nil, or_false] at listed
  rcases listed with rfl | rfl
  · exact absurd stop (by decide)
  · exact absurd (clear _ member) (by decide)

theorem final_page_hides_the_next :
    verifyRows (twoPages true) = some [activeRow 1, activeRow 2] ∧
      countSurvivors "fact" [(1, "fact 1"), (2, "fact 2")] ((twoPages true).map .ok) =
        some (.ok 1) ∧
      ¬ WalksAgree "fact" (twoPages true) := by
  refine ⟨by decide +kernel, by decide +kernel, fun agree => ?_⟩
  exact absurd agree.rows (by decide +kernel)

end BrainEval.MemoryList
