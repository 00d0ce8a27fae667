import Courier.Proofs.Audit.Writing
import Mathlib.Data.List.Basic

/-!
# A store that loggers share

Invocations of loggers that go on at the same time may share a store.  Each of them asks
the store for the same things in the same order: to add its row, to commit, to close.
The store does what it is asked for one request at a time, whoever asks, and it has one
list of staged rows for all: a commit commits what anybody has staged, and a close drops
what anybody has staged.

So it depends on the order of the requests whether a row is kept.  The main statement is that
a row is committed once, unless the close of another invocation comes between its addition and
the first commit after that.
-/

namespace Courier

open Courier.Action

/-- What may be asked of a store of audit rows. -/
inductive StoreRequest where
  | add (row : Row)
  | commit
  | close
deriving DecidableEq

namespace RowStore

/-- Do what is asked for. -/
def serve (s : RowStore) : StoreRequest → RowStore
  | .add row => s.add row
  | .commit => s.commit
  | .close => s.close

/-- Do one after the other what is asked for. -/
def serveAll (s : RowStore) (requests : List StoreRequest) : RowStore :=
  requests.foldl serve s

end RowStore

/-! ## What an invocation asks for -/

/-- A world outside the bus with a store that refuses nothing, and a list of what it has
been asked for. -/
structure RequestLog where
  /-- The number and the time of the next row. -/
  stamp : Stamp
  requests : List StoreRequest := []

namespace RequestLog

/-- Keep a request. -/
def note (request : StoreRequest) : Proc RequestLog Unit :=
  Proc.modify fun world => { world with requests := world.requests ++ [request] }

instance : AuditStores RequestLog where
  stamp := do return (← Proc.get).stamp
  add _ row := do
    note (.add row)
    return .ok ()
  commit _ := do
    note .commit
    return .ok ()
  close _ := note .close

end RequestLog

/-- An invocation of a logger. -/
structure Recording where
  redacted : List String
  event : Event
  extra : Extra
  /-- The number and the time of its row. -/
  stamp : Stamp

namespace Recording

/-- The row of an invocation, if its event has a serialized form. -/
def row? (r : Recording) : Option Row :=
  ((Row.record r.stamp r.event r.redacted).toOption).map (·.withExtra r.extra)

/-- What the logger sees when it is invoked. -/
def opening (r : Recording) : View (Holdings Unit) RequestLog where
  own := { memory := () }
  context := Context.empty.put AuditLogger.storeKey ⟨TypeName.store, .store 0⟩ false
  outside := { stamp := r.stamp }

/-- What the logger asks its store for. -/
def requests (r : Recording) : List StoreRequest :=
  (((AuditLogger.lifecycle TypeName.store r.redacted).invoke (.event r.event) r.extra)
    r.opening).state.outside.requests

/-- A logger adds its row, commits and closes, in this order. -/
theorem requests_of_row {r : Recording} {row : Row} (recorded : r.row? = some row) :
    r.requests = [.add row, .commit, .close] := by
  rcases r with ⟨redacted, ⟨type, payload⟩, extra, stamp⟩
  cases payload with
  | error reason => contradiction
  | ok payload =>
      cases recorded
      rfl

/-- A logger that has no row to write closes its store nevertheless. -/
theorem requests_of_no_row {r : Recording} (unrecorded : r.row? = none) :
    r.requests = [.close] := by
  rcases r with ⟨redacted, ⟨type, payload⟩, extra, stamp⟩
  cases payload with
  | error reason => rfl
  | ok payload => contradiction

end Recording

/-! ## Interleavings -/

variable {ι : Type} [DecidableEq ι]

/-- What one of several invocations asks for, when requests come from all of them. -/
def requestsOf (i : ι) (schedule : List (ι × StoreRequest)) : List StoreRequest :=
  schedule.filterMap fun entry => if entry.1 = i then some entry.2 else none

theorem requestsOf_append (i : ι) (first second : List (ι × StoreRequest)) :
    requestsOf i (first ++ second) = requestsOf i first ++ requestsOf i second :=
  List.filterMap_append

@[simp]
theorem requestsOf_cons_self (i : ι) (request : StoreRequest)
    (schedule : List (ι × StoreRequest)) :
    requestsOf i ((i, request) :: schedule) = request :: requestsOf i schedule := by
  simp [requestsOf]

theorem mem_requestsOf_iff (i : ι) (request : StoreRequest) (schedule : List (ι × StoreRequest)) :
    request ∈ requestsOf i schedule ↔ (i, request) ∈ schedule := by
  simp [requestsOf]

/-- The requests of all invocations, in an order that keeps the order of each. -/
def Interleaves (recordings : ι → Recording) (schedule : List (ι × StoreRequest)) : Prop :=
  ∀ i, requestsOf i schedule = (recordings i).requests

/-- The close of one invocation comes between the addition of a row by another and the
first commit after that. -/
def Discards (schedule : List (ι × StoreRequest)) (closing adding : ι) (row : Row) : Prop :=
  ∃ before between after,
    schedule = before ++ (adding, .add row) :: (between ++ (closing, .close) :: after) ∧
      ∀ entry ∈ between, entry.2 ≠ .commit

namespace StoreRequest

/-- The next of these requests that is no addition is a commit. -/
def commitsFirst : List StoreRequest → Bool
  | [] => false
  | .add _ :: rest => commitsFirst rest
  | .commit :: _ => true
  | .close :: _ => false

end StoreRequest

open StoreRequest

namespace RowStore

/-- A row that nobody adds any more is committed as often as it was, and once more for
each time that it is staged if a commit comes before a close. -/
theorem count_committed_serveAll {row : Row} {requests : List StoreRequest}
    (absent : .add row ∉ requests) (s : RowStore) :
    (s.serveAll requests).committed.count row =
      s.committed.count row + if commitsFirst requests then s.staged.count row else 0 := by
  induction requests generalizing s with
  | nil => simp [serveAll, commitsFirst]
  | cons request rest ih =>
      rw [List.mem_cons, not_or] at absent
      have served : (s.serveAll (request :: rest)).committed.count row =
          ((s.serve request).serveAll rest).committed.count row := rfl
      rw [served, ih absent.2]
      cases request with
      | add other =>
          have differs : other ≠ row := fun same => absent.1 (same ▸ rfl)
          have stagedEq : (s.staged ++ [other]).count row = s.staged.count row := by
            simp [differs]
          simp only [serve, add, stagedEq]
          rfl
      | commit => simp [serve, commit, commitsFirst]
      | close => simp [serve, close, commitsFirst]

theorem staged_serveAll {row : Row} {requests : List StoreRequest} (absent : .add row ∉ requests)
    {s : RowStore} (unstaged : row ∉ s.staged) : row ∉ (s.serveAll requests).staged := by
  induction requests generalizing s with
  | nil => exact unstaged
  | cons request rest ih =>
      rw [List.mem_cons, not_or] at absent
      apply ih absent.2
      cases request with
      | add other =>
          have differs : row ≠ other := fun same => absent.1 (same ▸ rfl)
          simp [serve, add, unstaged, differs]
      | commit => simp [serve, commit]
      | close => simp [serve, close]

/-- A row that is new to the store and is added once is committed once if a commit comes
before a close, and otherwise not at all. -/
theorem count_committed_of_added_once {row : Row} {before after : List StoreRequest}
    (absentBefore : .add row ∉ before) (absentAfter : .add row ∉ after) {s : RowStore}
    (unstaged : row ∉ s.staged) (uncommitted : row ∉ s.committed) :
    (s.serveAll (before ++ .add row :: after)).committed.count row =
      if commitsFirst after then 1 else 0 := by
  have countBefore : (s.serveAll before).committed.count row = 0 := by
    rw [count_committed_serveAll absentBefore, List.count_eq_zero.mpr uncommitted,
      List.count_eq_zero.mpr unstaged]
    simp
  have stagedBefore : (s.serveAll before).staged.count row = 0 :=
    List.count_eq_zero.mpr (staged_serveAll absentBefore unstaged)
  have served : s.serveAll (before ++ .add row :: after) =
      ((s.serveAll before).add row).serveAll after := by
    simp [serveAll, serve]
  rw [served, count_committed_serveAll absentAfter]
  simp [add, countBefore, stagedBefore]

end RowStore

omit [DecidableEq ι] in
/-- Where a commit is to come, a close comes before it if and only if it comes behind
requests that are no commits. -/
theorem commitsFirst_eq_false_iff {schedule : List (ι × StoreRequest)}
    (commits : .commit ∈ schedule.map (·.2)) :
    commitsFirst (schedule.map (·.2)) = false ↔
      ∃ between closing after, schedule = between ++ (closing, .close) :: after ∧
        ∀ entry ∈ between, entry.2 ≠ .commit := by
  induction schedule with
  | nil => simp at commits
  | cons entry rest ih =>
      rcases entry with ⟨i, request⟩
      cases request with
      | add row =>
          have commitsRest : .commit ∈ rest.map (·.2) := by simpa using commits
          rw [List.map_cons, commitsFirst, ih commitsRest]
          constructor
          · rintro ⟨between, closing, after, rfl, noCommit⟩
            exact ⟨(i, .add row) :: between, closing, after, rfl, by simpa using noCommit⟩
          · rintro ⟨between, closing, after, scheduleEq, noCommit⟩
            cases between with
            | nil => cases scheduleEq
            | cons first others =>
                cases scheduleEq
                rw [List.forall_mem_cons] at noCommit
                exact ⟨others, closing, after, rfl, noCommit.2⟩
      | commit =>
          simp only [List.map_cons, commitsFirst, Bool.true_eq_false, false_iff]
          rintro ⟨between, closing, after, scheduleEq, noCommit⟩
          cases between with
          | nil => cases scheduleEq
          | cons first others =>
              cases scheduleEq
              exact noCommit _ List.mem_cons_self rfl
      | close =>
          simp only [List.map_cons, commitsFirst, true_iff]
          exact ⟨[], i, rest, rfl, by simp⟩

namespace Interleaves

variable {recordings : ι → Recording} {schedule : List (ι × StoreRequest)}

/-- An invocation with a row adds it at one place, and commits and closes behind that. -/
theorem exists_split (interleaves : Interleaves recordings schedule) {i : ι} {row : Row}
    (recorded : (recordings i).row? = some row) :
    ∃ before after, schedule = before ++ (i, .add row) :: after ∧ requestsOf i before = [] ∧
      requestsOf i after = [.commit, .close] := by
  have requestsEq := interleaves i
  rw [Recording.requests_of_row recorded] at requestsEq
  obtain ⟨before, entry, after, rfl, skipped, found, requestsAfter⟩ :=
    List.filterMap_eq_cons_iff.mp requestsEq
  rcases entry with ⟨j, request⟩
  obtain ⟨rfl, rfl⟩ : j = i ∧ request = .add row := by simpa using found
  exact ⟨before, after, rfl, List.filterMap_eq_nil_iff.mpr skipped, requestsAfter⟩

/-- Only the invocation that a row belongs to adds it. -/
theorem eq_of_mem (interleaves : Interleaves recordings schedule) {j : ι} {row : Row}
    (mem : (j, .add row) ∈ schedule) : (recordings j).row? = some row := by
  rw [← mem_requestsOf_iff, interleaves j] at mem
  cases recorded : (recordings j).row? with
  | none => simp [Recording.requests_of_no_row recorded] at mem
  | some other =>
      rw [Recording.requests_of_row recorded] at mem
      have same : row = other := by simpa using mem
      rw [same]

end Interleaves

/-- A row is discarded if the requests behind its addition come to a close before they
come to a commit. -/
theorem exists_discards_iff {schedule before after : List (ι × StoreRequest)} {i : ι} {row : Row}
    (scheduleEq : schedule = before ++ (i, .add row) :: after)
    (absentBefore : requestsOf i before = [])
    (requestsAfter : requestsOf i after = [.commit, .close]) :
    (∃ j, j ≠ i ∧ Discards schedule j i row) ↔ commitsFirst (after.map (·.2)) = false := by
  have commits : .commit ∈ after.map (·.2) := by
    have mem : (i, .commit) ∈ after := by simp [← mem_requestsOf_iff, requestsAfter]
    exact List.mem_map_of_mem (f := (·.2)) mem
  have addedBefore : (i, .add row) ∉ before := by simp [← mem_requestsOf_iff, absentBefore]
  have addedAfter : (i, .add row) ∉ after := by simp [← mem_requestsOf_iff, requestsAfter]
  rw [commitsFirst_eq_false_iff commits]
  constructor
  · rintro ⟨j, _, others, between, rest, splitEq, noCommit⟩
    rw [scheduleEq, List.append_cons_inj_of_notMem addedBefore addedAfter] at splitEq
    exact ⟨between, j, rest, splitEq.2.2, noCommit⟩
  · rintro ⟨between, j, rest, rfl, noCommit⟩
    refine ⟨j, ?_, before, between, rest, scheduleEq, noCommit⟩
    -- The invocation itself commits before it closes.
    rintro rfl
    rw [requestsOf_append, requestsOf_cons_self] at requestsAfter
    cases own : requestsOf j between with
    | nil =>
        rw [own] at requestsAfter
        cases requestsAfter
    | cons first others =>
        rw [own, List.cons_append, List.cons.injEq] at requestsAfter
        have mem : (j, .commit) ∈ between := by
          rw [← mem_requestsOf_iff, own, requestsAfter.1]
          exact List.mem_cons_self
        exact noCommit _ mem rfl

/-- Several invocations of loggers share a store that none of their rows is in, and no two
of them have the same row.  In whatever order their requests come, the row of an
invocation is committed once in the end, unless the close of another invocation comes
between its addition and the first commit after that; then it is not committed at all. -/
theorem committed_count_of_interleaves (recordings : ι → Recording)
    (schedule : List (ι × StoreRequest)) (interleaves : Interleaves recordings schedule)
    (distinct : ∀ i j row, (recordings i).row? = some row → (recordings j).row? = some row → i = j)
    (s : RowStore)
    (new : ∀ i row, (recordings i).row? = some row → row ∉ s.staged ∧ row ∉ s.committed)
    (i : ι) (row : Row) (recorded : (recordings i).row? = some row) :
    ((¬ ∃ j, j ≠ i ∧ Discards schedule j i row) →
      (s.serveAll (schedule.map (·.2))).committed.count row = 1) ∧
    ((∃ j, j ≠ i ∧ Discards schedule j i row) →
      (s.serveAll (schedule.map (·.2))).committed.count row = 0) := by
  obtain ⟨before, after, rfl, requestsBefore, requestsAfter⟩ := interleaves.exists_split recorded
  -- Nobody else adds the row, and the invocation adds it once.
  have addedBy : ∀ j, (j, .add row) ∈ before ++ (i, .add row) :: after → j = i := by
    intro j mem
    exact distinct j i row (interleaves.eq_of_mem mem) recorded
  have absentBefore : .add row ∉ before.map (·.2) := by
    intro mem
    rcases List.mem_map.mp mem with ⟨⟨j, _⟩, entryMem, rfl⟩
    obtain rfl := addedBy j (List.mem_append_left _ entryMem)
    rw [← mem_requestsOf_iff, requestsBefore] at entryMem
    exact absurd entryMem List.not_mem_nil
  have absentAfter : .add row ∉ after.map (·.2) := by
    intro mem
    rcases List.mem_map.mp mem with ⟨⟨j, _⟩, entryMem, rfl⟩
    obtain rfl := addedBy j (List.mem_append_right _ (List.mem_cons_of_mem _ entryMem))
    rw [← mem_requestsOf_iff, requestsAfter] at entryMem
    simp at entryMem
  have countEq := RowStore.count_committed_of_added_once absentBefore absentAfter
    (new i row recorded).1 (new i row recorded).2
  rw [exists_discards_iff rfl requestsBefore requestsAfter, List.map_append, List.map_cons, countEq]
  cases commitsFirst (after.map (·.2)) <;> simp

end Courier

/-! ## Two visits

Two visitors are recorded at the same time.  The second is through with its commit when
the first is added, and closes the store before the first is committed. -/

namespace Courier.Shop

/-- The recording of a visitor. -/
def visit (n : Nat) : Recording where
  redacted := []
  event := ⟨⟨"shop::Visited", "Visited"⟩, .ok (.object [])⟩
  extra := ∅
  stamp := ⟨⟨n⟩, ⟨n, 0⟩⟩

def visitRow (n : Nat) : Row where
  stamp := ⟨⟨n⟩, ⟨n, 0⟩⟩
  userId := none
  objectId := none
  eventType := "Visited"
  event := .object []
  info := none

theorem visit_row (n : Nat) : (visit n).row? = some (visitRow n) :=
  rfl

theorem visitRow_injective : Function.Injective visitRow := by
  intro m n same
  injection same with stampEq
  injection stampEq with idEq
  injection idEq

def visits (i : Fin 2) : Recording :=
  visit i

/-- The order in which the store gets the requests of both. -/
def crossed : List (Fin 2 × StoreRequest) :=
  [(1, .add (visitRow 1)), (1, .commit), (0, .add (visitRow 0)), (1, .close), (0, .commit),
    (0, .close)]

theorem crossed_interleaves : Interleaves visits crossed := by
  unfold Interleaves
  decide

theorem visits_distinct (i j : Fin 2) (row : Row) (first : (visits i).row? = some row)
    (second : (visits j).row? = some row) : i = j := by
  rw [visits, visit_row] at first second
  exact Fin.ext (visitRow_injective (Option.some.inj (first.trans second.symm)))

end Courier.Shop

namespace Courier

/-- Not every row that is added and committed is kept: the first visitor is not in the
log. -/
theorem crossed_visits_lose_row :
    Interleaves Shop.visits Shop.crossed ∧
      (∀ i j row, (Shop.visits i).row? = some row → (Shop.visits j).row? = some row → i = j) ∧
      (Shop.visits 0).row? = some (Shop.visitRow 0) ∧
      (({} : RowStore).serveAll (Shop.crossed.map (·.2))).committed = [Shop.visitRow 1] ∧
      Shop.visitRow 0 ∉ (({} : RowStore).serveAll (Shop.crossed.map (·.2))).committed :=
  ⟨Shop.crossed_interleaves, Shop.visits_distinct, rfl, rfl, by decide⟩

/-- The close of the second visitor drops the row of the first. -/
theorem committed_count_of_interleaves_visits :
    Interleaves Shop.visits Shop.crossed ∧
      (∀ i j row, (Shop.visits i).row? = some row → (Shop.visits j).row? = some row → i = j) ∧
      (∀ i row, (Shop.visits i).row? = some row →
        row ∉ ({} : RowStore).staged ∧ row ∉ ({} : RowStore).committed) ∧
      (Shop.visits 0).row? = some (Shop.visitRow 0) ∧
      (∃ j, j ≠ 0 ∧ Discards Shop.crossed j 0 (Shop.visitRow 0)) ∧
      (({} : RowStore).serveAll (Shop.crossed.map (·.2))).committed.count
        (Shop.visitRow 0) = 0 := by
  have new : ∀ i row, (Shop.visits i).row? = some row →
      row ∉ ({} : RowStore).staged ∧ row ∉ ({} : RowStore).committed := by
    simp
  have discards : ∃ j, j ≠ 0 ∧ Discards Shop.crossed j 0 (Shop.visitRow 0) :=
    ⟨1, by decide, [(1, .add (Shop.visitRow 1)), (1, .commit)], [], [(0, .commit), (0, .close)],
      rfl, by simp⟩
  exact ⟨Shop.crossed_interleaves, Shop.visits_distinct, new, rfl, discards,
    (committed_count_of_interleaves Shop.visits Shop.crossed Shop.crossed_interleaves
      Shop.visits_distinct {} new 0 _ rfl).2 discards⟩

end Courier
