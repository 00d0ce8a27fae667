import Courier.Proofs.Worker.Afresh
import Mathlib.Data.List.Perm.Basic

/-!
# One envelope after another

Where a worker starts afresh with every envelope, none of them has any influence on what becomes of
the others.  The fate of one is how it has come out, what it has published, and what it has written
to the shared log.  It is the same wherever nothing is staged (`StartsAfresh.recurs`), so that a
pass over the same envelopes in another order has the same fates in that order, and the same report.
-/

namespace Courier

open Courier.Action

variable {τ ω κ : Type}

/-- What has become of an envelope. -/
structure Fate where
  envelope : Envelope
  result : Except ServiceError (List Dispatched)
  /-- What has joined the queue. -/
  published : List Envelope
  /-- What has been written to the shared log. -/
  rows : List Row

/-- The same fate, with no number of a row and no time told. -/
def Fate.anonymous (f : Fate) : Fate where
  envelope := f.envelope
  result := f.result.map (List.map Dispatched.unnumbered)
  published := f.published
  rows := f.rows.map Row.unstamped

/-- The report with further results counted. -/
def WorkerReport.tally (report : WorkerReport)
    (results : List (Except ServiceError (List Dispatched))) : WorkerReport where
  processed := report.processed + results.countP (·.isOk)
  failed := report.failed + results.countP (!·.isOk)

/-- The shared log has nothing staged. -/
def Outlook.Idle (o : Outlook ω κ) (outside : ω) : Prop :=
  ∃ log, o.log? outside = some log ∧ log.staged = []

/-- These rows have come behind those of the shared log, and nothing is staged. -/
def Outlook.Gains (o : Outlook ω κ) (rows : List Row) (outside outside' : ω) : Prop :=
  ∃ log log', o.log? outside = some log ∧ o.log? outside' = some log' ∧ log'.staged = [] ∧
    log'.committed = log.committed ++ rows

/-- The queue has no limit, and the shared log has nothing staged. -/
structure Workplace.Idle (o : Outlook ω κ) (s : Workplace ω) : Prop where
  unlimited : s.queue.limit = none
  outside : o.Idle s.outside

namespace Worker

/-- An envelope is processed, and this becomes of it. -/
structure Yields (worker : Worker (Holdings τ) ω) (o : Outlook ω κ) (budget : Nat)
    (s : Workplace ω) (f : Fate) (s' : Workplace ω) : Prop where
  processed : (worker.process budget f.envelope).Returns s f.result s'
  queue : s'.queue = s.queue.joined f.published
  log : o.Gains f.rows s.outside s'.outside

/-- Envelopes are processed one after the other, and these are their fates. -/
inductive YieldsAll (worker : Worker (Holdings τ) ω) (o : Outlook ω κ) (budget : Nat) :
    Workplace ω → List Fate → Workplace ω → Prop
  | nothing {s : Workplace ω} : YieldsAll worker o budget s [] s
  | envelope {f : Fate} {rest : List Fate} {s middle s' : Workplace ω} :
      Yields worker o budget s f middle → YieldsAll worker o budget middle rest s' →
      YieldsAll worker o budget s (f :: rest) s'

/-- Wherever the envelope is processed with nothing staged, its fate is the same but for numbers and
times. -/
def Recurs (worker : Worker (Holdings τ) ω) (o : Outlook ω κ) (budget : Nat) (f : Fate) : Prop :=
  ∀ t : Workplace ω, t.Idle o →
    ∃ f' t', worker.Yields o budget t f' t' ∧ f'.anonymous = f.anonymous

/-- A pass over the queue: what it reports, what has become of each envelope that it has found, and
what it leaves. -/
structure Clears (worker : Worker (Holdings τ) ω) (o : Outlook ω κ) (budget : Nat)
    (s : Workplace ω) (report : WorkerReport) (fates : List Fate) (s' : Workplace ω) : Prop where
  returned : (worker.runPending budget).Returns s report s'
  envelopes : fates.map (·.envelope) = s.queue.pending
  yields : worker.YieldsAll o budget (s.putQueue { s.queue with pending := [] }) fates s'
  published : s'.queue.pending = fates.flatMap (·.published)
  rows : o.Gains (fates.flatMap (·.rows)) s.outside s'.outside

end Worker

/-! ## Reports -/

namespace WorkerReport

variable (report : WorkerReport)

@[simp]
theorem tally_nil : report.tally [] = report := by
  simp [tally]

theorem tally_tally (first second : List (Except ServiceError (List Dispatched))) :
    (report.tally first).tally second = report.tally (first ++ second) := by
  simp [tally, Nat.add_assoc]

/-- It does not matter for a report which number which row has, or what came first. -/
theorem tally_of_perm {fates fates' : List Fate}
    (perm : (fates'.map Fate.anonymous).Perm (fates.map Fate.anonymous)) :
    report.tally (fates'.map (·.result)) = report.tally (fates.map (·.result)) := by
  have ends : ∀ f : Fate, f.anonymous.result.isOk = f.result.isOk := by
    intro f
    rw [Fate.anonymous]
    cases f.result <;> rfl
  have tallied : ∀ bs : List Fate,
      report.tally (bs.map (·.result)) =
        ⟨report.processed + (bs.map Fate.anonymous).countP (·.result.isOk),
          report.failed + (bs.map Fate.anonymous).countP (!·.result.isOk)⟩ := by
    intro bs
    simp [tally, List.countP_map, Function.comp_def, ends]
  rw [tallied, tallied, perm.countP_eq, perm.countP_eq]

end WorkerReport

/-! ## The shared log -/

namespace Outlook

variable {o : Outlook ω κ} {rows more : List Row} {outside middle outside' : ω}

theorem Gains.idle (gains : o.Gains rows outside outside') : o.Idle outside' := by
  obtain ⟨_, log', _, shown, unstaged, _⟩ := gains
  exact ⟨log', shown, unstaged⟩

theorem Idle.gains_nothing (idle : o.Idle outside) : o.Gains [] outside outside := by
  obtain ⟨log, shown, unstaged⟩ := idle
  exact ⟨log, log, shown, shown, unstaged, by simp⟩

theorem Gains.trans (first : o.Gains rows outside middle) (second : o.Gains more middle outside') :
    o.Gains (rows ++ more) outside outside' := by
  obtain ⟨log, between, shown, shownBetween, _, committed⟩ := first
  obtain ⟨between', log', shownBetween', shown', unstaged, committed'⟩ := second
  obtain rfl := Option.some.inj (shownBetween.symm.trans shownBetween')
  exact ⟨log, log', shown, shown', unstaged, by rw [committed', committed, List.append_assoc]⟩

theorem Gains.unique (first : o.Gains rows outside outside')
    (second : o.Gains more outside outside') : rows = more := by
  obtain ⟨log, log', shown, shown', _, committed⟩ := first
  obtain ⟨again, again', shownAgain, shownAgain', _, committed'⟩ := second
  obtain rfl := Option.some.inj (shown.symm.trans shownAgain)
  obtain rfl := Option.some.inj (shown'.symm.trans shownAgain')
  exact List.append_cancel_left (committed.symm.trans committed')

end Outlook

namespace Worker

variable {worker : Worker (Holdings τ) ω} {o : Outlook ω κ} {budget : Nat}
  {s s' t : Workplace ω} {f f' : Fate} {fates : List Fate} {report report' : WorkerReport}

/-! ## One envelope -/

theorem Yields.idle (yields : worker.Yields o budget s f s') (idle : s.Idle o) : s'.Idle o where
  unlimited := by rw [yields.queue]; exact idle.unlimited
  outside := yields.log.idle

/-- What becomes of an envelope can be told from the place where it was processed. -/
theorem Yields.unique (first : worker.Yields o budget s f s')
    (second : worker.Yields o budget s f' s') (envelope : f.envelope = f'.envelope) : f = f' := by
  have result : f.result = f'.result := by
    have processed := second.processed
    rw [← envelope] at processed
    exact (first.processed.unique processed).1
  have published : f.published = f'.published :=
    List.append_cancel_left (congrArg EventQueue.pending (first.queue.symm.trans second.queue))
  have rows : f.rows = f'.rows := first.log.unique second.log
  cases f
  cases f'
  simp only [Fate.mk.injEq]
  exact ⟨envelope, result, published, rows⟩

namespace StartsAfresh

variable [AuditStores ω] {bus : Bus (Holdings τ) ω} {fresh : κ}
  (afresh : worker.StartsAfresh o bus fresh)

include afresh

/-- What becomes of an envelope in one idle place becomes of it in any other. -/
theorem exists_fates (idle : s.Idle o) (idle' : t.Idle o) {v : Envelope}
    {r : Except ServiceError (List Dispatched)}
    (returned : (worker.process budget v).Returns s r s') :
    ∃ f f' t', worker.Yields o budget s f s' ∧ worker.Yields o budget t f' t' ∧
      f.envelope = v ∧ f.result = r ∧ f'.anonymous = f.anonymous := by
  obtain ⟨unlimited, log, shown, unstaged⟩ := idle
  obtain ⟨unlimited', log', shown', unstaged'⟩ := idle'
  have alike : Workplace.Alike s.queue t.queue
      (o.LogsAlike log.committed log'.committed False) s t :=
    ⟨.refl _ _, log, log', shown, shown', .start unstaged unstaged'⟩
  obtain ⟨r', t', returned', sameResults, ⟨published, queueEq, queueEq'⟩, after, after', shownAfter,
      shownAfter', logs⟩ :=
    afresh.process_mirrors unlimited unlimited' _ _ budget v s t r s' alike returned
  obtain ⟨rows, rows', committed, committed', sameRows⟩ := logs.committed
  have idle : after.staged = [] := logs.idle id
  have idle' : after'.staged = [] := logs.idle_right id
  refine ⟨⟨v, r, published, rows⟩, ⟨v, r', published, rows'⟩, t', ?_, ?_, rfl, rfl, ?_⟩
  · exact ⟨returned, queueEq, log, after, shown, shownAfter, idle, committed⟩
  · exact ⟨returned', queueEq', log', after', shown', shownAfter', idle', committed'⟩
  · simp only [Fate.anonymous, sameRows]
    rw [show r'.map _ = r.map _ from sameResults.symm]

theorem exists_yields (idle : s.Idle o) {v : Envelope} {r : Except ServiceError (List Dispatched)}
    (returned : (worker.process budget v).Returns s r s') :
    ∃ f, worker.Yields o budget s f s' ∧ f.envelope = v ∧ f.result = r := by
  obtain ⟨f, _, _, yields, _, envelope, result, _⟩ := afresh.exists_fates idle idle returned
  exact ⟨f, yields, envelope, result⟩

/-- What has become of an envelope once becomes of it again. -/
theorem recurs (idle : s.Idle o) (yields : worker.Yields o budget s f s') :
    worker.Recurs o budget f := by
  intro t idle'
  obtain ⟨same, f', t', yieldsSame, yields', envelope, _, anonymous⟩ :=
    afresh.exists_fates idle idle' yields.processed
  obtain rfl := yieldsSame.unique yields envelope
  exact ⟨f', t', yields', anonymous⟩

end StartsAfresh

/-! ## One after another -/

/-- However an envelope comes out, the others are processed after it. -/
theorem processAll_cons_returns_iff (v : Envelope) (rest : List Envelope) :
    (worker.processAll budget report (v :: rest)).Returns s report' s' ↔
      ∃ r middle, (worker.process budget v).Returns s r middle ∧
        (worker.processAll budget (report.tally [r]) rest).Returns middle report' s' := by
  simp only [processAll, returns_bind_iff]
  refine exists_congr fun r => exists_congr fun middle => and_congr_right fun _ => ?_
  cases r with
  | ok results => rfl
  | error error =>
      simp only [returns_bind_iff, returns_tell_iff]
      constructor
      · rintro ⟨_, _, rfl, returned⟩
        exact returned
      · exact fun returned => ⟨(), _, rfl, returned⟩

namespace YieldsAll

/-- A run of `processAll` leads to these fates, and counts them. -/
theorem returns (yields : worker.YieldsAll o budget s fates s') (report : WorkerReport) :
    (worker.processAll budget report (fates.map (·.envelope))).Returns s
      (report.tally (fates.map (·.result))) s' := by
  induction yields generalizing report with
  | nothing => exact ⟨congrArg _ (report.tally_nil).symm, rfl⟩
  | @envelope f rest s middle s' first _ ih =>
      refine (processAll_cons_returns_iff _ _).mpr ⟨f.result, middle, first.processed, ?_⟩
      have others := ih (report.tally [f.result])
      rwa [WorkerReport.tally_tally] at others

theorem idle (yields : worker.YieldsAll o budget s fates s') (idle : s.Idle o) : s'.Idle o := by
  induction yields with
  | nothing => exact idle
  | envelope first _ ih => exact ih (first.idle idle)

/-- In the queue everything comes in the order of the fates. -/
theorem queue (yields : worker.YieldsAll o budget s fates s') :
    s'.queue = s.queue.joined (fates.flatMap (·.published)) := by
  induction yields with
  | nothing => simp
  | envelope first _ ih => rw [ih, first.queue, EventQueue.joined_joined, List.flatMap_cons]

/-- In the shared log, too. -/
theorem log (yields : worker.YieldsAll o budget s fates s') (idle : o.Idle s.outside) :
    o.Gains (fates.flatMap (·.rows)) s.outside s'.outside := by
  induction yields with
  | nothing => exact idle.gains_nothing
  | envelope first _ ih => exact first.log.trans (ih first.log.idle)

end YieldsAll

/-- Fates that recur may be had in any order, and from any idle place. -/
theorem exists_yieldsAll_of_recurs (recurs : ∀ f ∈ fates, worker.Recurs o budget f)
    (idle : t.Idle o) :
    ∃ fates' t', worker.YieldsAll o budget t fates' t' ∧
      fates'.map Fate.anonymous = fates.map Fate.anonymous := by
  induction fates generalizing t with
  | nil => exact ⟨[], t, .nothing, rfl⟩
  | cons f rest ih =>
      obtain ⟨f', middle, first, anonymous⟩ := recurs f List.mem_cons_self t idle
      obtain ⟨rest', t', others, anonymousRest⟩ :=
        ih (fun f mem => recurs f (List.mem_cons_of_mem _ mem)) (first.idle idle)
      exact ⟨f' :: rest', t', .envelope first others, by simp [anonymous, anonymousRest]⟩

/-- A pass takes all envelopes out of the queue and processes them in order. -/
theorem runPending_returns_iff :
    (worker.runPending budget).Returns s report s' ↔
      (worker.processAll budget {} s.queue.pending).Returns
        (s.putQueue { s.queue with pending := [] }) report s' := by
  simp only [runPending, EventQueue.takeAll, returns_bind_iff, returns_within_iff, returns_get_iff,
    returns_modify_iff, returns_tell_iff, returns_pure_iff]
  constructor
  · rintro ⟨_, _, ⟨_, ⟨_, _, ⟨rfl, rfl⟩, _, _, rfl, rfl, rfl⟩, rfl⟩, _, _, returned, _, _, rfl, rfl,
      rfl⟩
    exact returned
  · intro returned
    exact ⟨_, _, ⟨_, ⟨_, _, ⟨rfl, rfl⟩, (), _, rfl, rfl, rfl⟩, rfl⟩, _, _, returned, (), _, rfl,
      rfl, rfl⟩

/-- All envelopes that are found in the queue, one after another, make a pass. -/
theorem YieldsAll.clears
    (yields : worker.YieldsAll o budget (s.putQueue { s.queue with pending := [] }) fates s')
    (envelopes : fates.map (·.envelope) = s.queue.pending) (idle : o.Idle s.outside) :
    worker.Clears o budget s (WorkerReport.tally {} (fates.map (·.result))) fates s' where
  returned := by
    rw [runPending_returns_iff, ← envelopes]
    exact yields.returns {}
  envelopes := envelopes
  yields := yields
  published := by
    rw [yields.queue]
    rfl
  rows := yields.log idle

namespace StartsAfresh

variable [AuditStores ω] {bus : Bus (Holdings τ) ω} {fresh : κ}
  (afresh : worker.StartsAfresh o bus fresh)

include afresh

/-- What `processAll` has done can be told envelope by envelope, and each fate recurs. -/
theorem exists_yieldsAll {vs : List Envelope} (idle : s.Idle o)
    (returned : (worker.processAll budget report vs).Returns s report' s') :
    ∃ fates, worker.YieldsAll o budget s fates s' ∧ fates.map (·.envelope) = vs ∧
      report' = report.tally (fates.map (·.result)) ∧
      ∀ f ∈ fates, worker.Recurs o budget f := by
  induction vs generalizing report s with
  | nil =>
      simp only [processAll, returns_pure_iff] at returned
      obtain ⟨rfl, rfl⟩ := returned
      exact ⟨[], .nothing, rfl, by simp, by simp⟩
  | cons v rest ih =>
      obtain ⟨r, middle, processed, returnedRest⟩ :=
        (processAll_cons_returns_iff v rest).mp returned
      obtain ⟨f, yields, rfl, rfl⟩ := afresh.exists_yields idle processed
      obtain ⟨fates, others, envelopes, reportEq, recurs⟩ := ih (yields.idle idle) returnedRest
      refine ⟨f :: fates, .envelope yields others, by simp [envelopes], ?_, ?_⟩
      · rw [reportEq, WorkerReport.tally_tally, List.singleton_append, List.map_cons]
      · simpa using ⟨afresh.recurs idle yields, recurs⟩

end StartsAfresh

/-- If a worker starts afresh with every envelope, no envelope has any influence on another.

What `process` returns for an envelope, what it publishes and what it writes to the shared log do
not depend on the envelopes before it, but for the numbers and the times of rows; if it returns
after some envelopes, it returns after any others.  A pass over the same envelopes in another order
gives the same report, and has the same fates in that order: so it leaves the same in the queue and
in the log, but permuted. -/
theorem StartsAfresh.isolates [AuditStores ω] {bus : Bus (Holdings τ) ω} {fresh : κ}
    (afresh : worker.StartsAfresh o bus fresh) :
    (∀ budget earlier earlier' budgetBefore budgetBefore' start start' report report' s s',
      start.Idle o → start'.Idle o →
      (worker.processAll budgetBefore {} earlier).Returns start report s →
      (worker.processAll budgetBefore' {} earlier').Returns start' report' s' →
        ∀ v r after, (worker.process budget v).Returns s r after →
          ∃ f f' after', worker.Yields o budget s f after ∧ worker.Yields o budget s' f' after' ∧
            f.envelope = v ∧ f.result = r ∧ f'.anonymous = f.anonymous) ∧
    ∀ budget count vs vs' outside report s', vs'.Perm vs → o.Idle outside →
      (worker.runPending budget).Returns ⟨{ pending := vs, published := count }, outside⟩ report
          s' →
        ∃ fates fates' s'',
          worker.Clears o budget ⟨{ pending := vs, published := count }, outside⟩ report fates s' ∧
          worker.Clears o budget ⟨{ pending := vs', published := count }, outside⟩ report fates'
            s'' ∧
          (fates'.map Fate.anonymous).Perm (fates.map Fate.anonymous) := by
  constructor
  · intro budget earlier earlier' budgetBefore budgetBefore' start start' report report' s s' idle
      idle' before before' v r after returned
    obtain ⟨_, yields, _⟩ := afresh.exists_yieldsAll idle before
    obtain ⟨_, yields', _⟩ := afresh.exists_yieldsAll idle' before'
    exact afresh.exists_fates (yields.idle idle) (yields'.idle idle') returned
  · intro budget count vs vs' outside report s' perm idle returned
    obtain ⟨fates, yields, envelopes, rfl, recurs⟩ :=
      afresh.exists_yieldsAll ⟨rfl, idle⟩ (runPending_returns_iff.mp returned)
    -- The fates that the other order is to have, as they were in this one.
    obtain ⟨shuffled, shuffledPerm, shuffledEnvelopes⟩ :
        ∃ shuffled : List Fate, shuffled.Perm fates ∧ shuffled.map (·.envelope) = vs' := by
      have mapped : vs'.Perm (fates.map (·.envelope)) := envelopes ▸ perm
      obtain ⟨shuffled, mappedEq, shuffledPerm⟩ :=
        (congrFun₂ (List.eq_map_comp_perm Fate.envelope) vs' fates).mpr mapped
      exact ⟨shuffled, shuffledPerm, mappedEq.symm⟩
    obtain ⟨fates', s'', yields', anonymous⟩ :=
      exists_yieldsAll_of_recurs (fun f mem => recurs f (shuffledPerm.subset mem))
        (t := ⟨{ pending := [], published := count }, outside⟩) ⟨rfl, idle⟩
    have envelopes' : fates'.map (·.envelope) = vs' := by
      have same := congrArg (List.map Fate.envelope) anonymous
      rw [List.map_map, List.map_map] at same
      exact same.trans shuffledEnvelopes
    have sameFates : (fates'.map Fate.anonymous).Perm (fates.map Fate.anonymous) := by
      rw [anonymous]
      exact shuffledPerm.map Fate.anonymous
    refine ⟨fates, fates', s'', yields.clears envelopes idle, ?_, sameFates⟩
    rw [← WorkerReport.tally_of_perm _ sameFates]
    exact yields'.clears envelopes' idle

end Worker

/-! ## Guests

All guests are written into one book.  Each of them is welcomed at a desk of its own, with a bell
that nobody has rung yet. -/

/-- What lies outside the desks. -/
structure Lobby where
  book : RowStore := {}
  /-- How many rows have been given a number. -/
  numbered : Nat := 0
  /-- How often the bell has been rung. -/
  rings : Nat := 0

namespace Lobby

instance : AuditStores Lobby where
  stamp := .step (fun s => { s with numbered := s.numbered + 1 })
    fun s => .done ⟨⟨s.numbered⟩, ⟨s.numbered, 0⟩⟩
  add _ row := .step (fun s => { s with book := s.book.add row }) fun _ => .done (.ok ())
  commit _ := .step (fun s => { s with book := s.book.commit }) fun _ => .done (.ok ())
  close _ := Proc.modify fun s => { s with book := s.book.close }

/-- The bell is seen, and the book is shared. -/
def outlook : Outlook Lobby Nat where
  seen := rings
  log? s := some s.book
  shared _ := True

theorem inMemory (id : StoreId) : InMemory id outlook.log? where
  stamp shown := ⟨_, _, ⟨rfl, rfl⟩, shown⟩
  add row shown := ⟨_, ⟨rfl, rfl⟩, congrArg (Option.map (RowStore.add · row)) shown⟩
  commit shown := ⟨_, ⟨rfl, rfl⟩, congrArg (Option.map RowStore.commit) shown⟩
  close shown := ⟨_, ⟨rfl, rfl⟩, congrArg (Option.map RowStore.close) shown⟩

theorem stores : outlook.Stores where
  stamps _ := ⟨_, _, ⟨rfl, rfl⟩, rfl, rfl⟩
  shared id _ :=
    { inMemory := inMemory id
      add_unseen := by rintro _ s _ _ ⟨_, rfl⟩; rfl
      commit_unseen := by rintro s _ _ ⟨_, rfl⟩; rfl
      close_unseen := by rintro s _ _ ⟨_, rfl⟩; rfl }
  own id notShared := absurd trivial notShared

end Lobby

namespace Desk

def arrived : MessageType := ⟨"desk::Arrived", "Arrived"⟩

def welcomed : MessageType := ⟨"desk::Welcomed", "Welcomed"⟩

/-- Whoever arrives is welcomed. -/
def welcome : Message → List Message
  | .event e => [.event ⟨welcomed, e.payload⟩]
  | .command _ => []

/-- A handler that rings the bell, and tells how often it has been rung before. -/
def porter : Handler (Holdings Unit) Lobby where
  name := "porter"
  accepts := arrived
  behavior := .stateful 1
    { before := .done (.ok ())
      core := fun m _ => .step
        (fun v => { v with outside := { v.outside with rings := v.outside.rings + 1 } })
        fun v => .done ⟨.ok ⟨TypeName.i64, .int v.outside.rings⟩, welcome m⟩
      after := .done () }

def bus : Bus (Holdings Unit) Lobby where
  handlers := Registry.empty.setEventHandlers arrived
    [AuditLogger.handler "EventsLogger" TypeName.store 0 [] arrived, porter]
  context := Context.empty.put AuditLogger.storeKey ⟨TypeName.store, .store 0⟩ false
  instances := fun _ => { memory := () }

def worker : Worker (Holdings Unit) Lobby where
  codec := .ofList [{ type := arrived, shape := .any }]
  makeBus := do
    Action.modify fun s => { s with rings := 0 }
    return bus

def arrival (guest : String) : Envelope :=
  ⟨"Arrived", .object [("user_id", .string guest)]⟩

/-- Two guests, and a letter that nobody can read. -/
def letters : List Envelope :=
  [arrival "u", ⟨"Packed", .null⟩, arrival "v"]

theorem porter_admitted : Lobby.outlook.Admits porter := by
  refine .inr ⟨?_, ?_⟩
  · refine ⟨trivial, ?_, trivial⟩
    intro m x
    refine ⟨?_, fun _ => trivial⟩
    intro v u same
    obtain ⟨ownEq, contextEq, ringsEq⟩ := View.mk.inj same
    have rings : v.outside.rings = u.outside.rings := ringsEq
    simp only [View.seen, Lobby.outlook, ownEq, contextEq, rings]
    trivial
  · intro m x w i w' invoked
    unfold Handler.invoke at invoked
    split at invoked
    · rcases invoked with ⟨_, rfl⟩
      rfl
    · rcases invoked with ⟨_, rfl⟩
      rfl

theorem worker_startsAfresh : worker.StartsAfresh Lobby.outlook bus 0 where
  makes _ := ⟨_, ⟨rfl, rfl⟩, rfl, rfl⟩
  admits := by
    intro m h registered
    cases m with
    | event e =>
        have found : bus.handlers.eventHandlers? e.type = if e.type = arrived then
            some [AuditLogger.handler "EventsLogger" TypeName.store 0 [] arrived, porter]
            else none :=
          Registry.eventHandlers?_setEventHandlers _ _ _ _
        rw [Registry.registered, found] at registered
        split at registered
        · rcases List.mem_cons.mp registered with rfl | registered
          · exact .inl ⟨_, _, _, _, _, rfl⟩
          · obtain rfl := List.mem_singleton.mp registered
            exact porter_admitted
        · simp at registered
    | command c => exact absurd registered List.not_mem_nil
  stores := Lobby.stores

end Desk

namespace Worker.StartsAfresh

/-- A guest who comes after the others is welcomed as if nobody had rung the bell before.  Who comes
first is written down and welcomed first; the letter is dropped. -/
theorem isolates_guests :
    Desk.worker.StartsAfresh Lobby.outlook Desk.bus 0 ∧
      (∃ s f f' after after',
        (Desk.worker.processAll 1 {} Desk.letters).Returns ⟨{}, {}⟩ ⟨2, 1⟩ s ∧
        s.outside.rings = 1 ∧
        Desk.worker.Yields Lobby.outlook 1 ⟨{}, {}⟩ f after ∧
        Desk.worker.Yields Lobby.outlook 1 s f' after' ∧
        f.envelope = Desk.arrival "w" ∧
        f.result.map (List.map (·.output.content)) = .ok [.row ⟨0⟩, .int 0] ∧
        f'.anonymous = f.anonymous) ∧
      ∃ s', (Desk.worker.runPending 1).Returns ⟨{ pending := Desk.letters, published := 3 }, {}⟩
          ⟨2, 1⟩ s' ∧
        s'.outside.book.committed.map (·.userId) = [some "u", some "v"] ∧
        ∃ fates fates' s'',
          Desk.worker.Clears Lobby.outlook 1 ⟨{ pending := Desk.letters, published := 3 }, {}⟩
            ⟨2, 1⟩ fates s' ∧
          Desk.worker.Clears Lobby.outlook 1
            ⟨{ pending := Desk.letters.reverse, published := 3 }, {}⟩ ⟨2, 1⟩ fates' s'' ∧
          (fates'.map Fate.anonymous).Perm (fates.map Fate.anonymous) := by
  obtain ⟨anywhere, inAnyOrder⟩ := Desk.worker_startsAfresh.isolates
  have idle : Lobby.outlook.Idle {} := ⟨{}, rfl, rfl⟩
  have before : (Desk.worker.processAll 1 {} Desk.letters).Returns ⟨{}, {}⟩ ⟨2, 1⟩ _ := ⟨rfl, rfl⟩
  have processed : (Desk.worker.process 1 (Desk.arrival "w")).Returns ⟨{}, {}⟩ _ _ := ⟨rfl, rfl⟩
  obtain ⟨f, f', after', yields, yields', envelope, result, anonymous⟩ :=
    anywhere 1 [] Desk.letters 0 1 _ _ {} _ _ _ ⟨rfl, idle⟩ ⟨rfl, idle⟩ ⟨rfl, rfl⟩ before _ _ _
      processed
  have returned : (Desk.worker.runPending 1).Returns
      ⟨{ pending := Desk.letters, published := 3 }, {}⟩ ⟨2, 1⟩ _ := ⟨rfl, rfl⟩
  refine ⟨Desk.worker_startsAfresh, ?_, _, returned, rfl,
    inAnyOrder 1 3 _ _ {} _ _ (List.reverse_perm _) idle returned⟩
  refine ⟨_, f, f', _, after', before, rfl, yields, yields', envelope, ?_, anonymous⟩
  rw [result]
  rfl

end Worker.StartsAfresh

end Courier
