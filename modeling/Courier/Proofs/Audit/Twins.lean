import Courier.Proofs.Audit.Writing
import Courier.Proofs.Handler.Suspension
import Courier.Proofs.Mirror

/-!
# Alike but for numbers and times

When a logger runs again, its rows get other numbers and other times.  Nothing else comes out
differently if it finds the same in the context and in its instance: the other results are the same,
and the rows say the same.

The store that it writes to may be one that other buses have written to before, if it keeps its rows
in memory and nothing is staged; then all that is behind the rows of the others is alike.  Or it is
a store of the bus's own, which does not look at numbers and times.
-/

namespace Courier

open Courier.Action

/-- The action does not change what `look` shows of the state. -/
def Action.Leaves {S T α : Type} (look : S → T) (action : Action S α) : Prop :=
  ∀ s a s', action.Returns s a s' → look s' = look s

theorem Action.Respects.mirrors {S T α : Type} {look : S → T} {action : Action S α}
    (respects : action.Respects look) :
    Mirrors (fun s t => look s = look t) action action fun a b s t => a = b ∧ look s = look t := by
  intro s t a s' same returned
  obtain ⟨t', returnedToo, sameEnd⟩ := respects same returned
  exact ⟨a, t', returnedToo, rfl, sameEnd⟩

/-! ## Numbers and times -/

/-- The row without its number and its time. -/
def Row.unstamped (row : Row) : Row :=
  { row with stamp := default }

/-- The value, with no number told if it is that of a row. -/
def Value.unnumbered (v : Value) : Value :=
  match v.content with
  | .row _ => { v with content := .row default }
  | _ => v

/-- The invocation, with no number of a row told. -/
def Invocation.unnumbered (i : Invocation) : Invocation :=
  ⟨i.result.map Value.unnumbered, i.emitted⟩

/-- An event has rows or it has none, whatever their number and time. -/
theorem Row.record_alike (stamp stamp' : Stamp) (e : Event) (redacted : List String) :
    (∃ error, record stamp e redacted = .error error ∧ record stamp' e redacted = .error error) ∨
      ∃ row row', record stamp e redacted = .ok row ∧ record stamp' e redacted = .ok row' ∧
        ∀ x, (row.withExtra x).unstamped = (row'.withExtra x).unstamped := by
  unfold record
  cases e.payload with
  | error reason => exact .inl ⟨_, rfl, rfl⟩
  | ok payload => exact .inr ⟨_, _, rfl, rfl, fun _ => rfl⟩

/-- Logs that have the same rows staged but for numbers and times, and have committed the same rows
behind the given ones.  Unless the log is busy nothing is staged. -/
structure RowStore.AlikeSince (base base' : List Row) (busy : Prop) (log log' : RowStore) :
    Prop where
  staged : log.staged.map Row.unstamped = log'.staged.map Row.unstamped
  idle : ¬ busy → log.staged = []
  committed : ∃ rows rows', log.committed = base ++ rows ∧ log'.committed = base' ++ rows' ∧
    rows.map Row.unstamped = rows'.map Row.unstamped

namespace RowStore.AlikeSince

variable {base base' : List Row} {busy busy' : Prop} {log log' : RowStore}

theorem start (idle : log.staged = []) (idle' : log'.staged = []) :
    AlikeSince log.committed log'.committed False log log' where
  staged := by rw [idle, idle']
  idle _ := idle
  committed := ⟨[], [], by simp⟩

theorem mono (alike : AlikeSince base base' busy log log') (imp : busy → busy') :
    AlikeSince base base' busy' log log' :=
  { alike with idle := fun notBusy => alike.idle (notBusy ∘ imp) }

/-- What is not busy on one side is not on the other. -/
theorem idle_right (alike : AlikeSince base base' busy log log') (notBusy : ¬ busy) :
    log'.staged = [] := by
  have staged := alike.staged
  rw [alike.idle notBusy] at staged
  exact List.map_eq_nil_iff.mp staged.symm

theorem add (alike : AlikeSince base base' busy log log') (isBusy : busy) {row row' : Row}
    (same : row.unstamped = row'.unstamped) :
    AlikeSince base base' busy (log.add row) (log'.add row') where
  staged := by simp [RowStore.add, alike.staged, same]
  idle notBusy := absurd isBusy notBusy
  committed := alike.committed

theorem commit (alike : AlikeSince base base' busy log log') :
    AlikeSince base base' busy log.commit log'.commit where
  staged := rfl
  idle _ := rfl
  committed := by
    obtain ⟨rows, rows', committedEq, committedEq', same⟩ := alike.committed
    refine ⟨rows ++ log.staged, rows' ++ log'.staged, ?_, ?_, ?_⟩
    · simp [RowStore.commit, committedEq]
    · simp [RowStore.commit, committedEq']
    · rw [List.map_append, List.map_append, same, alike.staged]

theorem close (alike : AlikeSince base base' busy log log') :
    AlikeSince base base' busy' log.close log'.close where
  staged := rfl
  idle _ := rfl
  committed := alike.committed

end RowStore.AlikeSince

/-! ## The world outside -/

/-- What is told apart of the world outside a bus: what handlers see of it, a log that other buses
have written to, and the names of the store that keeps it. -/
structure Outlook (ω κ : Type) where
  seen : ω → κ
  log? : ω → Option RowStore
  shared : StoreId → Prop

namespace Outlook

variable {ω κ α : Type}

/-- The logs that are shown are alike. -/
def LogsAlike (o : Outlook ω κ) (base base' : List Row) (busy : Prop) (outside outside' : ω) :
    Prop :=
  ∃ log log', o.log? outside = some log ∧ o.log? outside' = some log' ∧
    log.AlikeSince base base' busy log'

/-- The same is seen, and the logs are alike. -/
structure Alike (o : Outlook ω κ) (base base' : List Row) (busy : Prop) (outside outside' : ω) :
    Prop where
  seen : o.seen outside = o.seen outside'
  logs : o.LogsAlike base base' busy outside outside'

variable [AuditStores ω]

/-- A store that keeps the shared log in memory; who sees the rest of the world cannot tell. -/
structure SharedStore (o : Outlook ω κ) (id : StoreId) : Prop where
  inMemory : InMemory id o.log?
  add_unseen : ∀ row, (AuditStores.add id row).run.Leaves o.seen
  commit_unseen : (AuditStores.commit id).run.Leaves o.seen
  close_unseen : (AuditStores.close id).run.Leaves o.seen

/-- Any other store: it is among what is seen, it does not look at numbers and times, and it leaves
the shared log alone. -/
structure OwnStore (o : Outlook ω κ) (id : StoreId) : Prop where
  add_mirrors : ∀ row row', row.unstamped = row'.unstamped →
    Mirrors (fun s t => o.seen s = o.seen t) (AuditStores.add id row).run
      (AuditStores.add id row').run fun r r' s t => r = r' ∧ o.seen s = o.seen t
  commit_respects : (AuditStores.commit id).run.Respects o.seen
  close_respects : (AuditStores.close id).run.Respects o.seen
  add_leaves : ∀ row, (AuditStores.add id row).run.Leaves o.log?
  commit_leaves : (AuditStores.commit id).run.Leaves o.log?
  close_leaves : (AuditStores.close id).run.Leaves o.log?

/-- There is always a stamp for a row, and every store is the shared one or another. -/
structure Stores (o : Outlook ω κ) : Prop where
  stamps : ∀ outside, ∃ stamp outside',
    (AuditStores.stamp : Proc ω Stamp).run.Returns outside stamp outside' ∧
      o.seen outside' = o.seen outside ∧ o.log? outside' = o.log? outside
  shared : ∀ id, o.shared id → o.SharedStore id
  own : ∀ id, ¬ o.shared id → o.OwnStore id

variable {o : Outlook ω κ} {base base' : List Row} {busy busy' : Prop} {p q : Proc ω α}

omit [AuditStores ω] in
theorem Alike.mono {outside outside' : ω} (alike : o.Alike base base' busy outside outside')
    (imp : busy → busy') : o.Alike base base' busy' outside outside' := by
  obtain ⟨seen, log, log', shown, shown', logs⟩ := alike
  exact ⟨seen, log, log', shown, shown', logs.mono imp⟩

omit [AuditStores ω] in
/-- Procedures that are not seen and do alike to the shared log. -/
theorem mirrors_of_shown {a : α} {change change' : RowStore → RowStore}
    (unseen : p.run.Leaves o.seen) (unseen' : q.run.Leaves o.seen)
    (works : ∀ {outside log}, o.log? outside = some log →
      ∃ outside', p.run.Returns outside a outside' ∧ o.log? outside' = some (change log))
    (works' : ∀ {outside log}, o.log? outside = some log →
      ∃ outside', q.run.Returns outside a outside' ∧ o.log? outside' = some (change' log))
    (logs : ∀ {log log' : RowStore}, log.AlikeSince base base' busy log' →
      (change log).AlikeSince base base' busy' (change' log')) :
    Mirrors (o.Alike base base' busy) p.run q.run
      fun r r' s t => r = r' ∧ o.Alike base base' busy' s t := by
  rintro s t r s' ⟨seen, log, log', shown, shown', alike⟩ returned
  obtain ⟨_, expected, shownAfter⟩ := works shown
  obtain ⟨rfl, rfl⟩ := returned.unique expected
  obtain ⟨t', returnedToo, shownAfter'⟩ := works' shown'
  refine ⟨r, t', returnedToo, rfl, ?_, _, _, shownAfter, shownAfter', logs alike⟩
  rw [unseen _ _ _ returned, unseen' _ _ _ returnedToo, seen]

omit [AuditStores ω] in
/-- Procedures that do alike to what is seen and leave the shared log alone. -/
theorem mirrors_of_seen
    (mirrors : Mirrors (fun s t => o.seen s = o.seen t) p.run q.run
      fun r r' s t => r = r' ∧ o.seen s = o.seen t)
    (leaves : p.run.Leaves o.log?) (leaves' : q.run.Leaves o.log?) :
    Mirrors (o.Alike base base' busy) p.run q.run
      fun r r' s t => r = r' ∧ o.Alike base base' busy s t := by
  rintro s t r s' ⟨seen, log, log', shown, shown', alike⟩ returned
  obtain ⟨r', t', returnedToo, same, seenAfter⟩ := mirrors s t r s' seen returned
  refine ⟨r', t', returnedToo, same, seenAfter, log, log', ?_, ?_, alike⟩
  · rw [leaves _ _ _ returned, shown]
  · rw [leaves' _ _ _ returnedToo, shown']

namespace Stores

variable (stores : o.Stores) (base base' : List Row)

include stores

theorem stamp_mirrors (busy : Prop) :
    Mirrors (o.Alike base base' busy) (AuditStores.stamp : Proc ω Stamp).run
      (AuditStores.stamp : Proc ω Stamp).run fun _ _ => o.Alike base base' busy := by
  rintro s t r s' ⟨seen, log, log', shown, shown', alike⟩ returned
  obtain ⟨_, _, stamped, seenEq, logEq⟩ := stores.stamps s
  obtain ⟨rfl, rfl⟩ := returned.unique stamped
  obtain ⟨r', t', stamped', seenEq', logEq'⟩ := stores.stamps t
  refine ⟨r', t', stamped', ?_, log, log', logEq.trans shown, logEq'.trans shown', alike⟩
  rw [seenEq, seenEq', seen]

/-- While a store is in use the shared log is busy if it is that store's. -/
theorem add_mirrors (id : StoreId) {row row' : Row} (same : row.unstamped = row'.unstamped) :
    Mirrors (o.Alike base base' (o.shared id)) (AuditStores.add id row).run
      (AuditStores.add id row').run
      fun r r' s t => r = r' ∧ o.Alike base base' (o.shared id) s t := by
  by_cases isShared : o.shared id
  · have store := stores.shared id isShared
    exact mirrors_of_shown (store.add_unseen row) (store.add_unseen row') (store.inMemory.add row)
      (store.inMemory.add row') fun alike => alike.add isShared same
  · have store := stores.own id isShared
    exact mirrors_of_seen (store.add_mirrors row row' same) (store.add_leaves row)
      (store.add_leaves row')

theorem commit_mirrors (id : StoreId) :
    Mirrors (o.Alike base base' (o.shared id)) (AuditStores.commit id).run
      (AuditStores.commit id).run
      fun r r' s t => r = r' ∧ o.Alike base base' (o.shared id) s t := by
  by_cases isShared : o.shared id
  · have store := stores.shared id isShared
    exact mirrors_of_shown store.commit_unseen store.commit_unseen store.inMemory.commit
      store.inMemory.commit fun alike => alike.commit
  · have store := stores.own id isShared
    exact mirrors_of_seen (Respects.mirrors store.commit_respects) store.commit_leaves
      store.commit_leaves

/-- Once it is closed nothing is staged in it. -/
theorem close_mirrors (id : StoreId) :
    Mirrors (o.Alike base base' (o.shared id)) (AuditStores.close id).run
      (AuditStores.close id).run fun _ _ => o.Alike base base' False := by
  by_cases isShared : o.shared id
  · have store := stores.shared id isShared
    have mirrors : Mirrors (o.Alike base base' (o.shared id)) (AuditStores.close id).run
        (AuditStores.close id).run fun r r' s t => r = r' ∧ o.Alike base base' False s t :=
      mirrors_of_shown store.close_unseen store.close_unseen store.inMemory.close
        store.inMemory.close fun alike => alike.close
    exact mirrors.mono_right And.right
  · have store := stores.own id isShared
    have mirrors : Mirrors (o.Alike base base' (o.shared id)) (AuditStores.close id).run
        (AuditStores.close id).run
        fun r r' s t => r = r' ∧ o.Alike base base' (o.shared id) s t :=
      mirrors_of_seen (Respects.mirrors store.close_respects) store.close_leaves store.close_leaves
    exact mirrors.mono_right fun alike => alike.2.mono isShared

end Stores

end Outlook

/-! ## Views -/

/-- Views of the same instance and the same context, and of worlds outside that are related. -/
structure View.Alike {σ ω : Type} (R : ω → ω → Prop) (v u : View σ ω) : Prop where
  own : v.own = u.own
  context : v.context = u.context
  outside : R v.outside u.outside

/-! ## Loggers -/

namespace AuditLogger

variable {τ ω κ : Type} {o : Outlook ω κ} {base base' : List Row}

/-- The views show the same, and a store is held that may have staged what is staged. -/
structure Holding (o : Outlook ω κ) (base base' : List Row) (id : StoreId)
    (v u : View (Holdings τ) ω) : Prop where
  held : v.own.store = some id
  alike : v.Alike (o.Alike base base' (o.shared id)) u

theorem Holding.held_right {id : StoreId} {v u : View (Holdings τ) ω}
    (holding : Holding o base base' id v u) : u.own.store = some id := by
  rw [← holding.alike.own, holding.held]

/-- What is asked of the store that is held, and of the clock. -/
theorem Holding.outer_mirrors {α : Type} {id : StoreId} {p q : Proc ω α} {P : α → α → Prop}
    (mirrors : Mirrors (o.Alike base base' (o.shared id)) p.run q.run
      fun r r' s t => P r r' ∧ o.Alike base base' (o.shared id) s t) :
    Mirrors (Holding (τ := τ) o base base' id) (View.outer p).run (View.outer q).run
      fun r r' v u => P r r' ∧ Holding o base base' id v u := by
  apply mirrors.run_within View.isPart_outside
  · exact fun holding => holding.alike.outside
  · rintro v u r r' outside outside' holding ⟨related, alike⟩
    exact ⟨related, holding.held, holding.alike.own, holding.alike.context, alike⟩

/-- A store is held, or there was none to be had. -/
def Acquired (o : Outlook ω κ) (base base' : List Row) (r : Except HandlerError Unit)
    (v u : View (Holdings τ) ω) : Prop :=
  match r with
  | .error _ => v.Alike (o.Alike base base' False) u
  | .ok () => ∃ id, Holding o base base' id v u

theorem acquire_mirrors (type : TypeName) :
    Mirrors (View.Alike (o.Alike base base' False)) (acquire (τ := τ) type).run
      (acquire type).run fun r r' v u => r = r' ∧ Acquired o base base' r v u := by
  apply Mirrors.run_get.run_bind
  intro v u
  apply Mirrors.given
  rintro _ _ ⟨rfl, rfl, alike⟩
  rw [alike.context]
  have refusing : ∀ error : HandlerError, Mirrors
      (fun s t => v = s ∧ u = t ∧ s.Alike (o.Alike base base' False) t)
      (pure (.error error) : Proc (View (Holdings τ) ω) (Except HandlerError Unit)).run
      (pure (.error error) : Proc (View (Holdings τ) ω) (Except HandlerError Unit)).run
      fun r r' v u => r = r' ∧ Acquired o base base' r v u :=
    fun error => Mirrors.run_pure fun alike => ⟨rfl, alike.2.2⟩
  cases u.context.require storeKey type with
  | error e => exact refusing _
  | ok value =>
      rcases value with ⟨_, content⟩
      cases content with
      | store id =>
          have holding : Mirrors (fun s t => v = s ∧ u = t ∧ s.Alike (o.Alike base base' False) t)
              (Proc.modify (View.holdStore (some id))).run
              (Proc.modify (View.holdStore (some id))).run
              fun _ _ => Holding (τ := τ) o base base' id := by
            apply Mirrors.run_modify
            rintro v u ⟨_, _, alike⟩
            refine ⟨rfl, ?_, alike.context, alike.outside.mono False.elim⟩
            simp only [View.holdStore, alike.own]
          refine holding.run_bind ?_
          intro _ _
          exact Mirrors.run_pure fun holding => ⟨rfl, id, holding⟩
      | _ => exact refusing _

variable [AuditStores ω] (stores : o.Stores) (base base' : List Row)

include stores

theorem store_mirrors (id : StoreId) {row row' : Row} (same : row.unstamped = row'.unstamped) :
    Mirrors (Holding o base base' id) (store (τ := τ) id row).run (store id row').run
      fun r r' v u => r.map Value.unnumbered = r'.map Value.unnumbered ∧
        Holding o base base' id v u := by
  refine (Holding.outer_mirrors (stores.add_mirrors base base' id same)).run_bind ?_
  intro added added'
  apply Mirrors.of_and
  rintro rfl
  cases added with
  | error e => exact Mirrors.run_pure fun holding => ⟨rfl, holding⟩
  | ok _ =>
      refine (Holding.outer_mirrors (stores.commit_mirrors base base' id)).run_bind ?_
      intro committed committed'
      apply Mirrors.of_and
      rintro rfl
      cases committed with
      | error e => exact Mirrors.run_pure fun holding => ⟨rfl, holding⟩
      | ok _ => exact Mirrors.run_pure fun holding => ⟨rfl, holding⟩

theorem write_mirrors (id : StoreId) (redacted : List String) (e : Event) (x : Extra) :
    Mirrors (Holding o base base' id) (write (τ := τ) redacted e x).run (write redacted e x).run
      fun r r' v u => r.map Value.unnumbered = r'.map Value.unnumbered ∧
        Holding o base base' id v u := by
  apply Mirrors.run_get.run_bind
  intro v u
  apply Mirrors.given
  rintro _ _ ⟨rfl, rfl, holding⟩
  rw [holding.held, holding.held_right]
  have stamping := Holding.outer_mirrors (τ := τ) (P := fun _ _ => True)
    ((stores.stamp_mirrors base base' (o.shared id)).mono_right fun alike => ⟨trivial, alike⟩)
  refine (stamping.mono_left fun holding => holding.2.2).run_bind ?_
  intro stamp stamp'
  rcases Row.record_alike stamp stamp' e redacted with
    ⟨error, recorded, recorded'⟩ | ⟨row, row', recorded, recorded', same⟩
  · rw [recorded, recorded']
    exact Mirrors.run_pure fun holding => ⟨rfl, holding.2⟩
  · rw [recorded, recorded']
    refine (Mirrors.run_tell _ _).run_bind ?_
    intro _ _
    exact (store_mirrors stores base base' id (same x)).mono_left And.right

theorem letGo_mirrors (id : StoreId) :
    Mirrors (Holding o base base' id) (letGo (τ := τ)).run letGo.run
      fun _ _ => View.Alike (o.Alike base base' False) := by
  apply Mirrors.run_get.run_bind
  intro v u
  apply Mirrors.given
  rintro _ _ ⟨rfl, rfl, holding⟩
  rw [holding.held, holding.held_right]
  have releasing : ∀ {v u : View (Holdings τ) ω}, Holding o base base' id v u →
      (v.holdStore none).Alike (o.Alike base base' (o.shared id)) (u.holdStore none) := by
    intro v u holding
    refine ⟨?_, holding.alike.context, holding.alike.outside⟩
    simp only [View.holdStore, holding.alike.own]
  refine (Mirrors.run_modify fun alike => releasing alike.2.2).run_bind ?_
  intro _ _
  exact (stores.close_mirrors base base' id).run_within View.isPart_outside
    (fun alike => alike.outside) fun alike closed => ⟨alike.own, alike.context, closed⟩

/-- From hook to hook a logger does the same but for numbers and times, and leaves nothing
staged. -/
theorem lifecycle_mirrors (type : TypeName) (redacted : List String) (m : Message) (x : Extra) :
    Mirrors (View.Alike (o.Alike base base' False))
      ((lifecycle (τ := τ) type redacted).invoke m x) ((lifecycle type redacted).invoke m x)
      fun i i' v u => i.unnumbered = i'.unnumbered ∧ v.Alike (o.Alike base base' False) u := by
  have core : ∀ id, Mirrors (Holding o base base' id)
      ((lifecycle (τ := τ) type redacted).core m x).run ((lifecycle type redacted).core m x).run
      fun i i' v u => i.unnumbered = i'.unnumbered ∧ Holding o base base' id v u := by
    intro id
    cases m with
    | event e =>
        refine (write_mirrors stores base base' id redacted e x).run_bind ?_
        intro r r'
        exact Mirrors.run_pure fun ⟨same, holding⟩ =>
          ⟨by simp [Invocation.unnumbered, same], holding⟩
    | command c => exact Mirrors.run_pure fun holding => ⟨rfl, holding⟩
  refine (acquire_mirrors type).bind ?_
  intro acquired acquired'
  apply Mirrors.of_and
  rintro rfl
  cases acquired with
  | error e => exact Mirrors.pure fun alike => ⟨rfl, alike⟩
  | ok _ =>
      apply Mirrors.of_exists
      intro id
      refine (core id).ensuring ?_
      intro i i'
      apply Mirrors.of_and
      intro same
      exact (letGo_mirrors stores base base' id).mono_right fun alike => ⟨same, alike⟩

end AuditLogger

/-! ## Handlers -/

/-- Worlds of the same instances and the same context, and with related worlds outside. -/
structure World.Alike {σ ω : Type} (R : ω → ω → Prop) (w u : World σ ω) : Prop where
  context : w.context = u.context
  instances : w.instances = u.instances
  outside : R w.outside u.outside

/-- The handler does the same in related worlds, but for the numbers of rows, and leaves related
worlds. -/
def Handler.Repeats {σ ω : Type} (R : World σ ω → World σ ω → Prop) (h : Handler σ ω) : Prop :=
  ∀ m x, Mirrors R (h.invoke m x) (h.invoke m x)
    fun i i' w u => i.unnumbered = i'.unnumbered ∧ R w u

namespace Outlook

variable {τ ω κ : Type} [AuditStores ω] {o : Outlook ω κ} {base base' : List Row}

/-- The handler is a logger, or it leaves the shared log alone and needs to know no more of the
world outside than is seen. -/
def Admits (o : Outlook ω κ) (h : Handler (Holdings τ) ω) : Prop :=
  (∃ name type owner redacted accepts,
    h = AuditLogger.handler name type owner redacted accepts) ∨
  (h.DependsOn o.seen ∧ ∀ m x, (h.invoke m x).Leaves fun w => o.log? w.outside)

theorem logger_repeats (stores : o.Stores) (name : String) (type : TypeName) (owner : InstanceId)
    (redacted : List String) (accepts : MessageType) :
    (AuditLogger.handler (τ := τ) name type owner redacted accepts).Repeats
      (World.Alike (o.Alike base base' False)) := by
  intro m x
  unfold Handler.invoke
  split
  · exact Mirrors.pure fun alike => ⟨rfl, alike⟩
  · refine (AuditLogger.lifecycle_mirrors stores base base' type redacted m x).within ?_ ?_
    · rintro w u ⟨contextEq, instancesEq, outside⟩
      exact ⟨congrFun instancesEq owner, contextEq, outside⟩
    · rintro w u i i' v v' ⟨_, instancesEq, _⟩ ⟨same, ownEq, contextEq, outside⟩
      refine ⟨same, contextEq, ?_, outside⟩
      simp only [World.putView, instancesEq, ownEq]

omit [AuditStores ω] in
theorem other_repeats {σ : Type} {h : Handler σ ω} (depends : h.DependsOn o.seen)
    (leaves : ∀ m x, (h.invoke m x).Leaves fun w => o.log? w.outside) :
    h.Repeats (World.Alike (o.Alike base base' False)) := by
  rintro m x w u i w' ⟨contextEq, instancesEq, seenEq, log, log', shown, shown', alike⟩ invoked
  have sameSeen : w.seen o.seen = u.seen o.seen := by
    simp only [World.seen, contextEq, instancesEq, seenEq]
  have ran := (Handler.invoke_returns_iff h m x w w' i).mp invoked
  obtain ⟨u', ranToo, sameEnd⟩ := (depends.program m x).run sameSeen ran
  have invokedToo := (Handler.invoke_returns_iff h m x u u' i).mpr ranToo
  obtain ⟨contextEnd, instancesEnd, seenEnd⟩ := World.mk.inj sameEnd
  refine ⟨i, u', invokedToo, rfl, contextEnd, instancesEnd, seenEnd, log, log', ?_, ?_, alike⟩
  · exact (leaves m x _ _ _ invoked).trans shown
  · exact (leaves m x _ _ _ invokedToo).trans shown'

/-- What may be registered repeats itself. -/
theorem Admits.repeats {h : Handler (Holdings τ) ω} (admits : o.Admits h) (stores : o.Stores) :
    h.Repeats (World.Alike (o.Alike base base' False)) := by
  rcases admits with ⟨name, type, owner, redacted, accepts, rfl⟩ | ⟨depends, leaves⟩
  · exact logger_repeats stores name type owner redacted accepts
  · exact other_repeats depends leaves

end Outlook

end Courier
