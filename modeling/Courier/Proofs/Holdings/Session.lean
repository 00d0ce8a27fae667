import Courier.Proofs.Audit.DefaultBuses
import Courier.Proofs.Context.History
import Courier.Proofs.Handler.Diary
import Courier.Proofs.Holdings.Use
import Mathlib.Data.Set.Defs

/-!
# Sessions

An invocation that finds its instance empty-handed takes what it needs out of the context as it is
then, uses that and nothing else, and leaves the instance empty-handed: nothing but the world
outside has changed, on which the uses have been made (`Handler.Borrows.session`).  This holds
however the invocation ends.  A logger that has got a store closes it once, after everything else.
-/

namespace Courier

open Courier.Action

variable {τ ω α β : Type}

/-- No store and no mailer is held. -/
structure Holdings.EmptyHanded (h : Holdings τ) : Prop where
  store : h.store = none
  mailer : h.mailer = none

/-- An action that ends does not have the last word on the state if it has a cleanup. -/
theorem Action.state_ensuring {S : Type} {action : Action S α} {cleanup : Action S Unit} {s : S}
    (ended : (action s).outcome ≠ .unfinished) :
    (action.ensuring cleanup s).state = (cleanup (action s).state).state := by
  unfold ensuring
  cases outcomeEq : (action s).outcome with
  | unfinished => contradiction
  | _ => simp only [outcomeEq]

/-- A procedure that looks at the state first goes on by what it sees. -/
theorem Proc.run_get_bind {S : Type} (f : S → Proc S α) (s : S) :
    (Proc.get >>= f).run s = (f s).run s :=
  rfl

/-- A value that is made of what a procedure returns makes no difference to what it leaves. -/
theorem Proc.state_run_bind_pure {S : Type} (p : Proc S α) (f : α → β) (s : S) :
    ((p >>= fun a => pure (f a)).run s).state = (p.run s).state := by
  have runEq : (p >>= fun a => pure (f a)).run s =
      p.run.bind (fun a => (Proc.done (f a)).run) s := congrFun (Proc.run_bind p _) s
  rw [runEq, Action.bind]
  rcases p.run s with ⟨outcome, state, log⟩
  cases outcome <;> rfl

namespace Lifecycle

variable {σ : Type} {l : Lifecycle σ ω} {v v' : View σ ω}

theorem invoke_of_refused {e : HandlerError} (refused : l.before.run.Returns v (.error e) v')
    (m : Message) (x : Extra) : (l.invoke m x).Returns v ⟨.error e, []⟩ v' :=
  (returns_bind_iff _ _ _ _ _).mpr ⟨_, v', refused, rfl, rfl⟩

/-- The hook after the core follows it however it ends. -/
theorem state_invoke (acquired : l.before.run.Returns v (.ok ()) v') (m : Message) (x : Extra) :
    (l.invoke m x v).state = (l.after.run ((l.core m x).run v').state).state := by
  show (l.before.run.bind _ v).state = _
  rcases beforeEq : l.before.run v with ⟨outcome, state, log⟩
  rw [Returns, beforeEq] at acquired
  obtain ⟨rfl, rfl⟩ := acquired
  simp only [Action.bind, beforeEq]
  exact state_ensuring ((l.core m x).run_ne_unfinished _)

end Lifecycle

namespace View

variable {σ : Type} [AuditStores ω] [Mailers ω]

/-- Nothing but the world outside has changed, on which such uses have been made. -/
def Uses (made : List Use → Prop) (v v' : View σ ω) : Prop :=
  ∃ uses, made uses ∧ v' = v.putOutside (Use.afterAll uses v.outside)

variable {made : List Use → Prop} {v : View σ ω}

theorem uses_nothing (nothing : made []) : v.Uses made v :=
  ⟨[], nothing, rfl⟩

/-- A procedure makes a use and goes on from what it has left, or it crashes in it. -/
theorem uses_outer_bind (use : Use) {p : Proc ω α} (f : α → Proc (View σ ω) β)
    (does : (p.run v.outside).state = use.after v.outside) (crashed : made [use])
    (goesOn : ∀ a, (v.putOutside (use.after v.outside)).Uses (fun uses => made (use :: uses))
      ((f a).run (v.putOutside (use.after v.outside))).state) :
    v.Uses made ((outer p >>= f).run v).state := by
  have runEq : (outer p >>= f).run v =
      (p.run.within View.outside putOutside).bind (fun a => (f a).run) v := by
    rw [← Proc.run_within isPart_outside]
    exact congrFun (Proc.run_bind _ f) v
  rw [runEq]
  simp only [Action.bind, Action.within]
  rcases outcomeEq : p.run v.outside with ⟨outcome, outside', log⟩
  rw [outcomeEq] at does
  obtain rfl : outside' = _ := does
  cases outcome with
  | returned a =>
      obtain ⟨uses, more, stateEq⟩ := goesOn a
      exact ⟨use :: uses, more, stateEq⟩
  | crashed text => exact ⟨[use], crashed, rfl⟩
  | unfinished => exact ⟨[use], crashed, rfl⟩

end View

/-! ## Loggers -/

namespace AuditLogger

/-- What a logger may ask of its store before it closes it: it gives up at the first step that
fails. -/
inductive Entering (id : StoreId) : List Use → Prop
  | nothing : Entering id []
  | stamped : Entering id [.stamp]
  | added (row : Row) : Entering id [.stamp, .add id row]
  | committed (row : Row) : Entering id [.stamp, .add id row, .commit id]

/-- One invocation of a logger whose instance sees `v` at its start, by the way it ends and the
uses that it makes. -/
inductive Session (type : TypeName) (v : View (Holdings τ) ω) :
    Outcome Invocation → List Use → Prop
  /-- There is no store of its type in the context. -/
  | refused {e : HandlerError} :
      (∀ id callScoped, v.context.at? storeKey ≠ some ⟨⟨type, .store id⟩, callScoped⟩) →
      (acquire type).run.Returns v (.error e) v → Session type v (.returned ⟨.error e, []⟩) []
  /-- The store that is in the context is taken and closed. -/
  | closed {id : StoreId} {callScoped : Bool} {outcome : Outcome Invocation} {uses : List Use} :
      v.context.at? storeKey = some ⟨⟨type, .store id⟩, callScoped⟩ →
      (acquire type).run.Returns v (.ok ()) (v.holdStore (some id)) →
      Entering id uses → Session type v outcome (uses ++ [.close id])

theorem acquire_refuses {type : TypeName} {v : View (Holdings τ) ω}
    (missing : ∀ id callScoped,
      v.context.at? storeKey ≠ some ⟨⟨type, .store id⟩, callScoped⟩) :
    ∃ e, (acquire type).run.Returns v (.error e) v := by
  cases requireEq : v.context.require storeKey type with
  | error e =>
      refine ⟨.context e, Proc.returns_run_bind ⟨rfl, rfl⟩ ?_⟩
      rw [requireEq]
      exact ⟨rfl, rfl⟩
  | ok value =>
      refine ⟨.context (.missing storeKey), Proc.returns_run_bind ⟨rfl, rfl⟩ ?_⟩
      rcases value with ⟨valueType, content⟩
      cases content with
      | store id =>
          obtain ⟨⟨_, callScoped⟩, entry, rfl, rfl⟩ := Context.require_eq_ok_iff.mp requireEq
          exact absurd entry (missing id callScoped)
      | _ =>
          rw [requireEq]
          exact ⟨rfl, rfl⟩

variable [AuditStores ω] [Mailers ω]

/-- A row is added, and committed if the store has taken it. -/
theorem uses_store (id : StoreId) (row : Row) (v : View (Holdings τ) ω)
    {made : List Use → Prop} (added : made [.add id row])
    (committed : made [.add id row, .commit id]) :
    v.Uses made ((store id row).run v).state := by
  apply View.uses_outer_bind (.add id row) _ rfl added
  rintro (e | _)
  · exact View.uses_nothing added
  · apply View.uses_outer_bind (.commit id) _ rfl committed
    rintro (e | _) <;> exact View.uses_nothing committed

/-- A logger asks no more of the store that it holds than to enter a row. -/
theorem uses_write {id : StoreId} {v : View (Holdings τ) ω} (held : v.own.store = some id)
    (redacted : List String) (e : Event) (x : Extra) :
    v.Uses (Entering id) ((write redacted e x).run v).state := by
  rw [write, Proc.run_get_bind, held]
  apply View.uses_outer_bind .stamp _ rfl .stamped
  intro stamp
  cases Row.record stamp e redacted with
  | error error => exact View.uses_nothing .stamped
  | ok row => exact uses_store id (row.withExtra x) _ (.added _) (.committed _)

/-- The store that is held is let go and closed. -/
theorem state_letGo {id : StoreId} {v : View (Holdings τ) ω} (held : v.own.store = some id) :
    (letGo.run v).state = (v.holdStore none).putOutside ((Use.close id).after v.outside) := by
  rw [letGo, Proc.run_get_bind, held]
  show ((View.outer (AuditStores.close id)).run (v.holdStore none)).state = _
  rw [View.outer, Proc.run_within View.isPart_outside]
  rfl

theorem lifecycle_session (type : TypeName) (redacted : List String) (m : Message) (x : Extra)
    {v : View (Holdings τ) ω} (empty : v.own.EmptyHanded) :
    v.Uses (Session type v ((lifecycle type redacted).invoke m x v).outcome)
      ((lifecycle type redacted).invoke m x v).state := by
  by_cases present : ∃ id callScoped,
      v.context.at? storeKey = some ⟨⟨type, .store id⟩, callScoped⟩
  · obtain ⟨id, callScoped, entry⟩ := present
    have acquired := acquire_returns (τ := τ) entry
    have core : (v.holdStore (some id)).Uses (Entering id)
        (((lifecycle type redacted).core m x).run (v.holdStore (some id))).state := by
      cases m with
      | event e =>
          show View.Uses _ _ (Proc.run (write redacted e x >>= fun result => _) _).state
          rw [Proc.state_run_bind_pure]
          exact uses_write rfl redacted e x
      | command c => exact View.uses_nothing .nothing
    obtain ⟨uses, entering, coreEq⟩ := core
    refine ⟨_, .closed entry acquired entering, ?_⟩
    rw [Lifecycle.state_invoke acquired, coreEq]
    show (letGo.run _).state = _
    rw [state_letGo rfl, Use.afterAll_append]
    rcases v with ⟨⟨held, mailer, memory⟩, context, outside⟩
    obtain rfl : held = none := empty.store
    rfl
  · have missing : ∀ id callScoped,
        v.context.at? storeKey ≠ some ⟨⟨type, .store id⟩, callScoped⟩ :=
      fun id callScoped entry => present ⟨id, callScoped, entry⟩
    obtain ⟨e, refused⟩ := acquire_refuses missing
    obtain ⟨outcomeEq, stateEq⟩ :=
      Lifecycle.invoke_of_refused (l := lifecycle type redacted) refused m x
    rw [outcomeEq, stateEq]
    exact View.uses_nothing (.refused missing refused)

end AuditLogger

/-! ## Notifiers -/

namespace Notifier

/-- What is asked of a mailer for a message. -/
def mailing (mail : Event → Mail) (id : MailerId) : Message → List Use
  | .event e => [.send id (mail e)]
  | .command _ => []

/-- One invocation of a notifier whose instance sees `v` at its start, by the way it ends and the
uses that it makes. -/
inductive Session (settings : NotificationSettings) (mail : Event → Mail) (m : Message)
    (v : View (Holdings τ) ω) : Outcome Invocation → List Use → Prop
  /-- Mail is switched off. -/
  | disabled {outcome : Outcome Invocation} :
      settings.emailEnabled = false → Session settings mail m v outcome []
  /-- There is no mailer in the context. -/
  | refused {e : HandlerError} :
      settings.emailEnabled = true →
      (∀ id callScoped,
        v.context.at? mailerKey ≠ some ⟨⟨TypeName.mailer, .mailer id⟩, callScoped⟩) →
      (acquire settings).run.Returns v (.error e) v →
      Session settings mail m v (.returned ⟨.error e, []⟩) []
  /-- The mailer that is in the context is taken and used. -/
  | mailed {id : MailerId} {callScoped : Bool} {outcome : Outcome Invocation} :
      settings.emailEnabled = true →
      v.context.at? mailerKey = some ⟨⟨TypeName.mailer, .mailer id⟩, callScoped⟩ →
      (acquire settings).run.Returns v (.ok ()) (v.holdMailer (some id)) →
      Session settings mail m v outcome (mailing mail id m)

theorem acquire_refuses {settings : NotificationSettings} {v : View (Holdings τ) ω}
    (enabled : settings.emailEnabled = true)
    (missing : ∀ id callScoped,
      v.context.at? mailerKey ≠ some ⟨⟨TypeName.mailer, .mailer id⟩, callScoped⟩) :
    ∃ e, (acquire settings).run.Returns v (.error e) v := by
  unfold acquire
  simp only [enabled, Bool.not_true, Bool.false_eq_true, if_false]
  cases requireEq : v.context.require mailerKey TypeName.mailer with
  | error e =>
      refine ⟨.context e, Proc.returns_run_bind ⟨rfl, rfl⟩ ?_⟩
      rw [requireEq]
      exact ⟨rfl, rfl⟩
  | ok value =>
      refine ⟨.context (.missing mailerKey), Proc.returns_run_bind ⟨rfl, rfl⟩ ?_⟩
      rcases value with ⟨valueType, content⟩
      cases content with
      | mailer id =>
          obtain ⟨⟨_, callScoped⟩, entry, rfl, rfl⟩ := Context.require_eq_ok_iff.mp requireEq
          exact absurd entry (missing id callScoped)
      | _ =>
          rw [requireEq]
          exact ⟨rfl, rfl⟩

variable [AuditStores ω] [Mailers ω]

/-- A notifier asks nothing but to send its mail, of the mailer that it holds. -/
theorem uses_core {held : Option MailerId} {v : View (Holdings τ) ω} (heldEq : v.own.mailer = held)
    (settings : NotificationSettings) (mail : Event → Mail) (notice : Event → LogLine) (m : Message)
    (x : Extra) :
    v.Uses (· = held.elim [] (mailing mail · m))
      (((lifecycle settings mail notice).core m x).run v).state := by
  subst heldEq
  cases m with
  | event e =>
      show View.Uses _ _ (Proc.run (deliver (mail e) (notice e) >>= fun result => _) _).state
      rw [Proc.state_run_bind_pure]
      rw [deliver, Proc.run_get_bind]
      cases v.own.mailer with
      | none => exact View.uses_nothing rfl
      | some id =>
          refine View.uses_outer_bind (.send id (mail e)) _ rfl rfl ?_
          rintro (e | _) <;> exact View.uses_nothing rfl
  | command c =>
      apply View.uses_nothing
      cases v.own.mailer <;> rfl

theorem lifecycle_session (settings : NotificationSettings) (mail : Event → Mail)
    (notice : Event → LogLine) (m : Message) (x : Extra) {v : View (Holdings τ) ω}
    (empty : v.own.EmptyHanded) :
    v.Uses (Session settings mail m v ((lifecycle settings mail notice).invoke m x v).outcome)
      ((lifecycle settings mail notice).invoke m x v).state := by
  -- What the hook before the core has got, the hook after it lets go.
  have lent : ∀ held, (acquire settings).run.Returns v (.ok ()) (v.holdMailer held) →
      ((lifecycle settings mail notice).invoke m x v).state =
        v.putOutside (Use.afterAll (held.elim [] (mailing mail · m)) v.outside) := by
    intro held acquired
    have heldEq : (v.holdMailer held).own.mailer = held := rfl
    obtain ⟨_, rfl, coreEq⟩ := uses_core heldEq settings mail notice m x
    rw [Lifecycle.state_invoke acquired, coreEq]
    rcases v with ⟨⟨store, mailer, memory⟩, context, outside⟩
    obtain rfl : mailer = none := empty.mailer
    rfl
  cases enabled : settings.emailEnabled with
  | false =>
      have acquired : (acquire settings).run.Returns v (.ok ()) (v.holdMailer none) := by
        simp only [acquire, enabled]
        exact ⟨rfl, rfl⟩
      rw [lent none acquired]
      exact View.uses_nothing (.disabled enabled)
  | true =>
      by_cases present : ∃ id callScoped,
          v.context.at? mailerKey = some ⟨⟨TypeName.mailer, .mailer id⟩, callScoped⟩
      · obtain ⟨id, callScoped, entry⟩ := present
        have acquired : (acquire settings).run.Returns v (.ok ())
            (v.holdMailer (if settings.emailEnabled then some id else none)) :=
          acquire_returns entry
        rw [enabled, if_pos rfl] at acquired
        exact ⟨_, .mailed enabled entry acquired, lent (some id) acquired⟩
      · have missing : ∀ id callScoped,
            v.context.at? mailerKey ≠ some ⟨⟨TypeName.mailer, .mailer id⟩, callScoped⟩ :=
          fun id callScoped entry => present ⟨id, callScoped, entry⟩
        obtain ⟨e, refused⟩ := acquire_refuses enabled missing
        obtain ⟨outcomeEq, stateEq⟩ :=
          Lifecycle.invoke_of_refused (l := lifecycle settings mail notice) refused m x
        rw [outcomeEq, stateEq]
        exact View.uses_nothing (.refused enabled missing refused)

end Notifier

/-! ## Handlers -/

namespace World

variable {σ : Type} [AuditStores ω] [Mailers ω]

/-- The world with another one outside the bus. -/
def putOutside (outside : ω) (w : World σ ω) : World σ ω :=
  { w with outside }

/-- Nothing but the world outside has changed, on which such uses have been made. -/
def Uses (made : List Use → Prop) (w w' : World σ ω) : Prop :=
  ∃ uses, made uses ∧ w' = w.putOutside (Use.afterAll uses w.outside)

/-- Some instances hold nothing. -/
def EmptyHanded (R : Set InstanceId) (w : World (Holdings τ) ω) : Prop :=
  ∀ i ∈ R, (w.instances i).EmptyHanded

/-- To make uses of the world outside is to take nothing into the hands. -/
theorem Uses.emptyHanded {R : Set InstanceId} {made : List Use → Prop}
    {w w' : World (Holdings τ) ω} (uses : w.Uses made w') (empty : w.EmptyHanded R) :
    w'.EmptyHanded R := by
  obtain ⟨_, _, rfl⟩ := uses
  exact empty

end World

namespace Handler

/-- One invocation of a handler that takes what it needs out of the context, with `m` on `w`, by
the way it ends and the uses that it makes. -/
inductive Session [AuditStores ω] [Mailers ω] (i : InstanceId) (m : Message)
    (w : World (Holdings τ) ω) : Handler (Holdings τ) ω → Outcome Invocation → List Use → Prop
  | logger {name : String} {type : TypeName} {redacted : List String} {accepts : MessageType}
      {outcome : Outcome Invocation} {uses : List Use} :
      AuditLogger.Session type (w.view i) outcome uses →
      Session i m w (AuditLogger.handler name type i redacted accepts) outcome uses
  | passwordChangeRequest {name : String} {settings : NotificationSettings}
      {outcome : Outcome Invocation} {uses : List Use} :
      Notifier.Session settings (Notifier.changeMail settings) m (w.view i) outcome uses →
      Session i m w ((Notifier.passwordChangeRequest i settings).named name) outcome uses
  | passwordChanged {name : String} {settings : NotificationSettings}
      {outcome : Outcome Invocation} {uses : List Use} :
      Notifier.Session settings Notifier.changedMail m (w.view i) outcome uses →
      Session i m w ((Notifier.passwordChanged i settings).named name) outcome uses

/-- The handler takes what it needs out of the context, into the hands of an instance, under
whatever name it is registered. -/
inductive Borrows [AuditStores ω] [Mailers ω] (i : InstanceId) : Handler (Holdings τ) ω → Prop
  | logger (name : String) (type : TypeName) (redacted : List String) (accepts : MessageType) :
      Borrows i (AuditLogger.handler name type i redacted accepts)
  | passwordChangeRequest (name : String) (settings : NotificationSettings) :
      Borrows i ((Notifier.passwordChangeRequest i settings).named name)
  | passwordChanged (name : String) (settings : NotificationSettings) :
      Borrows i ((Notifier.passwordChanged i settings).named name)

variable [AuditStores ω] [Mailers ω]

/-- What an invocation changes of what its instance sees, it changes of the world. -/
theorem uses_invoke {σ : Type} {i : InstanceId} {h : Handler σ ω} {l : Lifecycle σ ω}
    (behaviorEq : h.behavior = .stateful i l) {m : Message} (accepted : ¬ m.type ≠ h.accepts)
    {x : Extra} {w : World σ ω} {made : Outcome Invocation → List Use → Prop}
    (used : (w.view i).Uses (made (l.invoke m x (w.view i)).outcome)
      (l.invoke m x (w.view i)).state) :
    w.Uses (made (h.invoke m x w).outcome) (h.invoke m x w).state := by
  obtain ⟨uses, madeSo, stateEq⟩ := used
  rw [invoke_of_stateful x accepted behaviorEq]
  refine ⟨uses, madeSo, ?_⟩
  show w.putView i (l.invoke m x (w.view i)).state = _
  rw [stateEq]
  exact congrArg (World.putOutside _) ((World.isPart_view i).put_look w)

/-- An invocation that finds its instance empty-handed changes nothing but the world outside, by
uses of what is in the context then. -/
theorem Borrows.session {i : InstanceId} {h : Handler (Holdings τ) ω} (borrows : h.Borrows i)
    {m : Message} (accepted : ¬ m.type ≠ h.accepts) (x : Extra) {w : World (Holdings τ) ω}
    (empty : (w.instances i).EmptyHanded) :
    w.Uses (Session i m w h (h.invoke m x w).outcome) (h.invoke m x w).state := by
  cases borrows with
  | logger name type redacted accepts =>
      obtain ⟨uses, session, stateEq⟩ := uses_invoke rfl accepted
        (AuditLogger.lifecycle_session type redacted m x (v := w.view i) empty)
      exact ⟨uses, .logger session, stateEq⟩
  | passwordChangeRequest name settings =>
      obtain ⟨uses, session, stateEq⟩ := uses_invoke rfl accepted
        (Notifier.lifecycle_session settings (Notifier.changeMail settings)
          (Notifier.changeNotice settings) m x (v := w.view i) empty)
      exact ⟨uses, .passwordChangeRequest session, stateEq⟩
  | passwordChanged name settings =>
      obtain ⟨uses, session, stateEq⟩ := uses_invoke rfl accepted
        (Notifier.lifecycle_session settings Notifier.changedMail Notifier.changedNotice m x
          (v := w.view i) empty)
      exact ⟨uses, .passwordChanged session, stateEq⟩

end Handler

end Courier
