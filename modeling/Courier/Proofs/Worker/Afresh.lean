import Courier.Proofs.Bus.Repetition
import Courier.Proofs.Worker.FollowUp

/-!
# Workers that start afresh

A worker starts afresh if it makes the same bus for every envelope, and if all that the handlers see
of the world outside is then as it was for the envelopes before.  What it makes of an envelope does
not depend on what the queue holds, nor on what others have written to a log that the buses share:
two runs of `process` from such places go side by side, step by step
(`Worker.StartsAfresh.process_mirrors`).
-/

namespace Courier

open Courier.Action

variable {σ τ ω κ : Type}

/-! ## Queues -/

namespace EventQueue

/-- The same envelopes have joined two queues. -/
def Alike (base base' q q' : EventQueue) : Prop :=
  ∃ vs, q = base.joined vs ∧ q' = base'.joined vs

variable {base base' : EventQueue}

theorem Alike.refl (base base' : EventQueue) : Alike base base' base base' :=
  ⟨[], by simp⟩

theorem publishEvent_mirrors (unlimited : base.limit = none) (unlimited' : base'.limit = none)
    (e : Event) :
    Mirrors (Alike base base') (publishEvent e) (publishEvent e)
      fun r r' q q' => r = r' ∧ Alike base base' q q' := by
  rintro _ _ r q ⟨vs, rfl, rfl⟩ returned
  have publishes := publishEvent_returns_iff (q := base'.joined vs) unlimited' e
  rcases (publishEvent_returns_iff (q := base.joined vs) unlimited e q r).mp returned with
    ⟨v, serialized, rfl, rfl⟩ | ⟨error, failed, rfl, rfl⟩
  · refine ⟨_, _, (publishes _ _).mpr (.inl ⟨v, serialized, rfl, rfl⟩), rfl, vs ++ [v], ?_⟩
    rw [joined_joined, joined_joined]
    exact ⟨rfl, rfl⟩
  · exact ⟨_, _, (publishes _ _).mpr (.inr ⟨error, failed, rfl, rfl⟩), rfl, vs, rfl, rfl⟩

end EventQueue

/-! ## On one bus -/

/-- The same envelopes have joined the queues, and the worlds are related. -/
structure Workbench.Alike (base base' : EventQueue) (R : World σ ω → World σ ω → Prop)
    (s t : Workbench σ ω) : Prop where
  queue : EventQueue.Alike base base' s.queue t.queue
  world : R s.world t.world

namespace Workbench

variable {α : Type} {base base' : EventQueue} {R : World σ ω → World σ ω → Prop}
  {P : α → α → Prop}

theorem within_queue_mirrors {first second : Action EventQueue α}
    (mirrors : Mirrors (EventQueue.Alike base base') first second
      fun a a' q q' => P a a' ∧ EventQueue.Alike base base' q q') :
    Mirrors (Alike base base' R) (first.within queue putQueue) (second.within queue putQueue)
      fun a a' s t => P a a' ∧ Alike base base' R s t :=
  mirrors.within (fun alike => alike.queue)
    fun alike left => ⟨left.1, left.2, alike.world⟩

theorem within_world_mirrors {first second : Action (World σ ω) α}
    (mirrors : Mirrors R first second fun a a' w u => P a a' ∧ R w u) :
    Mirrors (Alike base base' R) (first.within world putWorld) (second.within world putWorld)
      fun a a' s t => P a a' ∧ Alike base base' R s t :=
  mirrors.within (fun alike => alike.world)
    fun alike left => ⟨left.1, alike.queue, left.2⟩

end Workbench

namespace Worker

variable {base base' : EventQueue} {R : World σ ω → World σ ω → Prop} {handlers : Handlers σ ω}

theorem followUp_mirrors (repeats : handlers.Repeat R) (unlimited : base.limit = none)
    (unlimited' : base'.limit = none) (budget : Nat) (emitted : List Message)
    {gained gained' : List Dispatched}
    (same : gained.map Dispatched.unnumbered = gained'.map Dispatched.unnumbered) :
    Mirrors (Workbench.Alike base base' R) (followUp handlers budget gained emitted)
      (followUp handlers budget gained' emitted)
      fun r r' s t => SameResults r r' ∧ Workbench.Alike base base' R s t := by
  induction emitted generalizing gained gained' with
  | nil => exact Mirrors.pure fun alike => ⟨congrArg Except.ok same, alike⟩
  | cons m rest ih =>
      cases m with
      | event e =>
          have publishing := EventQueue.publishEvent_mirrors unlimited unlimited' e
          refine (Workbench.within_queue_mirrors publishing).bind ?_
          intro r r'
          apply Mirrors.of_and
          rintro rfl
          cases r with
          | error error => exact Mirrors.pure fun alike => ⟨rfl, alike⟩
          | ok _ => exact ih same
      | command c =>
          have handling := SyncBus.handle_mirrors repeats budget (.command c) ∅
          refine (Workbench.within_world_mirrors handling).bind ?_
          intro r r'
          apply Mirrors.of_and
          intro sameResults
          rcases map_eq_map_cases sameResults with
            ⟨error, rfl, rfl⟩ | ⟨more, more', rfl, rfl, sameMore⟩
          · exact Mirrors.pure fun alike => ⟨rfl, alike⟩
          · have sameAll : (gained ++ more).map Dispatched.unnumbered =
                (gained' ++ more').map Dispatched.unnumbered := by
              rw [List.map_append, List.map_append, same, sameMore]
            exact ih sameAll

theorem handleOn_mirrors (repeats : handlers.Repeat R) (unlimited : base.limit = none)
    (unlimited' : base'.limit = none) (budget : Nat) (e : Event) :
    Mirrors (Workbench.Alike base base' R) (handleOn handlers budget e)
      (handleOn handlers budget e)
      fun r r' s t => SameResults r r' ∧ Workbench.Alike base base' R s t := by
  have stepping := SyncBus.handleStep_mirrors repeats (.event e) ∅
  refine (Workbench.within_world_mirrors stepping).bind ?_
  intro r r'
  apply Mirrors.of_and
  intro sameStep
  rcases map_eq_map_cases sameStep with ⟨error, rfl, rfl⟩ | ⟨step, step', rfl, rfl, same⟩
  · exact Mirrors.pure fun alike => ⟨rfl, alike⟩
  · obtain ⟨sameResults, emittedEq⟩ := Prod.mk.inj same
    have following := followUp_mirrors repeats unlimited unlimited' budget step.emitted sameResults
    rw [emittedEq] at following
    simp only [emittedEq]
    exact following

end Worker

/-! ## From bus to bus -/

/-- The same envelopes have joined the queues, and `R` relates the worlds outside. -/
structure Workplace.Alike (base base' : EventQueue) (R : ω → ω → Prop) (s t : Workplace ω) :
    Prop where
  queue : EventQueue.Alike base base' s.queue t.queue
  outside : R s.outside t.outside

namespace Worker

variable [AuditStores ω]

/-- For every envelope the worker makes the same bus.  What handlers see of the world outside is
always the same then, and the shared log is left as it is.  The handlers are loggers, and others
that leave that log alone.  A store that is opened for one bus has the same name on every bus, and
is among what is seen. -/
structure StartsAfresh (worker : Worker (Holdings τ) ω) (o : Outlook ω κ) (bus : Bus (Holdings τ) ω)
    (fresh : κ) : Prop where
  makes : ∀ outside, ∃ outside', worker.makeBus.Returns outside bus outside' ∧
    o.seen outside' = fresh ∧ o.log? outside' = o.log? outside
  admits : ∀ m, ∀ h ∈ bus.handlers.registered m, o.Admits h
  stores : o.Stores

namespace StartsAfresh

variable {worker : Worker (Holdings τ) ω} {o : Outlook ω κ} {bus : Bus (Holdings τ) ω} {fresh : κ}

/-- Whatever was seen before, on a new bus the same is seen. -/
theorem makeBus_mirrors (afresh : worker.StartsAfresh o bus fresh)
    (rows rows' : List Row) :
    Mirrors (o.LogsAlike rows rows' False) worker.makeBus worker.makeBus
      fun b b' outside outside' =>
        (b = bus ∧ b' = bus) ∧ o.Alike rows rows' False outside outside' := by
  rintro outside other b after ⟨log, log', shown, shown', alike⟩ returned
  obtain ⟨_, made, seen, logEq⟩ := afresh.makes outside
  obtain ⟨rfl, rfl⟩ := returned.unique made
  obtain ⟨after', made', seen', logEq'⟩ := afresh.makes other
  exact ⟨_, after', made', ⟨rfl, rfl⟩, seen.trans seen'.symm, log, log', logEq.trans shown,
    logEq'.trans shown', alike⟩

/-- From places where the shared logs are alike, an envelope has the same results but for the
numbers of rows, or the same error.  The same is published, and the same rows are written but for
numbers and times. -/
theorem process_mirrors (afresh : worker.StartsAfresh o bus fresh) {base base' : EventQueue}
    (unlimited : base.limit = none) (unlimited' : base'.limit = none) (rows rows' : List Row)
    (budget : Nat) (v : Envelope) :
    Mirrors (Workplace.Alike base base' (o.LogsAlike rows rows' False)) (worker.process budget v)
      (worker.process budget v)
      fun r r' s t => SameResults r r' ∧
        Workplace.Alike base base' (o.LogsAlike rows rows' False) s t := by
  refine (Mirrors.tell _ _).bind ?_
  intro _ _
  cases worker.codec.decode v with
  | error error =>
      refine (Mirrors.tell _ _).bind ?_
      intro _ _
      exact Mirrors.pure fun alike => ⟨rfl, alike⟩
  | ok e =>
      have making : Mirrors (Workplace.Alike base base' (o.LogsAlike rows rows' False))
          (worker.makeBus.within Workplace.outside Workplace.putOutside)
          (worker.makeBus.within Workplace.outside Workplace.putOutside)
          fun b b' s t => (b = bus ∧ b' = bus) ∧
            Workplace.Alike base base' (o.Alike rows rows' False) s t :=
        (afresh.makeBus_mirrors rows rows').within (fun alike => alike.outside)
          fun alike made => ⟨made.1, alike.queue, made.2⟩
      refine making.bind ?_
      intro b b'
      apply Mirrors.of_and
      rintro ⟨made, made'⟩
      rw [made, made']
      have repeats : bus.handlers.Repeat (World.Alike (o.Alike rows rows' False)) :=
        fun m h registered => (afresh.admits m h registered).repeats afresh.stores
      refine (Worker.handleOn_mirrors repeats unlimited unlimited' budget e).within ?_ ?_
      · intro s t alike
        exact ⟨alike.queue, rfl, rfl, alike.outside⟩
      · rintro s t r r' s' t' _ ⟨sameResults, alike⟩
        exact ⟨sameResults, alike.queue, alike.world.outside.logs⟩

end StartsAfresh

end Worker

end Courier
