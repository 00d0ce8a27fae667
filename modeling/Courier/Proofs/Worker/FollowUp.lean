import Courier.Proofs.Bus.Sync
import Courier.Worker.Basic

/-!
# Following up what is emitted

What the handlers of an envelope have emitted is followed up message by message:
events are published, commands are handled on the bus at hand.  The first message that
cannot be followed up ends it.  Events leave the bus alone and commands leave the queue
alone, so that what is published and what is handled can be told apart.

The queue is one without a limit, so that every event with a serialized form can be
published.
-/

namespace Courier

open Courier.Action

namespace EventQueue

/-- The queue when envelopes have joined it. -/
def joined (q : EventQueue) (vs : List Envelope) : EventQueue :=
  { q with pending := q.pending ++ vs, published := q.published + vs.length }

@[simp]
theorem joined_nil (q : EventQueue) : q.joined [] = q := by
  simp [joined]

@[simp]
theorem joined_joined (q : EventQueue) (vs us : List Envelope) :
    (q.joined vs).joined us = q.joined (vs ++ us) := by
  simp [joined, Nat.add_assoc]

/-- Every envelope can be published. -/
theorem publish_returns_iff {q : EventQueue} (unlimited : q.limit = none) (v : Envelope)
    (q' : EventQueue) (r : Except ServiceError Unit) :
    (publish v).Returns q r q' ↔ r = .ok () ∧ q' = q.joined [v] := by
  have notFull : q.isFull = false := by simp [isFull, unlimited]
  simp only [publish, returns_bind_iff, returns_get_iff]
  constructor
  · rintro ⟨_, _, ⟨rfl, rfl⟩, published⟩
    rw [notFull, if_neg Bool.false_ne_true] at published
    simp only [returns_bind_iff, returns_modify_iff, returns_pure_iff] at published
    rcases published with ⟨_, _, rfl, rfl, rfl⟩
    exact ⟨rfl, rfl⟩
  · rintro ⟨rfl, rfl⟩
    refine ⟨q, q, ⟨rfl, rfl⟩, ?_⟩
    rw [notFull, if_neg Bool.false_ne_true]
    simp only [returns_bind_iff, returns_modify_iff, returns_pure_iff]
    exact ⟨(), _, rfl, trivial, rfl⟩

/-- An event is published unless it has no serialized form. -/
theorem publishEvent_returns_iff {q : EventQueue} (unlimited : q.limit = none) (e : Event)
    (q' : EventQueue) (r : Except ServiceError Unit) :
    (publishEvent e).Returns q r q' ↔
      (∃ v, Envelope.ofEvent e = .ok v ∧ r = .ok () ∧ q' = q.joined [v]) ∨
        ∃ error, Envelope.ofEvent e = .error error ∧ r = .error (.codec error) ∧ q' = q := by
  unfold publishEvent
  cases Envelope.ofEvent e with
  | error error => simp [eq_comm]
  | ok v => simp [publish_returns_iff unlimited]

end EventQueue

namespace Worker

variable {σ ω : Type}

/-- Commands that are handled on one bus, one after the other, each together with all
that it leads to and each with success. -/
inductive Obeys (handlers : Handlers σ ω) :
    World σ ω → List Command → List Dispatched → World σ ω → Prop
  | nothing {w : World σ ω} : Obeys handlers w [] [] w
  | command {c : Command} {rest : List Command} {taken : List Message}
      {results more : List Dispatched} {w middle w' : World σ ω} :
      SyncBus.Call handlers (.command c) ∅ w taken (.ok results) middle →
      Obeys handlers middle rest more w' →
      Obeys handlers w (c :: rest) (results ++ more) w'

/-- Messages that have been followed up to the last of them: the events among them are
published and the commands are handled, both in their order. -/
structure Sends (handlers : Handlers σ ω) (messages : List Message) (w : World σ ω)
    (published : List Envelope) (results : List Dispatched) (w' : World σ ω) : Prop where
  publishes : (messages.filterMap Message.event?).map Envelope.ofEvent = published.map .ok
  obeys : Obeys handlers w (messages.filterMap Message.command?) results w'

/-- What becomes of the messages that are followed up: what is published, what the
commands among them come to, and the world that they leave. -/
inductive FollowsUp (handlers : Handlers σ ω) (emitted : List Message) (w : World σ ω) :
    List Envelope → Except ServiceError (List Dispatched) → World σ ω → Prop
  | all {published : List Envelope} {results : List Dispatched} {w' : World σ ω} :
      Sends handlers emitted w published results w' →
      FollowsUp handlers emitted w published (.ok results) w'
  /-- An event cannot be published. -/
  | unpublished {before behind : List Message} {e : Event} {error : CodecError}
      {published : List Envelope} {results : List Dispatched} {w' : World σ ω} :
      emitted = before ++ .event e :: behind →
      Sends handlers before w published results w' →
      Envelope.ofEvent e = .error error →
      FollowsUp handlers emitted w published (.error (.codec error)) w'
  /-- A command ends its call with an error. -/
  | refused {before behind : List Message} {c : Command} {error : DispatchError}
      {taken : List Message} {published : List Envelope} {results : List Dispatched}
      {middle w' : World σ ω} :
      emitted = before ++ .command c :: behind →
      Sends handlers before w published results middle →
      SyncBus.Call handlers (.command c) ∅ middle taken (.error error) w' →
      FollowsUp handlers emitted w published (.error (.dispatch error)) w'

variable {handlers : Handlers σ ω} {rest : List Message} {w middle w' : World σ ω}
  {published : List Envelope} {results : List Dispatched}

theorem Sends.nothing : Sends handlers [] w [] [] w where
  publishes := rfl
  obeys := .nothing

theorem Sends.event {e : Event} {v : Envelope} (serialized : Envelope.ofEvent e = .ok v)
    (sends : Sends handlers rest w published results w') :
    Sends handlers (.event e :: rest) w (v :: published) results w' where
  publishes := List.cons_eq_cons.mpr ⟨serialized, sends.publishes⟩
  obeys := sends.obeys

theorem Sends.command {c : Command} {taken : List Message} {first : List Dispatched}
    (called : SyncBus.Call handlers (.command c) ∅ w taken (.ok first) middle)
    (sends : Sends handlers rest middle published results w') :
    Sends handlers (.command c :: rest) w published (first ++ results) w' where
  publishes := sends.publishes
  obeys := .command called sends.obeys

theorem Sends.event_inv {e : Event}
    (sends : Sends handlers (.event e :: rest) w published results w') :
    ∃ v more, Envelope.ofEvent e = .ok v ∧ published = v :: more ∧
      Sends handlers rest w more results w' := by
  rcases sends with ⟨publishes, obeys⟩
  cases published with
  | nil => cases publishes
  | cons v more =>
      obtain ⟨serialized, publishes⟩ := List.cons_eq_cons.mp publishes
      exact ⟨v, more, serialized, rfl, publishes, obeys⟩

theorem Sends.command_inv {c : Command}
    (sends : Sends handlers (.command c :: rest) w published results w') :
    ∃ taken first more middle,
      SyncBus.Call handlers (.command c) ∅ w taken (.ok first) middle ∧
        results = first ++ more ∧ Sends handlers rest middle published more w' := by
  rcases sends with ⟨publishes, _ | ⟨called, obeys⟩⟩
  exact ⟨_, _, _, _, called, rfl, publishes, obeys⟩

/-! ## Message by message -/

variable {outcome : Except ServiceError (List Dispatched)}

theorem followsUp_nil_iff :
    FollowsUp handlers [] w published outcome w' ↔ published = [] ∧ outcome = .ok [] ∧ w' = w := by
  constructor
  · rintro (⟨publishes, obeys⟩ | ⟨emittedEq, _⟩ | ⟨emittedEq, _⟩)
    · cases obeys
      exact ⟨List.map_eq_nil_iff.mp publishes.symm, rfl, rfl⟩
    · simp at emittedEq
    · simp at emittedEq
  · rintro ⟨rfl, rfl, rfl⟩
    exact .all .nothing

theorem followsUp_event_iff (e : Event) :
    FollowsUp handlers (.event e :: rest) w published outcome w' ↔
      (∃ v more, Envelope.ofEvent e = .ok v ∧ published = v :: more ∧
        FollowsUp handlers rest w more outcome w') ∨
      ∃ error, Envelope.ofEvent e = .error error ∧ published = [] ∧
        outcome = .error (.codec error) ∧ w' = w := by
  constructor
  · rintro (sends | ⟨emittedEq, sends, failed⟩ | ⟨emittedEq, sends, called⟩)
    · obtain ⟨v, more, serialized, rfl, sendsRest⟩ := sends.event_inv
      exact .inl ⟨v, more, serialized, rfl, .all sendsRest⟩
    · rcases List.cons_eq_append_iff.mp emittedEq with ⟨rfl, ⟨⟩⟩ | ⟨before, rfl, rfl⟩
      · rcases sends with ⟨publishes, obeys⟩
        cases obeys
        exact .inr ⟨_, failed, List.map_eq_nil_iff.mp publishes.symm, rfl, rfl⟩
      · obtain ⟨v, more, serialized, rfl, sendsRest⟩ := sends.event_inv
        exact .inl ⟨v, more, serialized, rfl, .unpublished rfl sendsRest failed⟩
    · rcases List.cons_eq_append_iff.mp emittedEq with ⟨_, ⟨⟩⟩ | ⟨before, rfl, rfl⟩
      obtain ⟨v, more, serialized, rfl, sendsRest⟩ := sends.event_inv
      exact .inl ⟨v, more, serialized, rfl, .refused rfl sendsRest called⟩
  · rintro (⟨v, more, serialized, rfl, followsUp⟩ | ⟨error, failed, rfl, rfl, rfl⟩)
    · rcases followsUp with sends | ⟨rfl, sends, failed⟩ | ⟨rfl, sends, called⟩
      · exact .all (sends.event serialized)
      · exact .unpublished rfl (sends.event serialized) failed
      · exact .refused rfl (sends.event serialized) called
    · exact .unpublished (List.nil_append _).symm .nothing failed

theorem followsUp_command_iff (c : Command) :
    FollowsUp handlers (.command c :: rest) w published outcome w' ↔
      (∃ taken first middle more, SyncBus.Call handlers (.command c) ∅ w taken (.ok first) middle ∧
        FollowsUp handlers rest middle published more w' ∧ outcome = more.map (first ++ ·)) ∨
      ∃ taken error, SyncBus.Call handlers (.command c) ∅ w taken (.error error) w' ∧
        published = [] ∧ outcome = .error (.dispatch error) := by
  constructor
  · rintro (sends | ⟨emittedEq, sends, failed⟩ | ⟨emittedEq, sends, called⟩)
    · obtain ⟨taken, first, more, middle, called, rfl, sendsRest⟩ := sends.command_inv
      exact .inl ⟨taken, first, middle, _, called, .all sendsRest, rfl⟩
    · rcases List.cons_eq_append_iff.mp emittedEq with ⟨_, ⟨⟩⟩ | ⟨before, rfl, rfl⟩
      obtain ⟨taken, first, more, middle, calledFirst, rfl, sendsRest⟩ := sends.command_inv
      exact .inl ⟨taken, first, middle, _, calledFirst, .unpublished rfl sendsRest failed, rfl⟩
    · rcases List.cons_eq_append_iff.mp emittedEq with ⟨rfl, ⟨⟩⟩ | ⟨before, rfl, rfl⟩
      · rcases sends with ⟨publishes, obeys⟩
        cases obeys
        exact .inr ⟨_, _, called, List.map_eq_nil_iff.mp publishes.symm, rfl⟩
      · obtain ⟨taken, first, more, middle, calledFirst, rfl, sendsRest⟩ := sends.command_inv
        exact .inl ⟨taken, first, middle, _, calledFirst, .refused rfl sendsRest called, rfl⟩
  · rintro (⟨taken, first, middle, more, called, followsUp, rfl⟩ | ⟨taken, error, called, rfl, rfl⟩)
    · rcases followsUp with sends | ⟨rfl, sends, failed⟩ | ⟨rfl, sends, refused⟩
      · exact .all (sends.command called)
      · exact .unpublished rfl (sends.command called) failed
      · exact .refused rfl (sends.command called) refused
    · exact .refused (List.nil_append _).symm .nothing called

/-! ## The worker's own loop -/

/-- What the loop returns is something that may become of the messages. -/
theorem followsUp_of_returns {budget : Nat} {emitted : List Message} {gained : List Dispatched}
    {s s' : Workbench σ ω} {r : Except ServiceError (List Dispatched)}
    (unlimited : s.queue.limit = none)
    (returned : (followUp handlers budget gained emitted).Returns s r s') :
    ∃ published outcome, FollowsUp handlers emitted s.world published outcome s'.world ∧
      s'.queue = s.queue.joined published ∧ r = outcome.map (gained ++ ·) := by
  induction emitted generalizing gained s with
  | nil =>
      simp only [followUp, returns_pure_iff] at returned
      rcases returned with ⟨rfl, rfl⟩
      refine ⟨[], .ok [], followsUp_nil_iff.mpr ⟨rfl, rfl, rfl⟩, s.queue.joined_nil.symm, ?_⟩
      simp [Except.map]
  | cons m rest ih =>
      cases m with
      | event e =>
          simp only [followUp, returns_bind_iff, returns_within_iff,
            EventQueue.publishEvent_returns_iff unlimited] at returned
          rcases returned with
            ⟨_, _, ⟨_, ⟨v, serialized, rfl, rfl⟩ | ⟨error, failed, rfl, rfl⟩, rfl⟩, returned⟩
          · obtain ⟨published, outcome, followsUp, queueEq, rfl⟩ :=
              ih (s := s.putQueue (s.queue.joined [v])) unlimited returned
            refine ⟨v :: published, outcome, ?_, ?_, rfl⟩
            · exact (followsUp_event_iff e).mpr (.inl ⟨v, published, serialized, rfl, followsUp⟩)
            · rw [queueEq]
              exact s.queue.joined_joined [v] published
          · rcases (returns_pure_iff _ _ _ _).mp returned with ⟨rfl, rfl⟩
            refine ⟨[], .error (.codec error), ?_, s.queue.joined_nil.symm, rfl⟩
            exact (followsUp_event_iff e).mpr (.inr ⟨error, failed, rfl, rfl, rfl⟩)
      | command c =>
          simp only [followUp, returns_bind_iff, returns_within_iff] at returned
          rcases returned with ⟨outcome, _, ⟨middle, handled, rfl⟩, returned⟩
          obtain ⟨taken, called⟩ := SyncBus.call_of_returns handled
          cases outcome with
          | ok first =>
              obtain ⟨published, outcome, followsUp, queueEq, rfl⟩ :=
                ih (s := s.putWorld middle) unlimited returned
              refine ⟨published, outcome.map (first ++ ·), ?_, queueEq, ?_⟩
              · exact (followsUp_command_iff c).mpr
                  (.inl ⟨taken, first, middle, outcome, called, followsUp, rfl⟩)
              · cases outcome <;> simp [Except.map]
          | error error =>
              rcases (returns_pure_iff _ _ _ _).mp returned with ⟨rfl, rfl⟩
              refine ⟨[], .error (.dispatch error), ?_, s.queue.joined_nil.symm, rfl⟩
              exact (followsUp_command_iff c).mpr (.inr ⟨taken, error, called, rfl, rfl⟩)

/-- What may become of the messages is what the loop returns with any budget that is large
enough. -/
theorem FollowsUp.settles {emitted : List Message}
    (followsUp : FollowsUp handlers emitted w published outcome w') {q : EventQueue}
    (unlimited : q.limit = none) (gained : List Dispatched) :
    Settles (fun budget => followUp handlers budget gained emitted) ⟨q, w⟩
      (outcome.map (gained ++ ·)) ⟨q.joined published, w'⟩ := by
  induction emitted generalizing w published outcome q gained with
  | nil =>
      rcases followsUp_nil_iff.mp followsUp with ⟨rfl, rfl, rfl⟩
      rw [EventQueue.joined_nil]
      have same : (Except.ok [] : Except ServiceError _).map (gained ++ ·) = .ok gained := by
        simp [Except.map]
      rw [same]
      exact settles_pure _ _
  | cons m rest ih =>
      cases m with
      | event e =>
          have publishing : ∀ {r q'}, (EventQueue.publishEvent e).Returns q r q' →
              Settles (fun _ => (EventQueue.publishEvent e).within Workbench.queue
                Workbench.putQueue) (⟨q, w⟩ : Workbench σ ω) r ⟨q', w⟩ :=
            fun published => published.settles.within Workbench.putQueue
          rcases (followsUp_event_iff e).mp followsUp with
            ⟨v, more, serialized, rfl, followsUpRest⟩ | ⟨error, failed, rfl, rfl, rfl⟩
          · have first := publishing ((EventQueue.publishEvent_returns_iff unlimited e _ _).mpr
              (.inl ⟨v, serialized, rfl, rfl⟩))
            have others := ih followsUpRest (q := q.joined [v]) unlimited gained
            rw [EventQueue.joined_joined] at others
            exact first.bind others
          · have first := publishing ((EventQueue.publishEvent_returns_iff unlimited e _ _).mpr
              (.inr ⟨error, failed, rfl, rfl⟩))
            rw [EventQueue.joined_nil]
            exact first.bind (settles_pure _ _)
      | command c =>
          have handling : ∀ {taken r middle},
              SyncBus.Call handlers (.command c) ∅ w taken r middle →
              Settles (fun budget => (SyncBus.handle handlers budget (.command c) ∅).within
                Workbench.world Workbench.putWorld) ⟨q, w⟩ r ⟨q, middle⟩ :=
            fun called => called.settles.within Workbench.putWorld
          rcases (followsUp_command_iff c).mp followsUp with
            ⟨taken, first, middle, more, called, followsUpRest, rfl⟩ |
              ⟨taken, error, called, rfl, rfl⟩
          · have others := ih followsUpRest unlimited (gained ++ first)
            have moreEq : (more.map (first ++ ·)).map (gained ++ ·) =
                more.map ((gained ++ first) ++ ·) := by
              cases more <;> simp [Except.map]
            rw [moreEq]
            exact (handling called).bind others
          · rw [EventQueue.joined_nil]
            exact (handling called).bind (settles_pure _ _)

end Worker

end Courier
