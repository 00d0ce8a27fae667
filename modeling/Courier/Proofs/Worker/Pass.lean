import Courier.Proofs.Worker.FollowUp

/-!
# One pass of a worker

A pass takes all envelopes out of the queue and processes them in order.  An envelope
that cannot be read is dropped, without a bus.  Any other one is handled on a bus of its
own: the handlers of its event have their turn, and what they emit is followed up.

`Worker.Processes` says what may become of one envelope, `Worker.WorksOff` what may become
of a list of them, and `Worker.Passes` what a pass makes of the queue that it finds.  A
pass ends wherever the handlers and the calls on commands end, however much is published
meanwhile: what it publishes is none of its own business.
-/

namespace Courier

open Courier.Action

/-- An envelope can be read only if its name is known; otherwise the error names it. -/
theorem Codec.decode_eq_error_iff (codec : Codec) (v : Envelope) (error : CodecError) :
    codec.decode v = .error error ↔
      (codec.contains v.eventName = false ∧ error = .unknownEvent v.eventName) ∨
        ∃ f refusal, codec.formats.get? v.eventName = some f ∧ f.read v.payload = .error refusal ∧
          error = .deserialize v.eventName refusal.cause.message := by
  simp only [decode, contains, Dict.contains]
  cases codec.formats.get? v.eventName with
  | none => simp [eq_comm]
  | some f =>
      simp only [Option.isSome_some, Bool.true_eq_false, false_and, false_or, Option.some.injEq,
        exists_and_left, exists_eq_left']
      cases f.read v.payload <;> simp [eq_comm]

/-- An envelope that has been processed. -/
structure Processed where
  envelope : Envelope
  /-- The turn of its event, if it could be read. -/
  turn : Option Turn
  /-- What has been published behind it. -/
  published : List Envelope
  result : Except ServiceError (List Dispatched)

/-- The report with further envelopes counted. -/
def WorkerReport.counting (report : WorkerReport) (processed : List Processed) : WorkerReport where
  processed := report.processed + processed.countP (·.result.isOk)
  failed := report.failed + processed.countP (!·.result.isOk)

theorem WorkerReport.counting_counting (report : WorkerReport) (first second : List Processed) :
    (report.counting first).counting second = report.counting (first ++ second) := by
  simp [counting, Nat.add_assoc]

/-- Every envelope is counted once. -/
theorem WorkerReport.counting_total (processed : List Processed) :
    (WorkerReport.counting {} processed).processed + (WorkerReport.counting {} processed).failed =
      processed.length := by
  have split := List.length_eq_countP_add_countP (fun p : Processed => p.result.isOk)
    (l := processed)
  simp only [counting]
  simpa using split.symm

namespace Worker

variable {σ ω : Type}

/-- What a worker may make of one envelope, with the world outside its buses. -/
inductive Processes (worker : Worker σ ω) (outside : ω) : Processed → ω → Prop
  /-- Nobody knows the name of the envelope. -/
  | unknown {v : Envelope} :
      worker.codec.contains v.eventName = false →
      Processes worker outside
        ⟨v, none, [], .error (.dispatch (.unknownMessageType v.eventName))⟩ outside
  /-- The payload of the envelope is not that of an event of its name. -/
  | unreadable {v : Envelope} {f : EventFormat} {refusal : Refusal} :
      worker.codec.formats.get? v.eventName = some f →
      f.read v.payload = .error refusal →
      Processes worker outside
        ⟨v, none, [], .error (.dispatch (.codec (.deserialize v.eventName refusal.cause.message)))⟩
        outside
  /-- The event of the envelope is handled on a bus of its own. -/
  | handled {v : Envelope} {e : Event} {bus : Bus σ ω} {between : ω}
      {invocations : List (String × Invocation)} {published : List Envelope}
      {outcome : Except ServiceError (List Dispatched)} {w w' : World σ ω} :
      worker.codec.decode v = .ok e →
      worker.makeBus.Returns outside bus between →
      Handler.InTurn ∅ (.event e) (bus.handlers.registered (.event e)) (bus.world between)
        invocations w →
      FollowsUp bus.handlers (Turn.emitted ⟨.event e, invocations⟩) w published outcome w' →
      Processes worker outside
        ⟨v, some ⟨.event e, invocations⟩, published,
          outcome.map (Turn.results ⟨.event e, invocations⟩ ++ ·)⟩ w'.outside

/-- What a worker may make of envelopes that it processes one after the other. -/
inductive WorksOff (worker : Worker σ ω) : ω → List Processed → ω → Prop
  | nothing {outside : ω} : WorksOff worker outside [] outside
  | envelope {p : Processed} {rest : List Processed} {outside between outside' : ω} :
      Processes worker outside p between → WorksOff worker between rest outside' →
      WorksOff worker outside (p :: rest) outside'

/-! ## One envelope -/

/-- On its bus, an event has its turn, and what is emitted is followed up. -/
theorem inTurn_of_handleOn_returns {handlers : Handlers σ ω} {budget : Nat} {e : Event}
    {s s' : Workbench σ ω} {r : Except ServiceError (List Dispatched)}
    (unlimited : s.queue.limit = none) (returned : (handleOn handlers budget e).Returns s r s') :
    ∃ invocations middle published outcome,
      Handler.InTurn ∅ (.event e) (handlers.registered (.event e)) s.world invocations middle ∧
        FollowsUp handlers (Turn.emitted ⟨.event e, invocations⟩) middle published outcome
          s'.world ∧
        s'.queue = s.queue.joined published ∧
        r = outcome.map (Turn.results ⟨.event e, invocations⟩ ++ ·) := by
  simp only [handleOn, returns_bind_iff, returns_within_iff, SyncBus.handleStep_returns_iff]
    at returned
  obtain ⟨_, _, ⟨middle, ⟨invocations, served, rfl⟩, rfl⟩, followed⟩ := returned
  obtain ⟨published, outcome, followsUp, queueEq, rfl⟩ :=
    followsUp_of_returns (s := s.putWorld middle) unlimited followed
  exact ⟨invocations, middle, published, outcome, served, followsUp, queueEq, rfl⟩

/-- What `process` returns is something that a worker may make of the envelope. -/
theorem processes_of_returns {worker : Worker σ ω} {budget : Nat} {v : Envelope}
    {s s' : Workplace ω} {r : Except ServiceError (List Dispatched)}
    (unlimited : s.queue.limit = none) (returned : (worker.process budget v).Returns s r s') :
    ∃ turn published, Processes worker s.outside ⟨v, turn, published, r⟩ s'.outside ∧
      s'.queue = s.queue.joined published := by
  simp only [process, returns_bind_iff, returns_tell_iff] at returned
  obtain ⟨_, _, rfl, returned⟩ := returned
  cases decoded : worker.codec.decode v with
  | error error =>
      simp only [decoded, returns_bind_iff, returns_tell_iff, returns_pure_iff] at returned
      obtain ⟨_, _, rfl, rfl, rfl⟩ := returned
      refine ⟨none, [], ?_, s.queue.joined_nil.symm⟩
      rcases (Codec.decode_eq_error_iff _ v error).mp decoded with
        ⟨unknown, rfl⟩ | ⟨f, refusal, known, refused, rfl⟩
      · exact .unknown unknown
      · exact .unreadable known refused
  | ok e =>
      simp only [decoded, returns_bind_iff, returns_within_iff] at returned
      obtain ⟨bus, _, ⟨between, made, rfl⟩, bench, handled, rfl⟩ := returned
      obtain ⟨invocations, middle, published, outcome, served, followsUp, queueEq, rfl⟩ :=
        inTurn_of_handleOn_returns (s := Workbench.ofBus bus (s.putOutside between)) unlimited
          handled
      exact ⟨_, published, .handled decoded made served followsUp, queueEq⟩

/-- An event that has its turn, and whose emissions are followed up, is handled so with
any budget that is large enough. -/
theorem FollowsUp.settles_handleOn {handlers : Handlers σ ω} {e : Event}
    {invocations : List (String × Invocation)} {published : List Envelope}
    {outcome : Except ServiceError (List Dispatched)} {w middle w' : World σ ω}
    (followsUp :
      FollowsUp handlers (Turn.emitted ⟨.event e, invocations⟩) middle published outcome w')
    (served : Handler.InTurn ∅ (.event e) (handlers.registered (.event e)) w invocations middle)
    {q : EventQueue} (unlimited : q.limit = none) :
    Settles (fun budget => handleOn handlers budget e) ⟨q, w⟩
      (outcome.map (Turn.results ⟨.event e, invocations⟩ ++ ·)) ⟨q.joined published, w'⟩ := by
  have stepped : (SyncBus.handleStep handlers (.event e) ∅).Returns w
      (.ok ⟨Turn.results ⟨.event e, invocations⟩, Turn.emitted ⟨.event e, invocations⟩⟩) middle :=
    (SyncBus.handleStep_returns_iff handlers _ _ _ _ _).mpr ⟨invocations, served, rfl⟩
  have step : Settles (fun _ => (SyncBus.handleStep handlers (.event e) ∅).within
      Workbench.world Workbench.putWorld) ⟨q, w⟩ _ ⟨q, middle⟩ :=
    stepped.settles.within Workbench.putWorld
  exact step.bind (followsUp.settles unlimited _)

/-- What a worker may make of an envelope is what `process` returns with any budget
that is large enough. -/
theorem Processes.settles {worker : Worker σ ω} {outside outside' : ω} {p : Processed}
    (processes : Processes worker outside p outside') {q : EventQueue}
    (unlimited : q.limit = none) :
    Settles (fun budget => worker.process budget p.envelope) ⟨q, outside⟩ p.result
      ⟨q.joined p.published, outside'⟩ := by
  have dropping : ∀ {error}, worker.codec.decode p.envelope = .error error →
      Settles (fun budget => worker.process budget p.envelope) ⟨q, outside⟩
        (.error (.dispatch (.ofCodec error))) ⟨q.joined [], outside⟩ := by
    intro error decoded
    simp only [process, decoded]
    rw [EventQueue.joined_nil]
    exact (settles_tell _ _).bind ((settles_tell _ _).bind (settles_pure _ _))
  cases processes with
  | unknown unknown =>
      exact dropping ((Codec.decode_eq_error_iff _ _ _).mpr (.inl ⟨unknown, rfl⟩))
  | unreadable known refused =>
      exact dropping ((Codec.decode_eq_error_iff _ _ _).mpr (.inr ⟨_, _, known, refused, rfl⟩))
  | @handled v e bus between invocations published outcome w w' decoded made served followsUp =>
      simp only [process, decoded]
      have opening : Settles (fun _ => worker.makeBus.within Workplace.outside Workplace.putOutside)
          ⟨q, outside⟩ bus ⟨q, between⟩ :=
        made.settles.within Workplace.putOutside
      have handling : Settles (fun budget => (handleOn bus.handlers budget e).within
          (Workbench.ofBus bus) Workbench.giveUp) ⟨q, between⟩ _ ⟨q.joined published, w'.outside⟩ :=
        (followsUp.settles_handleOn served unlimited).within
          (s := (⟨q, between⟩ : Workplace ω)) (t := (⟨q.joined published, w'⟩ : Workbench σ ω))
          Workbench.giveUp
      exact (settles_tell _ _).bind (opening.bind handling)

/-! ## All envelopes -/

/-- What `processAll` returns counts the envelopes, which it has processed in order. -/
theorem worksOff_of_returns {worker : Worker σ ω} {budget : Nat} {vs : List Envelope}
    {report report' : WorkerReport} {s s' : Workplace ω} (unlimited : s.queue.limit = none)
    (returned : (worker.processAll budget report vs).Returns s report' s') :
    ∃ processed, WorksOff worker s.outside processed s'.outside ∧
      processed.map (·.envelope) = vs ∧
      s'.queue = s.queue.joined (processed.flatMap (·.published)) ∧
      report' = report.counting processed := by
  induction vs generalizing report s with
  | nil =>
      simp only [processAll, returns_pure_iff] at returned
      rcases returned with ⟨rfl, rfl⟩
      exact ⟨[], .nothing, rfl, s.queue.joined_nil.symm, rfl⟩
  | cons v rest ih =>
      simp only [processAll, returns_bind_iff] at returned
      obtain ⟨r, middle, returnedFirst, returned⟩ := returned
      obtain ⟨turn, published, processes, queueEq⟩ := processes_of_returns unlimited returnedFirst
      have unlimitedRest : middle.queue.limit = none := by rw [queueEq]; exact unlimited
      -- Behind the first envelope the others are processed, however it has come out.
      obtain ⟨next, counted, returnedRest⟩ : ∃ next : WorkerReport,
          next = report.counting [⟨v, turn, published, r⟩] ∧
            (worker.processAll budget next rest).Returns middle report' s' := by
        cases r with
        | ok results => exact ⟨_, rfl, returned⟩
        | error error =>
            simp only [returns_bind_iff, returns_tell_iff] at returned
            obtain ⟨_, _, rfl, returned⟩ := returned
            exact ⟨_, rfl, returned⟩
      obtain ⟨processed, worksOff, envelopes, queueEqRest, rfl⟩ := ih unlimitedRest returnedRest
      refine ⟨_ :: processed, .envelope processes worksOff, ?_, ?_, ?_⟩
      · rw [List.map_cons, envelopes]
      · rw [queueEqRest, queueEq, EventQueue.joined_joined, List.flatMap_cons]
      · rw [counted, WorkerReport.counting_counting, List.singleton_append]

/-- What a worker may make of envelopes is what `processAll` returns with any budget that
is large enough. -/
theorem WorksOff.settles {worker : Worker σ ω} {outside outside' : ω} {processed : List Processed}
    (worksOff : WorksOff worker outside processed outside') {q : EventQueue}
    (unlimited : q.limit = none) (report : WorkerReport) :
    Settles (fun budget => worker.processAll budget report (processed.map (·.envelope)))
      ⟨q, outside⟩ (report.counting processed)
      ⟨q.joined (processed.flatMap (·.published)), outside'⟩ := by
  induction worksOff generalizing q report with
  | nothing =>
      rw [List.flatMap_nil, EventQueue.joined_nil]
      exact settles_pure _ _
  | @envelope p rest outside between outside' processes _ ih =>
      have first := processes.settles unlimited
      have others := ih (q := q.joined p.published) unlimited (report.counting [p])
      rw [EventQueue.joined_joined, WorkerReport.counting_counting] at others
      rcases p with ⟨v, turn, published, r⟩
      cases r with
      | ok results => exact first.bind others
      | error error => exact first.bind ((settles_tell _ _).bind others)

end Worker

/-! ## The whole pass -/

/-- The handlers of events return, and so do the calls on the commands that they emit. -/
structure Handlers.Calm {σ ω : Type} (handlers : Handlers σ ω) : Prop where
  serves : ∀ e, ∀ h ∈ handlers.registered (.event e), ∀ w,
    ∃ invocation w', (h.invoke (.event e) ∅).Returns w invocation w'
  obeys : ∀ e, ∀ h ∈ handlers.registered (.event e), ∀ w invocation w',
    (h.invoke (.event e) ∅).Returns w invocation w' →
      ∀ c, .command c ∈ invocation.accepted →
        ∀ w, ∃ taken r w', SyncBus.Call handlers (.command c) ∅ w taken r w'

namespace Worker

variable {σ ω : Type}

/-- The worker can always make a bus, and a calm one. -/
def Calm (worker : Worker σ ω) : Prop :=
  ∀ outside, ∃ bus outside', worker.makeBus.Returns outside bus outside' ∧ bus.handlers.Calm

/-- Where the calls on the commands end, messages can be followed up. -/
theorem exists_followsUp {handlers : Handlers σ ω} {emitted : List Message}
    (calls : ∀ c, .command c ∈ emitted →
      ∀ w, ∃ taken r w', SyncBus.Call handlers (.command c) ∅ w taken r w')
    (w : World σ ω) :
    ∃ published outcome w', FollowsUp handlers emitted w published outcome w' := by
  induction emitted generalizing w with
  | nil => exact ⟨[], .ok [], w, followsUp_nil_iff.mpr ⟨rfl, rfl, rfl⟩⟩
  | cons m rest ih =>
      have others := ih fun c mem => calls c (List.mem_cons_of_mem m mem)
      cases m with
      | event e =>
          cases serialized : Envelope.ofEvent e with
          | error error =>
              exact ⟨_, _, _, (followsUp_event_iff e).mpr (.inr ⟨error, serialized, rfl, rfl, rfl⟩)⟩
          | ok v =>
              obtain ⟨published, outcome, w', followsUp⟩ := others w
              exact ⟨_, outcome, w',
                (followsUp_event_iff e).mpr (.inl ⟨v, published, serialized, rfl, followsUp⟩)⟩
      | command c =>
          obtain ⟨taken, r, middle, called⟩ := calls c List.mem_cons_self w
          cases r with
          | error error =>
              exact ⟨_, _, _, (followsUp_command_iff c).mpr (.inr ⟨taken, error, called, rfl, rfl⟩)⟩
          | ok first =>
              obtain ⟨published, outcome, w', followsUp⟩ := others middle
              exact ⟨published, _, w', (followsUp_command_iff c).mpr
                (.inl ⟨taken, first, middle, outcome, called, followsUp, rfl⟩)⟩

/-- A calm worker comes to an end with every envelope. -/
theorem Calm.exists_processes {worker : Worker σ ω} (calm : worker.Calm) (outside : ω)
    (v : Envelope) :
    ∃ turn published r outside', Processes worker outside ⟨v, turn, published, r⟩ outside' := by
  cases decoded : worker.codec.decode v with
  | error error =>
      rcases (Codec.decode_eq_error_iff _ v error).mp decoded with
        ⟨unknown, rfl⟩ | ⟨f, refusal, known, refused, rfl⟩
      · exact ⟨_, _, _, _, .unknown unknown⟩
      · exact ⟨_, _, _, _, .unreadable known refused⟩
  | ok e =>
      obtain ⟨bus, between, made, calmBus⟩ := calm outside
      obtain ⟨invocations, middle, served⟩ :=
        Handler.exists_inTurn (calmBus.serves e) (bus.world between)
      have calls : ∀ c, .command c ∈ Turn.emitted ⟨.event e, invocations⟩ →
          ∀ w, ∃ taken r w', SyncBus.Call bus.handlers (.command c) ∅ w taken r w' := by
        intro c mem
        obtain ⟨entry, memInvocations, accepted⟩ := List.mem_flatMap.mp mem
        obtain ⟨h, registered, _, _, invoked⟩ := served.invoked entry memInvocations
        exact calmBus.obeys e h registered _ _ _ invoked c accepted
      obtain ⟨published, outcome, w', followsUp⟩ := exists_followsUp calls middle
      exact ⟨_, _, _, _, .handled decoded made served followsUp⟩

theorem Calm.exists_worksOff {worker : Worker σ ω} (calm : worker.Calm) (vs : List Envelope)
    (outside : ω) :
    ∃ processed outside', WorksOff worker outside processed outside' ∧
      processed.map (·.envelope) = vs := by
  induction vs generalizing outside with
  | nil => exact ⟨[], outside, .nothing, rfl⟩
  | cons v rest ih =>
      obtain ⟨turn, published, r, between, processes⟩ := calm.exists_processes outside v
      obtain ⟨processed, outside', worksOff, envelopes⟩ := ih between
      refine ⟨_ :: processed, outside', .envelope processes worksOff, ?_⟩
      rw [List.map_cons, envelopes]

/-- What envelopes a pass finds in the queue, how it is said to have done with them, and
what it leaves. -/
structure Passes (worker : Worker σ ω) (s : Workplace ω) (processed : List Processed)
    (report : WorkerReport) (s' : Workplace ω) : Prop where
  envelopes : processed.map (·.envelope) = s.queue.pending
  worksOff : WorksOff worker s.outside processed s'.outside
  queue : s'.queue = EventQueue.joined { s.queue with pending := [] }
    (processed.flatMap (·.published))
  report : report = WorkerReport.counting {} processed

theorem passes_of_returns {worker : Worker σ ω} {budget : Nat} {report : WorkerReport}
    {s s' : Workplace ω} (unlimited : s.queue.limit = none)
    (returned : (worker.runPending budget).Returns s report s') :
    ∃ processed, Passes worker s processed report s' := by
  simp only [runPending, EventQueue.takeAll, returns_bind_iff, returns_within_iff, returns_get_iff,
    returns_modify_iff, returns_tell_iff, returns_pure_iff] at returned
  obtain ⟨_, _, ⟨_, ⟨_, _, ⟨rfl, rfl⟩, _, _, rfl, rfl, rfl⟩, rfl⟩, _, _, processedAll, _, _, rfl,
    rfl, rfl⟩ := returned
  obtain ⟨processed, worksOff, envelopes, queueEq, reportEq⟩ :=
    worksOff_of_returns (s := s.putQueue { s.queue with pending := [] }) unlimited processedAll
  exact ⟨processed, envelopes, worksOff, queueEq, reportEq⟩

theorem Passes.settles {worker : Worker σ ω} {processed : List Processed} {report : WorkerReport}
    {s s' : Workplace ω} (passes : Passes worker s processed report s')
    (unlimited : s.queue.limit = none) :
    Settles (fun budget => worker.runPending budget) s report s' := by
  rcases passes with ⟨envelopes, worksOff, queueEq, rfl⟩
  have taking : EventQueue.takeAll.Returns s.queue s.queue.pending { s.queue with pending := [] } :=
    ⟨rfl, rfl⟩
  have taken : Settles (fun _ => EventQueue.takeAll.within Workplace.queue Workplace.putQueue) s
      s.queue.pending (s.putQueue { s.queue with pending := [] }) :=
    taking.settles.within Workplace.putQueue
  have working := worksOff.settles (q := { s.queue with pending := [] }) unlimited {}
  rw [← queueEq, envelopes] at working
  exact taken.bind (working.bind ((settles_tell _ _).bind (settles_pure _ _)))

/-- Whatever the handlers do, a pass that ends has processed the envelopes that it has
found, each once and in order, has counted each of them once, and leaves in the queue what
was published meanwhile.  A pass of a calm worker ends, however much is published. -/
theorem runPending_passes (worker : Worker σ ω) (pending : List Envelope) (count : Nat)
    (outside : ω) :
    (∀ budget report s',
      (worker.runPending budget).Returns ⟨{ pending, published := count }, outside⟩ report s' →
        report.processed + report.failed = pending.length ∧
          ∃ processed,
            Passes worker ⟨{ pending, published := count }, outside⟩ processed report s') ∧
    (worker.Calm → ∃ report s',
      Settles worker.runPending ⟨{ pending, published := count }, outside⟩ report s') := by
  constructor
  · intro budget report s' returned
    obtain ⟨processed, passes⟩ := passes_of_returns rfl returned
    refine ⟨?_, processed, passes⟩
    calc report.processed + report.failed
        = processed.length := by rw [passes.report, WorkerReport.counting_total]
      _ = (processed.map (·.envelope)).length := (List.length_map _).symm
      _ = pending.length := by rw [passes.envelopes]
  · intro calm
    obtain ⟨processed, outside', worksOff, envelopes⟩ := calm.exists_worksOff pending outside
    have passes : Passes worker ⟨{ pending, published := count }, outside⟩ processed _
        ⟨EventQueue.joined { pending := [], published := count } (processed.flatMap (·.published)),
          outside'⟩ :=
      ⟨envelopes, worksOff, rfl, rfl⟩
    exact ⟨_, _, passes.settles rfl⟩

end Worker

/-! ## Orders by post -/

namespace Shop

/-- A worker that opens the shop for each order. -/
def worker : Worker Nat (List String) where
  codec := .ofList [{ type := ordered.type, shape := .any }]
  makeBus := pure { handlers := handlers 0, instances := fun _ => 0 }

/-- An order, and an envelope that the worker cannot read. -/
def letters : List Envelope :=
  [⟨"Ordered", .null⟩, ⟨"Packed", .null⟩]

theorem clerk_returns (post : Post) (m : Message) (w : World Nat (List String)) :
    ∃ invocation w', ((clerk 0 post).invoke m ∅).Returns w invocation w' := by
  unfold Handler.invoke
  split
  · exact ⟨_, w, ⟨rfl, rfl⟩⟩
  · exact ⟨⟨post.result, post.emitted⟩, _, ⟨rfl, rfl⟩⟩

/-- A clerk leaves no message but those of its post. -/
theorem mem_emitted_of_clerk_returns {post : Post} {m emitted : Message}
    {w w' : World Nat (List String)} {invocation : Invocation}
    (returned : ((clerk 0 post).invoke m ∅).Returns w invocation w')
    (mem : emitted ∈ invocation.accepted) : emitted ∈ post.emitted := by
  unfold Handler.invoke at returned
  split at returned
  · rcases (returns_pure_iff _ _ _ _).mp returned with ⟨rfl, rfl⟩
    simp [Invocation.accepted, Invocation.mismatch] at mem
  · obtain ⟨rfl, _⟩ := returned.unique (b := ⟨post.result, post.emitted⟩) ⟨rfl, rfl⟩
    unfold Invocation.accepted at mem
    split at mem
    · exact mem
    · simp at mem

/-- The handlers of events are clerks, and charging is all that they ask for. -/
theorem mem_registered_event {e : Event} {h : Handler Nat (List String)}
    (registered : h ∈ (handlers 0).registered (.event e)) :
    ∃ post, h = clerk 0 post ∧ ∀ c, .command c ∈ post.emitted → c = charge := by
  have found : (handlers 0).eventHandlers? e.type =
      if e.type = packed.type then some [clerk 0 packedPost]
      else if e.type = ordered.type then some (orderPosts.map (clerk 0)) else none := by
    simp only [handlers, Registry.eventHandlers?, Registry.setCommandHandler,
      Registry.setEventHandlers, Table.get?_insert]
    rfl
  rw [Registry.registered, found] at registered
  split at registered
  · obtain rfl := List.mem_singleton.mp registered
    exact ⟨packedPost, rfl, by simp [packedPost]⟩
  · split at registered
    · obtain ⟨post, mem, rfl⟩ := List.mem_map.mp registered
      refine ⟨post, rfl, ?_⟩
      intro c emitted
      rcases List.mem_cons.mp mem with rfl | mem
      · simpa using emitted
      · obtain rfl := List.mem_singleton.mp mem
        simp at emitted
    · simp at registered

theorem handlers_calm : (handlers 0).Calm where
  serves := by
    intro e h registered w
    obtain ⟨post, rfl, _⟩ := mem_registered_event registered
    exact clerk_returns post (.event e) w
  obeys := by
    intro e h registered w invocation w' invoked c accepted w
    obtain ⟨post, rfl, charging⟩ := mem_registered_event registered
    obtain rfl := charging c (mem_emitted_of_clerk_returns invoked accepted)
    have handled : (SyncBus.handle (handlers 0) 1 (.command charge) ∅).Returns w
        (.ok [⟨.command charge, "till", .unit⟩]) _ := ⟨rfl, rfl⟩
    obtain ⟨taken, called⟩ := SyncBus.call_of_returns handled
    exact ⟨taken, _, _, called⟩

theorem worker_calm : worker.Calm := by
  intro outside
  exact ⟨_, outside, (returns_pure_iff _ _ _ _).mpr ⟨rfl, rfl⟩, handlers_calm⟩

end Shop

namespace Worker

/-- The order is handled and its delivery published; the other letter is dropped. -/
theorem runPending_passes_letters :
    ∃ s', (Shop.worker.runPending 1).Returns ⟨{ pending := Shop.letters, published := 2 }, []⟩
        ⟨1, 1⟩ s' ∧
      s'.queue.pending = [⟨"Packed", .null⟩] ∧ s'.outside = ["sales", "stock", "till"] ∧
      1 + 1 = Shop.letters.length ∧
      (∃ processed, Passes Shop.worker ⟨{ pending := Shop.letters, published := 2 }, []⟩ processed
        ⟨1, 1⟩ s') ∧
      ∃ report s'', Settles Shop.worker.runPending
        ⟨{ pending := Shop.letters, published := 2 }, []⟩ report s'' := by
  have returned : (Shop.worker.runPending 1).Returns
      ⟨{ pending := Shop.letters, published := 2 }, []⟩ ⟨1, 1⟩ _ := ⟨rfl, rfl⟩
  obtain ⟨ends, settles⟩ := runPending_passes Shop.worker Shop.letters 2 []
  obtain ⟨total, passes⟩ := ends 1 _ _ returned
  exact ⟨_, returned, rfl, rfl, total, passes, settles Shop.worker_calm⟩

end Worker

end Courier
