import Courier.Proofs.Bus.Generations
import Courier.Proofs.Worker.Pass

/-!
# Passes of a worker and one call

A worker handles the events of one generation of a cascade in one pass, each on a bus of
its own, and what they emit waits in the queue for the next pass.  A call handles the
whole cascade on one bus, from a queue that grows behind.  Where handlers are steady and
events come back from their envelopes unchanged, both come to the same turns in the same
order, and there are as many passes as generations.  The induction is on the generations:
`Passes.answered` is what one pass makes of one of them.
-/

namespace Courier

open Courier.Action

variable {σ ω : Type}

/-- The event has an envelope, from which it is read again unchanged. -/
def Codec.Recovers (codec : Codec) (e : Event) : Prop :=
  ∃ v, Envelope.ofEvent e = .ok v ∧ codec.decode v = .ok e

/-- A pass of a worker, with its report. -/
structure Pass where
  processed : List Processed
  report : WorkerReport

/-- The turns of the events that a pass has handled. -/
def Pass.turns (pass : Pass) : List Turn :=
  pass.processed.filterMap (·.turn)

namespace Worker

/-- The worker can always make a bus, and every bus that it makes has the same handlers. -/
def Provides (worker : Worker σ ω) (handlers : Handlers σ ω) : Prop :=
  ∀ outside, ∃ bus outside', worker.makeBus.Returns outside bus outside' ∧ bus.handlers = handlers

/-- Passes that are made one after the other, each on a queue that is not empty, until the
queue is empty. -/
inductive RunsDry (worker : Worker σ ω) : Workplace ω → List Pass → Workplace ω → Prop
  | dry {s : Workplace ω} : s.queue.pending = [] → RunsDry worker s [] s
  | pass {pass : Pass} {rest : List Pass} {s middle s' : Workplace ω} :
      s.queue.pending ≠ [] → Settles worker.runPending s pass.report middle →
      Passes worker s pass.processed pass.report middle → RunsDry worker middle rest s' →
      RunsDry worker s (pass :: rest) s'

variable {worker : Worker σ ω} {handlers : Handlers σ ω} {es next : List Event} {e : Event}
  {turn : Turn} {turns : List Turn} {vs us published : List Envelope}
  {outcome : Except ServiceError (List Dispatched)} {outside outside' : ω}

/-! ## One envelope -/

/-- Of events that have envelopes, all are published. -/
theorem followsUp_events {w w' : World σ ω}
    (followsUp : FollowsUp handlers (next.map .event) w published outcome w')
    (serialized : next.map Envelope.ofEvent = us.map .ok) : published = us ∧ outcome = .ok [] := by
  induction next generalizing us published with
  | nil =>
      rcases followsUp_nil_iff.mp followsUp with ⟨rfl, rfl, _⟩
      exact ⟨(List.map_eq_nil_iff.mp serialized.symm).symm, rfl⟩
  | cons e rest ih =>
      obtain ⟨v, others, rfl, first, serializedRest⟩ := List.map_eq_cons_iff.mp serialized.symm
      rcases (followsUp_event_iff e).mp followsUp with
        ⟨v', more, serializedFirst, rfl, followsUpRest⟩ | ⟨error, failed, _⟩
      · obtain rfl : v = v' := Except.ok.inj (first.trans serializedFirst)
        rcases ih followsUpRest serializedRest.symm with ⟨rfl, rfl⟩
        exact ⟨rfl, rfl⟩
      · rw [failed] at first
        cases first

/-- The event of an envelope that can be read has its turn. -/
theorem Processes.answered {p : Processed} (processes : Processes worker outside p outside')
    (provides : worker.Provides handlers) (answers : handlers.Answers e turn)
    (decoded : worker.codec.decode p.envelope = .ok e)
    (emitted : turn.emitted = next.map .event)
    (serialized : next.map Envelope.ofEvent = us.map .ok) :
    p.turn = some turn ∧ p.published = us ∧ p.result = .ok turn.results := by
  rcases turn with ⟨m, invocations⟩
  obtain rfl : m = .event e := answers.message
  cases processes with
  | unknown unknown =>
      have failed := (Codec.decode_eq_error_iff _ _ _).mpr (.inl ⟨unknown, rfl⟩)
      cases failed.symm.trans decoded
  | unreadable known refused =>
      have failed := (Codec.decode_eq_error_iff _ _ _).mpr (.inr ⟨_, _, known, refused, rfl⟩)
      cases failed.symm.trans decoded
  | handled decodedAs made served followsUp =>
      obtain rfl := Except.ok.inj (decodedAs.symm.trans decoded)
      obtain ⟨bus, _, madeToo, rfl⟩ := provides outside
      obtain ⟨rfl, _⟩ := made.unique madeToo
      obtain ⟨_, servedToo⟩ := answers.serves _
      obtain ⟨rfl, _⟩ := served.unique servedToo
      rw [emitted] at followsUp
      rcases followsUp_events followsUp serialized with ⟨rfl, rfl⟩
      refine ⟨rfl, rfl, ?_⟩
      simp [Except.map]

theorem exists_processes_of_answers (provides : worker.Provides handlers)
    (answers : handlers.Answers e turn) {v : Envelope} (decoded : worker.codec.decode v = .ok e)
    (emitted : turn.emitted = next.map .event) (outside : ω) :
    ∃ p outside', p.envelope = v ∧ Processes worker outside p outside' := by
  rcases turn with ⟨m, invocations⟩
  obtain rfl : m = .event e := answers.message
  obtain ⟨bus, between, made, rfl⟩ := provides outside
  obtain ⟨w, served⟩ := answers.serves (bus.world between)
  have calls : ∀ c, .command c ∈ next.map Message.event → ∀ w, ∃ taken r w',
      SyncBus.Call bus.handlers (.command c) ∅ w taken r w' := by simp
  obtain ⟨published, outcome, w', followsUp⟩ := exists_followsUp calls w
  rw [← emitted] at followsUp
  exact ⟨_, _, rfl, .handled decoded made served followsUp⟩

/-! ## One generation -/

theorem exists_envelopes (recovers : ∀ e ∈ es, worker.codec.Recovers e) :
    ∃ vs : List Envelope, es.map Envelope.ofEvent = vs.map .ok := by
  induction es with
  | nil => exact ⟨[], rfl⟩
  | cons e rest ih =>
      obtain ⟨v, serialized, _⟩ := recovers e List.mem_cons_self
      obtain ⟨vs, serializedRest⟩ := ih fun e mem => recovers e (List.mem_cons_of_mem _ mem)
      exact ⟨v :: vs, by rw [List.map_cons, List.map_cons, serialized, serializedRest]⟩

theorem exists_worksOff_of_answers (provides : worker.Provides handlers)
    (recovers : ∀ e ∈ es, worker.codec.Recovers e)
    (answers : List.Forall₂ handlers.Answers es turns)
    (emitted : turns.flatMap Turn.emitted = next.map .event)
    (queued : es.map Envelope.ofEvent = vs.map .ok) (outside : ω) :
    ∃ processed outside', WorksOff worker outside processed outside' ∧
      processed.map (·.envelope) = vs := by
  induction answers generalizing vs next outside with
  | nil =>
      obtain rfl : vs = [] := List.map_eq_nil_iff.mp queued.symm
      exact ⟨[], outside, .nothing, rfl⟩
  | @cons e turn es turns answersFirst _ ih =>
      obtain ⟨v, others, rfl, serialized, queuedRest⟩ := List.map_eq_cons_iff.mp queued.symm
      obtain ⟨first, later, rfl, emittedFirst, emittedRest⟩ :=
        List.map_eq_append_iff.mp emitted.symm
      obtain ⟨v', serializedAs, decoded⟩ := recovers e List.mem_cons_self
      obtain rfl : v = v' := Except.ok.inj (serialized.trans serializedAs)
      obtain ⟨p, between, rfl, processes⟩ :=
        exists_processes_of_answers provides answersFirst decoded emittedFirst.symm outside
      obtain ⟨processed, outside', worksOff, rfl⟩ :=
        ih (fun e mem => recovers e (List.mem_cons_of_mem _ mem)) emittedRest.symm queuedRest.symm
          between
      exact ⟨p :: processed, outside', .envelope processes worksOff, rfl⟩

/-- The envelopes of a generation have its turns, and those of the next one are
published. -/
theorem WorksOff.answered {processed : List Processed}
    (worksOff : WorksOff worker outside processed outside') (provides : worker.Provides handlers)
    (recovers : ∀ e ∈ es, worker.codec.Recovers e)
    (answers : List.Forall₂ handlers.Answers es turns)
    (emitted : turns.flatMap Turn.emitted = next.map .event)
    (queued : es.map Envelope.ofEvent = (processed.map (·.envelope)).map .ok)
    (serialized : next.map Envelope.ofEvent = us.map .ok) :
    processed.filterMap (·.turn) = turns ∧ processed.flatMap (·.published) = us ∧
      ∀ p ∈ processed, p.result.isOk := by
  induction answers generalizing next us outside processed with
  | nil =>
      obtain rfl : processed = [] := by simpa using queued.symm
      obtain rfl : next = [] := List.map_eq_nil_iff.mp emitted.symm
      exact ⟨rfl, (List.map_eq_nil_iff.mp serialized.symm).symm, by simp⟩
  | @cons e turn es turns answersFirst _ ih =>
      cases worksOff with
      | nothing => simp at queued
      | @envelope p rest _ between _ processes worksOffRest =>
          obtain ⟨serializedFirst, queuedRest⟩ := List.cons_eq_cons.mp queued
          obtain ⟨first, later, rfl, emittedFirst, emittedRest⟩ :=
            List.map_eq_append_iff.mp emitted.symm
          rw [List.map_append] at serialized
          obtain ⟨usFirst, usRest, rfl, publishedFirst, publishedRest⟩ :=
            List.map_eq_append_iff.mp serialized.symm
          obtain ⟨v, serializedAs, decoded⟩ := recovers e List.mem_cons_self
          obtain rfl : p.envelope = v := Except.ok.inj (serializedFirst.symm.trans serializedAs)
          obtain ⟨turnEq, rfl, resultEq⟩ := processes.answered provides answersFirst decoded
            emittedFirst.symm publishedFirst.symm
          obtain ⟨turnsEq, rfl, succeeded⟩ :=
            ih worksOffRest (fun e mem => recovers e (List.mem_cons_of_mem _ mem))
              emittedRest.symm queuedRest publishedRest.symm
          refine ⟨?_, rfl, ?_⟩
          · rw [List.filterMap_cons_some turnEq, turnsEq]
          · intro p' mem
            rcases List.mem_cons.mp mem with rfl | mem
            · rw [resultEq]
              rfl
            · exact succeeded p' mem

/-- A pass that finds a generation in the queue has its turns, does not fail, and leaves
the next generation. -/
theorem Passes.answered {pass : Pass} {s s' : Workplace ω}
    (passes : Passes worker s pass.processed pass.report s') (provides : worker.Provides handlers)
    (recovers : ∀ e ∈ es, worker.codec.Recovers e)
    (answers : List.Forall₂ handlers.Answers es turns)
    (emitted : turns.flatMap Turn.emitted = next.map .event)
    (queued : es.map Envelope.ofEvent = s.queue.pending.map .ok)
    (serialized : next.map Envelope.ofEvent = us.map .ok) :
    pass.turns = turns ∧ pass.report.failed = 0 ∧
      s'.queue = EventQueue.joined { s.queue with pending := [] } us := by
  rw [← passes.envelopes] at queued
  obtain ⟨turnsEq, publishedEq, succeeded⟩ :=
    passes.worksOff.answered provides recovers answers emitted queued serialized
  refine ⟨turnsEq, ?_, ?_⟩
  · rw [passes.report]
    simpa [WorkerReport.counting] using succeeded
  · rw [passes.queue, publishedEq]

theorem exists_passes_of_answers (provides : worker.Provides handlers)
    (recovers : ∀ e ∈ es, worker.codec.Recovers e)
    (answers : List.Forall₂ handlers.Answers es turns)
    (emitted : turns.flatMap Turn.emitted = next.map .event) {s : Workplace ω}
    (queued : es.map Envelope.ofEvent = s.queue.pending.map .ok) :
    ∃ (pass : Pass) (s' : Workplace ω), Passes worker s pass.processed pass.report s' := by
  obtain ⟨processed, outside', worksOff, envelopes⟩ :=
    exists_worksOff_of_answers provides recovers answers emitted queued s.outside
  exact ⟨⟨processed, .counting {} processed⟩, ⟨_, outside'⟩, envelopes, worksOff, rfl, rfl⟩

/-! ## The whole cascade -/

/-- From a queue with the events that start a cascade, the passes have the turns of its
generations, one after the other, and none of them fails. -/
theorem runsDry_of_cascade {generations : List (List Turn)}
    (cascade : handlers.Cascade es generations) (w : World σ ω)
    (provides : worker.Provides handlers)
    (recovers : ∀ e, handlers.Arises es e → worker.codec.Recovers e) {s : Workplace ω}
    (unlimited : s.queue.limit = none)
    (queued : es.map Envelope.ofEvent = s.queue.pending.map .ok) :
    (∃ passes s', RunsDry worker s passes s') ∧
      ∀ passes s', RunsDry worker s passes s' →
        passes.map Pass.turns = generations ∧ ∀ pass ∈ passes, pass.report.failed = 0 := by
  induction cascade generalizing s with
  | ended =>
      have empty : s.queue.pending = [] := List.map_eq_nil_iff.mp queued.symm
      refine ⟨⟨[], s, .dry empty⟩, ?_⟩
      rintro _ _ (_ | ⟨nonempty, _, _, _⟩)
      · simp
      · exact absurd empty nonempty
  | @generation es next turns later nonempty answers emitted _ ih =>
      have next_iff := Handlers.mem_next_iff answers w emitted
      have recoversHere : ∀ e ∈ es, worker.codec.Recovers e :=
        fun e mem => recovers e ⟨e, mem, .refl⟩
      have recoversNext : ∀ e, handlers.Arises next e → worker.codec.Recovers e :=
        fun e arises => recovers e (arises.ofNext next_iff)
      obtain ⟨us, serialized⟩ :=
        exists_envelopes fun e mem => recoversNext e ⟨e, mem, .refl⟩
      have found : s.queue.pending ≠ [] := by
        intro empty
        rw [empty] at queued
        exact nonempty (List.map_eq_nil_iff.mp queued)
      constructor
      · obtain ⟨pass, middle, passes⟩ :=
          exists_passes_of_answers provides recoversHere answers emitted queued
        obtain ⟨_, _, queueEq⟩ :=
          passes.answered provides recoversHere answers emitted queued serialized
        obtain ⟨⟨more, s', dry⟩, _⟩ := ih recoversNext (s := middle)
          (by rw [queueEq]; exact unlimited) (by rw [queueEq]; exact serialized)
        exact ⟨pass :: more, s', .pass found (passes.settles unlimited) passes dry⟩
      · intro _ s' dry
        cases dry with
        | dry empty => exact absurd empty found
        | @pass pass rest _ middle _ _ _ passes dry =>
            obtain ⟨turnsEq, noFailure, queueEq⟩ :=
              passes.answered provides recoversHere answers emitted queued serialized
            obtain ⟨turnsEqRest, noFailureRest⟩ := (ih recoversNext (s := middle)
              (by rw [queueEq]; exact unlimited) (by rw [queueEq]; exact serialized)).2 rest s' dry
            constructor
            · rw [List.map_cons, turnsEq, turnsEqRest]
            · exact List.forall_mem_cons.mpr ⟨noFailure, noFailureRest⟩

/-- Where handlers are steady and events come back from their envelopes unchanged, a
worker that makes passes until its queue is empty has the same turns, with the same
invocations in the same order, as the loop of a call from a queue with the same events on
one bus.  No pass fails, and there are as many of them as events in the longest chain. -/
theorem runsDry_cascade (worker : Worker σ ω) (handlers : Handlers σ ω) (es : List Event)
    (vs : List Envelope) (count : Nat) (outside : ω) (provides : worker.Provides handlers)
    (steady : handlers.Steady es)
    (recovers : ∀ e, handlers.Arises es e → worker.codec.Recovers e)
    (ends : handlers.Ends es)
    (queued : es.map Envelope.ofEvent = vs.map .ok) :
    ∃ turns : List Turn,
      (∀ w, ∃ w',
        Progress.Takes (fun m => Handler.InTurn ∅ m (handlers.registered m)) (es.map .event) w
            turns [] w' ∧
          (∃ budget, (Progress.drain (SyncBus.dispatch handlers ∅) budget
            ⟨es.map .event, []⟩).Returns w (.ok (turns.flatMap Turn.results)) w') ∧
          ∀ e, es = [e] → SyncBus.Call handlers (.event e) ∅ w (turns.map (·.message))
            (.ok (turns.flatMap Turn.results)) w') ∧
      (∃ passes s', RunsDry worker ⟨{ pending := vs, published := count }, outside⟩ passes s') ∧
      ∀ passes s', RunsDry worker ⟨{ pending := vs, published := count }, outside⟩ passes s' →
        passes.flatMap Pass.turns = turns ∧ handlers.Depth es passes.length ∧
          ∀ pass ∈ passes, pass.report.failed = 0 := by
  obtain ⟨bus, between, _, _⟩ := provides outside
  have someWorld : World σ ω := bus.world between
  obtain ⟨generations, cascade⟩ := Handlers.exists_cascade someWorld steady ends
  obtain ⟨runs, sameTurns⟩ := runsDry_of_cascade cascade someWorld provides recovers
    (s := ⟨{ pending := vs, published := count }, outside⟩) rfl queued
  refine ⟨generations.flatten, ?_, runs, ?_⟩
  · intro w
    obtain ⟨w', takes⟩ := cascade.takes w
    have drains := (Progress.drains_ok_iff (SyncBus.dispatch_returns_iff handlers ∅)
      ⟨es.map .event, []⟩ w w' _ _).mpr ⟨_, takes, rfl, rfl⟩
    refine ⟨w', takes, ⟨generations.flatten.length, ?_⟩, ?_⟩
    · rw [Progress.drain_returns_iff]
      exact ⟨_, by rw [List.length_map], drains⟩
    · rintro e rfl
      exact (SyncBus.call_iff_drains _ _ _ _ _ _ _).mpr drains
  · intro passes s' dry
    obtain ⟨turnsEq, noFailure⟩ := sameTurns passes s' dry
    refine ⟨?_, ?_, noFailure⟩
    · rw [List.flatMap_def, turnsEq]
    · have depth := cascade.depth someWorld
      rw [← turnsEq, List.length_map] at depth
      exact depth

end Worker

/-! ## Deliveries

An order is packed in two parcels, and each of them is posted. -/

namespace Shop

def stock : Post where
  name := "stock"
  type := ordered.type
  result := .ok .unit
  emitted := [.event packed, .event packed]

def deliveries : Handlers Nat (List String) :=
  (Registry.empty.setEventHandlers ordered.type [clerk 0 stock]).setEventHandlers packed.type
    [clerk 0 packedPost]

/-- A worker that has a bus of its own for each order and each parcel. -/
def carrier : Worker Nat (List String) where
  codec := .ofList [{ type := ordered.type, shape := .any }, { type := packed.type, shape := .any }]
  makeBus := pure { handlers := deliveries, instances := fun _ => 0 }

theorem answers_ordered :
    deliveries.Answers ordered
      ⟨.event ordered, [("stock", ⟨.ok .unit, [.event packed, .event packed]⟩)]⟩ where
  message := rfl
  serves := fun _ => ⟨_, .next ⟨rfl, rfl⟩ .nobody⟩

theorem answers_packed :
    deliveries.Answers packed ⟨.event packed, [("post", ⟨.ok .unit, []⟩)]⟩ where
  message := rfl
  serves := fun _ => ⟨_, .next ⟨rfl, rfl⟩ .nobody⟩

theorem emits_ordered_iff (e : Event) : deliveries.Emits ordered e ↔ e = packed := by
  rw [answers_ordered.emits_iff opening]
  simp [Turn.emitted, Invocation.accepted]

theorem not_emits_packed (e : Event) : ¬ deliveries.Emits packed e := by
  rw [answers_packed.emits_iff opening]
  simp [Turn.emitted, Invocation.accepted]

/-- An order leads to its parcels only. -/
theorem eq_of_arises {e : Event} (arises : deliveries.Arises [ordered] e) :
    e = ordered ∨ e = packed := by
  obtain ⟨first, mem, follows⟩ := arises
  obtain rfl := List.mem_singleton.mp mem
  induction follows with
  | refl => exact .inl rfl
  | tail _ emits ih =>
      rcases ih with rfl | rfl
      · exact .inr ((emits_ordered_iff _).mp emits)
      · exact absurd emits (not_emits_packed _)

theorem deliveries_steady : deliveries.Steady [ordered] := by
  intro e arises h registered
  rcases eq_of_arises arises with rfl | rfl
  · obtain rfl : h = clerk 0 stock := List.mem_singleton.mp registered
    exact ⟨⟨.ok .unit, _⟩, [packed, packed], rfl, fun w => ⟨_, ⟨rfl, rfl⟩⟩⟩
  · obtain rfl : h = clerk 0 packedPost := List.mem_singleton.mp registered
    exact ⟨⟨.ok .unit, _⟩, [], rfl, fun w => ⟨_, ⟨rfl, rfl⟩⟩⟩

theorem deliveries_ends : deliveries.Ends [ordered] := by
  intro e mem
  obtain rfl := List.mem_singleton.mp mem
  refine .intro _ ?_
  intro e emits
  obtain rfl := (emits_ordered_iff e).mp emits
  exact .intro _ fun e emits => absurd emits (not_emits_packed e)

theorem carrier_recovers {e : Event} (arises : deliveries.Arises [ordered] e) :
    carrier.codec.Recovers e := by
  rcases eq_of_arises arises with rfl | rfl
  · exact ⟨⟨"Ordered", .null⟩, rfl, rfl⟩
  · exact ⟨⟨"Packed", .null⟩, rfl, rfl⟩

end Shop

namespace Worker

/-- The carrier comes to an end with an order. -/
theorem runsDry_cascade_order :
    ∃ (turns : List Turn) (passes : List Pass) (s' : Workplace (List String)),
      RunsDry Shop.carrier ⟨{ pending := [⟨"Ordered", .null⟩], published := 1 }, []⟩ passes s' ∧
        passes.flatMap Pass.turns = turns ∧ Shop.deliveries.Depth [Shop.ordered] passes.length ∧
        (∀ pass ∈ passes, pass.report.failed = 0) ∧
        ∃ w', SyncBus.Call Shop.deliveries (.event Shop.ordered) ∅ Shop.opening
          (turns.map (·.message)) (.ok (turns.flatMap Turn.results)) w' := by
  have provides : Shop.carrier.Provides Shop.deliveries :=
    fun outside => ⟨_, outside, (returns_pure_iff _ _ _ _).mpr ⟨rfl, rfl⟩, rfl⟩
  obtain ⟨turns, loop, ⟨passes, s', dry⟩, sameTurns⟩ :=
    runsDry_cascade Shop.carrier Shop.deliveries [Shop.ordered] [⟨"Ordered", .null⟩] 1 [] provides
      Shop.deliveries_steady (fun _ => Shop.carrier_recovers) Shop.deliveries_ends rfl
  obtain ⟨turnsEq, depth, noFailure⟩ := sameTurns passes s' dry
  obtain ⟨w', _, _, called⟩ := loop Shop.opening
  exact ⟨turns, passes, s', dry, turnsEq, depth, noFailure, w', called Shop.ordered rfl⟩

end Worker

end Courier
