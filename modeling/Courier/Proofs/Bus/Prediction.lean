import Mathlib.Data.List.TakeWhile
import Courier.Bus.DryRun
import Courier.Proofs.Bus.Routing

/-!
# What a dry run foretells

A dry run and a blocking bus are given the same registrations.  A message is then rejected by the
dry run exactly if the step of the bus fails because nobody is registered for a command; any other
is recorded under the names of the handlers that the step invokes, in their order.

The main statement is `DryRunBus.foretells_after`.  Registrations, messages, batches and the
forgetting of records may come in any order.
-/

namespace Courier

open Courier.Action

variable {σ ω : Type}

/-- Nobody is registered for a command. -/
def DispatchError.Missing (e : DispatchError) : Prop :=
  ∃ command, e = .commandHandlerMissing command

/-- The handler returns, whatever it is given. -/
def Handler.Answers (h : Handler σ ω) : Prop :=
  ∀ m x w, ∃ invocation w', (h.invoke m x).Returns w invocation w'

namespace DryRunBus

/-! ## A history of a dry run -/

/-- What may be done to a dry run. -/
inductive Operation (σ ω : Type) where
  | setEventHandlers (type : MessageType) (given : List (Handler.For σ ω type))
  | setCommandHandler (type : MessageType) (given : Handler.For σ ω type)
  | handle (m : Message) (x : Extra)
  | handleBatch (ms : List Message) (x : Extra)
  | clear

/-- The registration that an operation is. -/
def Operation.change? : Operation σ ω → Option (Handlers.Change σ ω)
  | setEventHandlers type given => some (.setEventHandlers type given)
  | setCommandHandler type given => some (.setCommandHandler type given)
  | handle _ _ | handleBatch _ _ | clear => none

/-- The dry run after an operation. -/
def perform (bus : DryRunBus σ ω) : Operation σ ω → DryRunBus σ ω
  | .setEventHandlers type given =>
      { bus with handlers := bus.handlers.setEventHandlers type (given.map Subtype.val) }
  | .setCommandHandler type given =>
      { bus with handlers := bus.handlers.setCommandHandler type given.val }
  | .handle m x => (handle m x bus).state
  | .handleBatch ms x => (handleBatch ms x bus).state
  | .clear => bus.clear

/-- The dry run after a history of operations. -/
def after (history : List (Operation σ ω)) : DryRunBus σ ω :=
  history.foldl perform {}

/-- The handlers of a bus on which the registrations of the history have been made, too. -/
def enrolled (history : List (Operation σ ω)) : Handlers σ ω :=
  Handlers.after (history.filterMap Operation.change?)

/-! ## Messages -/

/-- The dry run with a message more on its records. -/
def noting (bus : DryRunBus σ ω) (m : Message) (names : List String) (x : Extra) : DryRunBus σ ω :=
  { bus with recorded := bus.recorded ++ [⟨m, names, x⟩] }

/-- A message without handler names is rejected, and nothing else happens. -/
theorem handle_of_error {bus : DryRunBus σ ω} {m : Message} {e : DispatchError}
    (rejected : handlerNames bus.handlers m = .error e) (x : Extra) :
    handle m x bus = ⟨.returned (.error e), bus, []⟩ := by
  unfold handle
  show Action.bind Action.get _ bus = _
  simp only [Action.bind, Action.get, rejected]
  rfl

/-- Any other message is recorded, and nothing else happens. -/
theorem handle_of_ok {bus : DryRunBus σ ω} {m : Message} {names : List String}
    (found : handlerNames bus.handlers m = .ok names) (x : Extra) :
    handle m x bus = ⟨.returned (.ok []), bus.noting m names x, []⟩ := by
  unfold handle
  show Action.bind Action.get _ bus = _
  simp only [Action.bind, Action.get, found]
  rfl

theorem handle_returns_error_iff (m : Message) (x : Extra) (bus bus' : DryRunBus σ ω)
    (e : DispatchError) :
    (handle m x).Returns bus (.error e) bus' ↔
      handlerNames bus.handlers m = .error e ∧ bus' = bus := by
  unfold Returns
  cases foundEq : handlerNames bus.handlers m with
  | error cause => simp [handle_of_error foundEq x, eq_comm]
  | ok names => simp [handle_of_ok foundEq x]

theorem handle_returns_ok_iff (m : Message) (x : Extra) (bus bus' : DryRunBus σ ω)
    (results : List Dispatched) :
    (handle m x).Returns bus (.ok results) bus' ↔
      results = [] ∧ ∃ names, handlerNames bus.handlers m = .ok names ∧
        bus' = bus.noting m names x := by
  unfold Returns
  cases foundEq : handlerNames bus.handlers m with
  | error cause => simp [handle_of_error foundEq x]
  | ok names => simp [handle_of_ok foundEq x, eq_comm]

/-- The names of a message are those of its registered handlers. -/
theorem eq_of_handlerNames_eq_ok {handlers : Handlers σ ω} {m : Message} {names : List String}
    (found : handlerNames handlers m = .ok names) :
    names = (handlers.registered m).map (·.name) := by
  cases m with
  | event e => exact (Except.ok.inj found).symm
  | command c =>
      simp only [handlerNames, Registry.registered] at found ⊢
      cases registeredEq : handlers.commandHandler? c.type with
      | none =>
          rw [registeredEq] at found
          contradiction
      | some h =>
          rw [registeredEq] at found
          exact (Except.ok.inj found).symm

section Turn

variable {handlers : Handlers σ ω} {m : Message} {x : Extra} {w w' : World σ ω}
  {entries : List (String × Invocation)} (served : Handler.InTurn x m (handlers.registered m) w
    entries w') (p : Progress)

include served

/-- A message is rejected exactly if its turn misses a handler. -/
theorem handlerNames_eq_error_iff (e : DispatchError) :
    handlerNames handlers m = .error e ↔ e.Missing ∧ Turn.settle ⟨m, entries⟩ p = .error e := by
  rw [Turn.settle_eq_error_iff]
  cases m with
  | event event =>
      constructor
      · intro rejected
        cases rejected
      · rintro ⟨_, aborts⟩
        cases aborts
  | command c =>
      simp only [handlerNames, Registry.registered] at served ⊢
      cases registeredEq : handlers.commandHandler? c.type with
      | none =>
          rw [registeredEq, Option.toList_none, Handler.inTurn_nil_iff] at served
          obtain ⟨rfl, _⟩ := served
          constructor
          · rintro ⟨⟩
            exact ⟨⟨_, rfl⟩, .missing c⟩
          · rintro ⟨_, aborts⟩
            cases aborts
            rfl
      | some h =>
          rw [registeredEq, Option.toList_some, Handler.inTurn_singleton_iff] at served
          obtain ⟨invocation, _, rfl⟩ := served
          constructor
          · intro rejected
            cases rejected
          · rintro ⟨⟨command, rfl⟩, aborts⟩
            cases aborts

/-- Any other message is recorded under the names of its invocations. -/
theorem handlerNames_eq_ok_iff (names : List String) :
    handlerNames handlers m = .ok names ↔
      (∀ e, e.Missing → Turn.settle ⟨m, entries⟩ p ≠ .error e) ∧ names = entries.map (·.1) := by
  have rejected := handlerNames_eq_error_iff served p
  rw [served.names]
  constructor
  · intro found
    refine ⟨fun e missing settled => ?_, eq_of_handlerNames_eq_ok found⟩
    rw [(rejected e).mpr ⟨missing, settled⟩] at found
    contradiction
  · rintro ⟨present, rfl⟩
    cases foundEq : handlerNames handlers m with
    | error e =>
        obtain ⟨missing, settled⟩ := (rejected e).mp foundEq
        exact absurd settled (present e missing)
    | ok names => rw [eq_of_handlerNames_eq_ok foundEq]

end Turn

/-! ## Batches -/

/-- The error that a message is rejected with. -/
def rejection? (handlers : Handlers σ ω) (m : Message) : Option DispatchError :=
  match handlerNames handlers m with
  | .error e => some e
  | .ok _ => none

/-- The dry run with more messages on its records, each under the names of its registered
handlers. -/
def notingAll (bus : DryRunBus σ ω) (ms : List Message) (x : Extra) : DryRunBus σ ω :=
  { bus with
    recorded := bus.recorded ++
      ms.map fun m => ⟨m, (bus.handlers.registered m).map (·.name), x⟩ }

theorem rejection?_eq_some_iff (bus : DryRunBus σ ω) (m : Message) (x : Extra) (e : DispatchError) :
    rejection? bus.handlers m = some e ↔ (handle m x).Returns bus (.error e) bus := by
  rw [handle_returns_error_iff, rejection?]
  cases handlerNames bus.handlers m <;> simp

theorem rejection?_eq_none_iff (bus : DryRunBus σ ω) (m : Message) (x : Extra) :
    rejection? bus.handlers m = none ↔ ∃ bus', (handle m x).Returns bus (.ok []) bus' := by
  simp only [handle_returns_ok_iff, rejection?]
  cases handlerNames bus.handlers m <;> simp

/-- A batch records its messages up to the first that is rejected, and returns its error. -/
theorem handleBatch_returns (bus : DryRunBus σ ω) (ms : List Message) (x : Extra) :
    (handleBatch ms x).Returns bus
      (match ms.findSome? (rejection? bus.handlers) with
        | some e => .error e
        | none => .ok [])
      (bus.notingAll (ms.takeWhile fun m => (rejection? bus.handlers m).isNone) x) := by
  induction ms generalizing bus with
  | nil => exact ⟨rfl, by simp [notingAll, handleBatch, Progress.batch, pure, ret]⟩
  | cons m rest ih =>
      simp only [handleBatch, Progress.batch, returns_bind_iff] at ih ⊢
      rw [List.findSome?_cons, List.takeWhile_cons]
      cases foundEq : handlerNames bus.handlers m with
      | error e =>
          have rejectedEq : rejection? bus.handlers m = some e := by rw [rejection?, foundEq]
          have handled := (rejection?_eq_some_iff bus m x e).mp rejectedEq
          refine ⟨.error e, bus, handled, ?_⟩
          simp [rejectedEq, notingAll]
      | ok names =>
          have acceptedEq : rejection? bus.handlers m = none := by rw [rejection?, foundEq]
          have handled := (handle_returns_ok_iff m x bus (bus.noting m names x) []).mpr
            ⟨rfl, names, foundEq, rfl⟩
          refine ⟨.ok [], bus.noting m names x, handled, ?_⟩
          have continued := ih (bus.noting m names x)
          refine (returns_bind_iff _ _ _ _ _).mpr ⟨_, _, continued, ?_⟩
          have noted : ∀ front, (bus.noting m names x).notingAll front x =
              bus.notingAll (m :: front) x := by
            simp [notingAll, noting, eq_of_handlerNames_eq_ok foundEq]
          rw [acceptedEq, noted]
          have sameHandlers : (bus.noting m names x).handlers = bus.handlers := rfl
          rw [sameHandlers]
          cases rest.findSome? (rejection? bus.handlers) <;> simp

/-! ## Histories -/

/-- Messages leave the handlers alone and add to the records. -/
theorem perform_eq_append (bus : DryRunBus σ ω) (operation : Operation σ ω)
    (registers : operation.change? = none) (keeps : operation ≠ .clear) :
    ∃ more, bus.perform operation = { bus with recorded := bus.recorded ++ more } := by
  cases operation with
  | setEventHandlers type given => cases registers
  | setCommandHandler type given => cases registers
  | handle m x =>
      rw [perform]
      cases foundEq : handlerNames bus.handlers m with
      | error e => exact ⟨[], by rw [handle_of_error foundEq, List.append_nil]⟩
      | ok names => exact ⟨[⟨m, names, x⟩], by rw [handle_of_ok foundEq]; rfl⟩
  | handleBatch ms x => exact ⟨_, (bus.handleBatch_returns ms x).2⟩
  | clear => exact absurd rfl keeps

theorem handlers_perform (bus : DryRunBus σ ω) (operation : Operation σ ω) :
    (bus.perform operation).handlers =
      operation.change?.toList.foldl Handlers.Change.apply bus.handlers := by
  cases operation with
  | setEventHandlers type given => rfl
  | setCommandHandler type given => rfl
  | handle m x =>
      obtain ⟨more, leftEq⟩ := bus.perform_eq_append (.handle m x) rfl (by simp)
      rw [leftEq]
      rfl
  | handleBatch ms x =>
      obtain ⟨more, leftEq⟩ := bus.perform_eq_append (.handleBatch ms x) rfl (by simp)
      rw [leftEq]
      rfl
  | clear => rfl

/-- The dry run has the handlers of a bus with the same registrations. -/
theorem handlers_after (history : List (Operation σ ω)) :
    (after history).handlers = enrolled history := by
  induction history using List.reverseRecOn with
  | nil => rfl
  | append_singleton history last ih =>
      rw [after, List.foldl_append, List.foldl_cons, List.foldl_nil, handlers_perform, enrolled,
        Handlers.after, List.filterMap_append, List.foldl_append]
      change (after history).handlers = List.foldl _ _ _ at ih
      rw [← after, ih]
      cases changeEq : last.change? <;> simp [changeEq]

/-- Records stay where they are until they are forgotten. -/
theorem recorded_prefix_perform (bus : DryRunBus σ ω) (operation : Operation σ ω)
    (keeps : operation ≠ .clear) : bus.recorded <+: (bus.perform operation).recorded := by
  cases operation with
  | setEventHandlers type given => exact List.prefix_rfl
  | setCommandHandler type given => exact List.prefix_rfl
  | handle m x =>
      obtain ⟨more, leftEq⟩ := bus.perform_eq_append (.handle m x) rfl keeps
      rw [leftEq]
      exact List.prefix_append _ _
  | handleBatch ms x =>
      obtain ⟨more, leftEq⟩ := bus.perform_eq_append (.handleBatch ms x) rfl keeps
      rw [leftEq]
      exact List.prefix_append _ _
  | clear => exact absurd rfl keeps

theorem recorded_prefix_foldl (bus : DryRunBus σ ω) (later : List (Operation σ ω))
    (keeps : ∀ operation ∈ later, operation ≠ .clear) :
    bus.recorded <+: (later.foldl perform bus).recorded := by
  induction later generalizing bus with
  | nil => exact List.prefix_rfl
  | cons operation rest ih =>
      rw [List.forall_mem_cons] at keeps
      exact (bus.recorded_prefix_perform operation keeps.1).trans (ih _ keeps.2)

/-- What a dry run tells of a bus with the handlers: how the step of a message on that bus ends, and
which handlers it invokes. -/
structure Foretells (bus : DryRunBus σ ω) (handlers : Handlers σ ω) : Prop where
  agrees : bus.handlers = handlers
  /-- The step of a message returns. -/
  answers : ∀ m x w, ∃ r w', (SyncBus.handleStep handlers m x).Returns w r w'
  /-- A message is rejected, and nothing is recorded, exactly if its step fails with the same error
  because nobody is registered for a command. -/
  rejects : ∀ {m x w r w'}, (SyncBus.handleStep handlers m x).Returns w r w' → ∀ e bus',
    (handle m x).Returns bus (.error e) bus' ↔ (e.Missing ∧ r = .error e) ∧ bus' = bus
  /-- Any other message leaves one record, with the names of the handlers that its step invokes in
  the order in which they are invoked, and there are no results. -/
  records : ∀ {m x w r w'}, (SyncBus.handleStep handlers m x).Returns w r w' →
    (∀ e, e.Missing → r ≠ .error e) →
      ∃ entries, Handler.InTurn x m (handlers.registered m) w entries w' ∧
        (Turn.settle ⟨m, entries⟩ ⟨[], []⟩).map (fun p => ⟨p.results, p.queue⟩) = r ∧
        ∀ results bus', (handle m x).Returns bus (.ok results) bus' ↔
          results = [] ∧ bus' = bus.noting m (entries.map (·.1)) x
  /-- Where nobody is registered for an event there are no names. -/
  nobody : ∀ e x, handlers.eventHandlers? e.type = none ∨ handlers.eventHandlers? e.type = some [] →
    (handle (.event e) x).Returns bus (.ok []) (bus.noting (.event e) [] x)
  /-- A batch goes up to the first message that is rejected. -/
  batch_rejected : ∀ before m behind x e,
    (∀ earlier ∈ before, ∃ bus', (handle earlier x).Returns bus (.ok []) bus') →
    (handle m x).Returns bus (.error e) bus →
    (handleBatch (before ++ m :: behind) x).Returns bus (.error e) (bus.notingAll before x)
  batch_accepted : ∀ ms x, (∀ m ∈ ms, ∃ bus', (handle m x).Returns bus (.ok []) bus') →
    (handleBatch ms x).Returns bus (.ok []) (bus.notingAll ms x)
  /-- No handler has a part in what is recorded: names alone decide it, and nothing is logged. -/
  blind : ∀ {σ' ω' : Type} (other : DryRunBus σ' ω') (m : Message) (x : Extra),
    handlerNames other.handlers m = handlerNames bus.handlers m →
      ∃ r more, handle m x bus = ⟨.returned r, { bus with recorded := bus.recorded ++ more }, []⟩ ∧
        handle m x other = ⟨.returned r, { other with recorded := other.recorded ++ more }, []⟩
  /-- Until they are forgotten, records stay where they are. -/
  grows : ∀ later : List (Operation σ ω), (∀ operation ∈ later, operation ≠ .clear) →
    bus.recorded <+: (later.foldl perform bus).recorded

/-- After any history a dry run foretells the steps of a bus with the same registrations. -/
theorem foretells_after (history : List (Operation σ ω))
    (answering : ∀ operation ∈ history, ∀ change ∈ operation.change?, ∀ h ∈ change.given,
      h.Answers) :
    (after history).Foretells (enrolled history) := by
  have handlersEq := handlers_after history
  constructor
  case agrees => exact handlersEq
  case answers =>
    intro m x w
    have answers : ∀ h ∈ (enrolled history).registered m, ∀ w, ∃ invocation w',
        (h.invoke m x).Returns w invocation w' := by
      intro h mem
      obtain ⟨change, changeMem, given⟩ := Handlers.given_of_registered mem
      obtain ⟨operation, operationMem, changeEq⟩ := List.mem_filterMap.mp changeMem
      exact answering operation operationMem change changeEq h given m x
    obtain ⟨entries, w', served⟩ := Handler.exists_inTurn answers w
    exact ⟨_, w', (SyncBus.handleStep_returns_iff _ m x w w' _).mpr ⟨entries, served, rfl⟩⟩
  case rejects =>
    intro m x w r w' stepped e bus'
    obtain ⟨entries, served, rfl⟩ := (SyncBus.handleStep_returns_iff _ m x w w' r).mp stepped
    rw [handle_returns_error_iff, handlersEq, handlerNames_eq_error_iff served ⟨[], []⟩]
    cases Turn.settle ⟨m, entries⟩ ⟨[], []⟩ <;> simp [Except.map]
  case records =>
    intro m x w r w' stepped present
    obtain ⟨entries, served, rfl⟩ := (SyncBus.handleStep_returns_iff _ m x w w' r).mp stepped
    refine ⟨entries, served, rfl, ?_⟩
    intro results bus'
    have found := (handlerNames_eq_ok_iff served ⟨[], []⟩ (entries.map (·.1))).mpr
      ⟨fun e missing settled => present e missing (by rw [settled]; rfl), rfl⟩
    rw [handle_returns_ok_iff, handlersEq, found]
    simp
  case nobody =>
    intro e x unregistered
    rw [handle_returns_ok_iff, handlersEq]
    refine ⟨rfl, [], ?_, rfl⟩
    rcases unregistered with none | empty
    · simp [handlerNames, none]
    · simp [handlerNames, empty]
  case batch_rejected =>
    intro before m behind x e accepted rejected
    have noneRejected : ∀ earlier ∈ before, rejection? (after history).handlers earlier = none :=
      fun earlier mem => (rejection?_eq_none_iff _ earlier x).mpr (accepted earlier mem)
    have rejectedEq := (rejection?_eq_some_iff _ m x e).mpr rejected
    have returned := (after history).handleBatch_returns (before ++ m :: behind) x
    rw [List.findSome?_append, List.findSome?_eq_none_iff.mpr noneRejected, List.findSome?_cons,
      rejectedEq, List.takeWhile_append_of_pos (by simpa using noneRejected),
      List.takeWhile_cons_of_neg (by simp [rejectedEq]), List.append_nil] at returned
    exact returned
  case batch_accepted =>
    intro ms x accepted
    have noneRejected : ∀ m ∈ ms, rejection? (after history).handlers m = none :=
      fun m mem => (rejection?_eq_none_iff _ m x).mpr (accepted m mem)
    have returned := (after history).handleBatch_returns ms x
    rw [List.findSome?_eq_none_iff.mpr noneRejected,
      List.takeWhile_eq_self_iff.mpr (by simpa using noneRejected)] at returned
    exact returned
  case blind =>
    intro σ' ω' other m x sameNames
    cases foundEq : handlerNames (after history).handlers m with
    | error e =>
        rw [foundEq] at sameNames
        refine ⟨.error e, [], ?_, ?_⟩
        · rw [handle_of_error foundEq, List.append_nil]
        · rw [handle_of_error sameNames, List.append_nil]
    | ok names =>
        rw [foundEq] at sameNames
        exact ⟨.ok [], [⟨m, names, x⟩], handle_of_ok foundEq x, handle_of_ok sameNames x⟩
  case grows => exact fun later keeps => (after history).recorded_prefix_foldl later keeps

end DryRunBus

/-! ## A shop

Parcels are weighed and posted, and nobody can charge for them. -/

namespace Shop

def scale : Post where
  name := "scale"
  type := packed.type
  result := .error (.failed "too heavy")

/-- Two clerks for parcels are registered, in the place of one, and a parcel is announced. -/
def rehearsal : List (DryRunBus.Operation Nat (List String)) :=
  [.setEventHandlers packed.type [⟨clerk 0 packedPost, rfl⟩],
    .setEventHandlers packed.type [⟨clerk 0 scale, rfl⟩, ⟨clerk 0 packedPost, rfl⟩],
    .handle (.event packed) ∅]

theorem clerk_answers (post : Post) : (clerk 0 post).Answers := by
  intro m x w
  unfold Handler.invoke
  split
  · exact ⟨_, _, rfl, rfl⟩
  · exact ⟨_, _, rfl, rfl⟩

end Shop

/-- After the rehearsal the dry run has one record, rejects a charge as the bus does, and foretells
whatever else the bus makes of messages. -/
theorem DryRunBus.foretells_after_rehearsal :
    (∀ operation ∈ Shop.rehearsal, ∀ change ∈ operation.change?, ∀ h ∈ change.given, h.Answers) ∧
      (after Shop.rehearsal).recorded = [⟨.event Shop.packed, ["scale", "post"], ∅⟩] ∧
      (handle (.command Shop.charge) ∅).Returns (after Shop.rehearsal)
        (.error (.commandHandlerMissing "Charge")) (after Shop.rehearsal) ∧
      (after Shop.rehearsal).Foretells (enrolled Shop.rehearsal) := by
  have answering : ∀ operation ∈ Shop.rehearsal, ∀ change ∈ operation.change?,
      ∀ h ∈ change.given, h.Answers := by
    simp [Shop.rehearsal, Operation.change?, Handlers.Change.given, Shop.clerk_answers]
  exact ⟨answering, rfl, ⟨rfl, rfl⟩, foretells_after Shop.rehearsal answering⟩

end Courier
