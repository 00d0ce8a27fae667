import Mathlib.Data.List.Induction
import Courier.Proofs.Bus.Kind
import Courier.Proofs.Handler.Ends

/-!
# Routing by type

A handler is registered for the type that it is made for.  The registrations of a bus change one
after the other: what is found for a type is then what was given for it last, unless it has been
removed or everything cleared since, and whatever is found is made for that type.  So no message
ever comes to a handler that would not take it.

The main statement is `Handlers.routed_after`.  It holds of every history of registrations; types
that share a name are types apart, and the handlers of events and of commands do not know of each
other.
-/

namespace Courier

open Courier.Progress

variable {σ ω : Type}

/-! ## Registrations -/

/-- A handler that is made for messages of the type. -/
abbrev Handler.For (σ ω : Type) (type : MessageType) : Type :=
  { h : Handler σ ω // h.accepts = type }

namespace Handlers

/-- A change of what is registered on a bus. -/
inductive Change (σ ω : Type) where
  | setEventHandlers (type : MessageType) (given : List (Handler.For σ ω type))
  | setCommandHandler (type : MessageType) (given : Handler.For σ ω type)
  | removeEventHandlers (type : MessageType)
  | removeCommandHandler (type : MessageType)
  | clear

namespace Change

/-- The registrations after a change. -/
def apply (handlers : Handlers σ ω) : Change σ ω → Handlers σ ω
  | setEventHandlers type given => handlers.setEventHandlers type (given.map Subtype.val)
  | setCommandHandler type given => handlers.setCommandHandler type given.val
  | removeEventHandlers type => handlers.removeEventHandlers type
  | removeCommandHandler type => handlers.removeCommandHandler type
  | clear => .empty

/-- The change is about the handlers of an event type. -/
def ConcernsEvents (type : MessageType) : Change σ ω → Prop
  | setEventHandlers other _ | removeEventHandlers other => other = type
  | setCommandHandler _ _ | removeCommandHandler _ => False
  | clear => True

/-- The change is about the handler of a command type. -/
def ConcernsCommands (type : MessageType) : Change σ ω → Prop
  | setEventHandlers _ _ | removeEventHandlers _ => False
  | setCommandHandler other _ | removeCommandHandler other => other = type
  | clear => True

end Change

/-- The registrations after a history of changes. -/
def after (changes : List (Change σ ω)) : Handlers σ ω :=
  changes.foldl Change.apply .empty

/-! ## The last registration -/

private theorem concat_eq_split {C : Type} {history before behind : List C} {last c : C}
    (splitEq : history ++ [last] = before ++ c :: behind) :
    (behind = [] ∧ c = last) ∨
      ∃ front, behind = front ++ [last] ∧ history = before ++ c :: front := by
  rcases List.eq_nil_or_concat' behind with rfl | ⟨front, final, rfl⟩
  · exact .inl ⟨rfl, (List.singleton_inj.mp (List.append_inj' splitEq rfl).2).symm⟩
  · rw [← List.cons_append, ← List.append_assoc] at splitEq
    obtain ⟨frontEq, lastEq⟩ := List.append_inj' splitEq rfl
    exact .inr ⟨front, by rw [List.singleton_inj.mp lastEq], frontEq⟩

/-- What is found at one place after a history is what the last change that concerns it has written
there. -/
theorem look_foldl_eq_some_iff {S C α : Type} (apply : S → C → S) (look : S → Option α) {start : S}
    (nothing : look start = none) (writes : C → Option (Option α))
    (written : ∀ s c, look (apply s c) = (writes c).getD (look s)) (history : List C) (a : α) :
    look (history.foldl apply start) = some a ↔
      ∃ before c behind, history = before ++ c :: behind ∧ writes c = some (some a) ∧
        ∀ later ∈ behind, writes later = none := by
  induction history using List.reverseRecOn with
  | nil => simp [nothing]
  | append_singleton history last ih =>
      rw [List.foldl_append, List.foldl_cons, List.foldl_nil, written]
      cases lastEq : writes last with
      | none =>
          rw [Option.getD_none, ih]
          constructor
          · rintro ⟨before, c, behind, rfl, wrote, quiet⟩
            refine ⟨before, c, behind ++ [last], by simp, wrote, ?_⟩
            simpa [or_imp, forall_and, lastEq] using quiet
          · rintro ⟨before, c, behind, splitEq, wrote, quiet⟩
            rcases concat_eq_split splitEq with ⟨rfl, rfl⟩ | ⟨front, rfl, rfl⟩
            · rw [lastEq] at wrote
              contradiction
            · exact ⟨before, c, front, rfl, wrote,
                fun later mem => quiet later (List.mem_append_left _ mem)⟩
      | some value =>
          rw [Option.getD_some]
          constructor
          · rintro rfl
            exact ⟨history, last, [], rfl, lastEq, by simp⟩
          · rintro ⟨before, c, behind, splitEq, wrote, quiet⟩
            rcases concat_eq_split splitEq with ⟨rfl, rfl⟩ | ⟨front, rfl, rfl⟩
            · rw [lastEq] at wrote
              exact Option.some.inj wrote
            · rw [quiet last (by simp)] at lastEq
              contradiction

namespace Change

/-- What a change writes for an event type, if it concerns it: a list, or nothing any more. -/
def onEvents (type : MessageType) : Change σ ω → Option (Option (List (Handler σ ω)))
  | setEventHandlers other given =>
      if type = other then some (some (given.map Subtype.val)) else none
  | removeEventHandlers other => if type = other then some none else none
  | setCommandHandler _ _ | removeCommandHandler _ => none
  | clear => some none

/-- What a change writes for a command type, if it concerns it. -/
def onCommands (type : MessageType) : Change σ ω → Option (Option (Handler σ ω))
  | setCommandHandler other given => if type = other then some (some given.val) else none
  | removeCommandHandler other => if type = other then some none else none
  | setEventHandlers _ _ | removeEventHandlers _ => none
  | clear => some none

theorem eventHandlers?_apply (handlers : Handlers σ ω) (change : Change σ ω) (type : MessageType) :
    (change.apply handlers).eventHandlers? type =
      (change.onEvents type).getD (handlers.eventHandlers? type) := by
  cases change with
  | setEventHandlers other given =>
      rw [apply, onEvents, Registry.eventHandlers?_setEventHandlers]
      split <;> rfl
  | removeEventHandlers other =>
      rw [apply, onEvents, Registry.eventHandlers?_removeEventHandlers]
      split <;> rfl
  | setCommandHandler other given => rfl
  | removeCommandHandler other => rfl
  | clear => rfl

theorem commandHandler?_apply (handlers : Handlers σ ω) (change : Change σ ω) (type : MessageType) :
    (change.apply handlers).commandHandler? type =
      (change.onCommands type).getD (handlers.commandHandler? type) := by
  cases change with
  | setCommandHandler other given =>
      rw [apply, onCommands, Registry.commandHandler?_setCommandHandler]
      split <;> rfl
  | removeCommandHandler other =>
      rw [apply, onCommands, Registry.commandHandler?_removeCommandHandler]
      split <;> rfl
  | setEventHandlers other given => rfl
  | removeEventHandlers other => rfl
  | clear => rfl

theorem onEvents_eq_none_iff (change : Change σ ω) (type : MessageType) :
    change.onEvents type = none ↔ ¬ change.ConcernsEvents type := by
  cases change <;> simp [onEvents, ConcernsEvents, eq_comm]

theorem onCommands_eq_none_iff (change : Change σ ω) (type : MessageType) :
    change.onCommands type = none ↔ ¬ change.ConcernsCommands type := by
  cases change <;> simp [onCommands, ConcernsCommands, eq_comm]

/-- Only a registration for the type writes a list. -/
theorem onEvents_eq_some_iff (change : Change σ ω) (type : MessageType)
    (registered : List (Handler σ ω)) :
    change.onEvents type = some (some registered) ↔
      ∃ given, change = setEventHandlers type given ∧ registered = given.map Subtype.val := by
  constructor
  · intro wrote
    cases change with
    | setEventHandlers other given =>
        by_cases same : type = other
        · subst same
          rw [onEvents, if_pos rfl] at wrote
          exact ⟨given, rfl, (Option.some.inj (Option.some.inj wrote)).symm⟩
        · simp [onEvents, same] at wrote
    | _ => simp [onEvents] at wrote
  · rintro ⟨given, rfl, rfl⟩
    exact if_pos rfl

theorem onCommands_eq_some_iff (change : Change σ ω) (type : MessageType) (h : Handler σ ω) :
    change.onCommands type = some (some h) ↔
      ∃ given, change = setCommandHandler type given ∧ h = given.val := by
  constructor
  · intro wrote
    cases change with
    | setCommandHandler other given =>
        by_cases same : type = other
        · subst same
          rw [onCommands, if_pos rfl] at wrote
          exact ⟨given, rfl, (Option.some.inj (Option.some.inj wrote)).symm⟩
        · simp [onCommands, same] at wrote
    | _ => simp [onCommands] at wrote
  · rintro ⟨given, rfl, rfl⟩
    exact if_pos rfl

end Change

/-- The list of an event type is the one that was given for it last. -/
theorem eventHandlers?_after_eq_some_iff (changes : List (Change σ ω)) (type : MessageType)
    (registered : List (Handler σ ω)) :
    (after changes).eventHandlers? type = some registered ↔
      ∃ before given behind, changes = before ++ Change.setEventHandlers type given :: behind ∧
        (∀ change ∈ behind, ¬ change.ConcernsEvents type) ∧
        registered = given.map Subtype.val := by
  have nothing : (.empty : Handlers σ ω).eventHandlers? type = none := rfl
  have last := look_foldl_eq_some_iff Change.apply (fun handlers => handlers.eventHandlers? type)
    nothing (Change.onEvents type)
    (fun handlers change => change.eventHandlers?_apply handlers type) changes registered
  simp only [Change.onEvents_eq_some_iff, Change.onEvents_eq_none_iff] at last
  rw [after, last]
  constructor
  · rintro ⟨before, _, behind, rfl, ⟨given, rfl, rfl⟩, quiet⟩
    exact ⟨before, given, behind, rfl, quiet, rfl⟩
  · rintro ⟨before, given, behind, rfl, quiet, rfl⟩
    exact ⟨before, _, behind, rfl, ⟨given, rfl, rfl⟩, quiet⟩

/-- The handler of a command type is the one that was given for it last. -/
theorem commandHandler?_after_eq_some_iff (changes : List (Change σ ω)) (type : MessageType)
    (h : Handler σ ω) :
    (after changes).commandHandler? type = some h ↔
      ∃ before given behind, changes = before ++ Change.setCommandHandler type given :: behind ∧
        (∀ change ∈ behind, ¬ change.ConcernsCommands type) ∧ h = given.val := by
  have nothing : (.empty : Handlers σ ω).commandHandler? type = none := rfl
  have last := look_foldl_eq_some_iff Change.apply (fun handlers => handlers.commandHandler? type)
    nothing (Change.onCommands type)
    (fun handlers change => change.commandHandler?_apply handlers type) changes h
  simp only [Change.onCommands_eq_some_iff, Change.onCommands_eq_none_iff] at last
  rw [after, last]
  constructor
  · rintro ⟨before, _, behind, rfl, ⟨given, rfl, rfl⟩, quiet⟩
    exact ⟨before, given, behind, rfl, quiet, rfl⟩
  · rintro ⟨before, given, behind, rfl, quiet, rfl⟩
    exact ⟨before, _, behind, rfl, ⟨given, rfl, rfl⟩, quiet⟩

/-- The handlers that a change gives. -/
def Change.given : Change σ ω → List (Handler σ ω)
  | setEventHandlers _ given => given.map Subtype.val
  | setCommandHandler _ given => [given.val]
  | removeEventHandlers _ | removeCommandHandler _ | clear => []

/-- Whatever is registered has been given by one of the changes. -/
theorem given_of_registered {changes : List (Change σ ω)} {m : Message} {h : Handler σ ω}
    (mem : h ∈ (after changes).registered m) : ∃ change ∈ changes, h ∈ change.given := by
  cases m with
  | event e =>
      rw [Registry.registered] at mem
      cases foundEq : (after changes).eventHandlers? e.type with
      | none =>
          rw [foundEq] at mem
          cases mem
      | some registered =>
          rw [foundEq, Option.getD_some] at mem
          obtain ⟨before, given, behind, rfl, _, rfl⟩ :=
            (eventHandlers?_after_eq_some_iff changes e.type registered).mp foundEq
          exact ⟨_, List.mem_append_right _ List.mem_cons_self, mem⟩
  | command c =>
      obtain ⟨before, given, behind, rfl, _, rfl⟩ :=
        (commandHandler?_after_eq_some_iff changes c.type h).mp (Option.mem_toList.mp mem)
      exact ⟨_, List.mem_append_right _ List.mem_cons_self, List.mem_singleton_self _⟩

/-! ## Handlers of their types -/

/-- Whatever is found for a message is made for its type. -/
def Typed (handlers : Handlers σ ω) : Prop :=
  ∀ m, ∀ h ∈ handlers.registered m, h.accepts = m.type

theorem typed_empty : Typed (.empty : Handlers σ ω) := by
  rintro (e | c) h mem <;> cases mem

/-- No change registers a handler for a type that it is not made for. -/
theorem Typed.apply {handlers : Handlers σ ω} (typed : handlers.Typed) (change : Change σ ω) :
    (change.apply handlers).Typed := by
  rintro (e | c) h mem
  · rw [Registry.registered, change.eventHandlers?_apply] at mem
    cases wroteEq : change.onEvents e.type with
    | none =>
        rw [wroteEq, Option.getD_none] at mem
        exact typed (.event e) h mem
    | some written =>
        rw [wroteEq, Option.getD_some] at mem
        cases written with
        | none => cases mem
        | some registered =>
            obtain ⟨given, _, rfl⟩ := (change.onEvents_eq_some_iff _ _).mp wroteEq
            obtain ⟨one, _, rfl⟩ := List.mem_map.mp mem
            exact one.property
  · rw [Registry.registered, change.commandHandler?_apply] at mem
    cases wroteEq : change.onCommands c.type with
    | none =>
        rw [wroteEq, Option.getD_none] at mem
        exact typed (.command c) h mem
    | some written =>
        rw [wroteEq, Option.getD_some] at mem
        cases written with
        | none => cases mem
        | some found =>
            obtain ⟨given, _, rfl⟩ := (change.onCommands_eq_some_iff _ _).mp wroteEq
            obtain rfl := List.mem_singleton.mp mem
            exact given.property

theorem typed_after (changes : List (Change σ ω)) : (after changes).Typed := by
  induction changes using List.reverseRecOn with
  | nil => exact typed_empty
  | append_singleton history last ih =>
      rw [after, List.foldl_append]
      exact ih.apply last

end Handlers

/-! ## Names -/

theorem Table.mem_keys_iff {κ α : Type} [DecidableEq κ] (t : Table κ α) (key : κ) :
    key ∈ t.entries.map (·.1) ↔ (t.get? key).isSome := by
  rw [get?, List.lookup_isSome_iff, List.mem_map]
  simp only [beq_iff_eq, @eq_comm κ key]

namespace Registry

/-- The names are in order, one for each type that something is registered for. -/
def Lists (names : List String) (isRegistered : MessageType → Prop) : Prop :=
  names.Pairwise (· ≤ ·) ∧ ∃ types : List MessageType, types.Nodup ∧
    (∀ type, type ∈ types ↔ isRegistered type) ∧ names.Perm (types.map (·.name))

theorem lists_sortedNames {α : Type} (t : Table MessageType α) :
    Lists (sortedNames (t.entries.map fun entry => entry.1.name))
      fun type => (t.get? type).isSome := by
  constructor
  · have transitive : ∀ a b c : String, decide (a ≤ b) = true → decide (b ≤ c) = true →
        decide (a ≤ c) = true := by
      simpa using fun a b c => String.le_trans
    have total : ∀ a b : String, (decide (a ≤ b) || decide (b ≤ a)) = true := by
      simpa using String.le_total
    exact (List.pairwise_mergeSort transitive total _).imp of_decide_eq_true
  · refine ⟨t.entries.map (·.1), t.distinct, t.mem_keys_iff, ?_⟩
    rw [List.map_map]
    exact List.mergeSort_perm _ _

end Registry

/-! ## Invocations -/

/-- The invocation has failed as one with a message of another type does. -/
def Invocation.Mismatched (invocation : Invocation) : Prop :=
  ∃ expected got, invocation.result = .error (.messageTypeMismatch expected got)

/-- The handler's own procedures never end as an invocation with a message of another type does. -/
def Handler.Candid (h : Handler σ ω) : Prop :=
  ∀ m x, h.EndsIn (fun invocation => ¬ invocation.Mismatched) m x

namespace BusKind

/-- In a turn that finds the world `w` an invocation of a handler has come to its end.  The others
may still be at it, or crash, or go on for ever. -/
inductive Invoked (handlers : Handlers σ ω) (x : Extra) (m : Message) (w : World σ ω) :
    BusKind → Handler σ ω → Invocation → Prop
  | blocking {front behind : List (Handler σ ω)} {h : Handler σ ω}
      {entries : List (String × Invocation)} {middle w' : World σ ω} {invocation : Invocation} :
      handlers.registered m = front ++ h :: behind → Handler.InTurn x m front w entries middle →
      (h.invoke m x).Returns middle invocation w' → Invoked handlers x m w blocking h invocation
  | suspending {trace : List (Stretch σ ω)} {stage : Cohort.Stage σ ω} {k : Nat} {h : Handler σ ω}
      {invocation : Invocation} :
      Cohort.Reaches ((handlers.registered m).map fun h => h.program m x) ⟨w, Locks.free⟩ trace
        stage →
      (handlers.registered m)[k]? = some h → stage.tasks[k]? = some (.settled invocation) →
      Invoked handlers x m w suspending h invocation

/-- An invocation that comes to its end in the course of a call, in the turn of the message that
the call has then reached.  How the call goes on from there, and whether it ends at all, is left
open. -/
def Makes (kind : BusKind) (handlers : Handlers σ ω) (m : Message) (x : Extra) (w : World σ ω)
    (reached : Message) (h : Handler σ ω) (invocation : Invocation) : Prop :=
  ∃ turns behind middle, Takes (kind.Serves handlers x) [m] w turns (reached :: behind) middle ∧
    kind.Invoked handlers x reached middle h invocation

variable {kind : BusKind} {handlers : Handlers σ ω} {x : Extra} {m : Message} {w : World σ ω}
  {h : Handler σ ω} {invocation : Invocation}

/-- Only the handlers of a message are invoked with it. -/
theorem Invoked.mem_registered (invoked : kind.Invoked handlers x m w h invocation) :
    h ∈ handlers.registered m := by
  cases invoked with
  | blocking splitEq _ _ =>
      rw [splitEq]
      exact List.mem_append_right _ List.mem_cons_self
  | suspending _ found _ => exact List.mem_of_getElem? found

/-- Where the types agree an invocation ends as the handler's own procedures may. -/
theorem Invoked.endsIn {P : Invocation → Prop} (invoked : kind.Invoked handlers x m w h invocation)
    (accepts : h.accepts = m.type) (ends : h.EndsIn P m x) : P invocation := by
  cases invoked with
  | blocking _ _ returned =>
      rw [Handler.invoke_returns_iff] at returned
      exact (ends.program accepts).run returned
  | @suspending trace stage k h invocation reached found settled =>
      have settles := reached.endsIn (P := fun j invocation => j = k → P invocation) ?_ k _ settled
      · exact settles rfl
      · intro j p programEq
        by_cases same : j = k
        · subst same
          rw [List.getElem?_map, found] at programEq
          cases programEq
          exact (ends.program accepts).mono fun _ holds _ => holds
        · exact .of_forall (fun _ other => absurd other same) p

/-- Whoever has a message in turn with others has it where those before have left off. -/
theorem invoked_of_inTurn {hs : List (Handler σ ω)} {entries : List (String × Invocation)}
    {w' : World σ ω} (served : Handler.InTurn x m hs w entries w') :
    ∀ entry ∈ entries, ∃ front, ∃ h : Handler σ ω, ∃ behind others middle after,
      hs = front ++ h :: behind ∧
      Handler.InTurn x m front w others middle ∧ (h.invoke m x).Returns middle entry.2 after := by
  induction served with
  | nobody => simp
  | @next h rest w middle w' invocation others invoked _ ih =>
      intro entry mem
      rcases List.mem_cons.mp mem with rfl | mem
      · exact ⟨[], h, rest, [], w, middle, rfl, .nobody, invoked⟩
      · obtain ⟨front, one, behind, others, between, after, rfl, served, returned⟩ := ih entry mem
        exact ⟨h :: front, one, behind, _, between, after, rfl, .next invoked served, returned⟩

/-- All invocations of a completed turn have come to their ends in it. -/
theorem invoked_of_serves {entries : List (String × Invocation)} {w' : World σ ω}
    (served : kind.Serves handlers x m w entries w') :
    ∀ entry ∈ entries, ∃ h, kind.Invoked handlers x m w h entry.2 := by
  intro entry mem
  cases kind with
  | blocking =>
      obtain ⟨front, h, behind, others, middle, after, splitEq, servedFront, returned⟩ :=
        invoked_of_inTurn served entry mem
      exact ⟨h, .blocking splitEq servedFront returned⟩
  | suspending =>
      obtain ⟨budget, results, left, ran, rfl, rfl⟩ := served
      obtain ⟨trace, stage, reached, tasksEq, _⟩ := Cohort.run_returns ran
      obtain ⟨⟨h, invocation⟩, pairMem, rfl⟩ := List.mem_map.mp mem
      obtain ⟨k, pairEq⟩ := List.getElem?_of_mem pairMem
      obtain ⟨found, resultEq⟩ := List.getElem?_zip_eq_some.mp pairEq
      refine ⟨h, .suspending reached found ?_⟩
      rw [tasksEq, List.getElem?_map, resultEq]
      rfl

end BusKind

namespace Handlers

/-- Registrations with a history. -/
structure Routed (changes : List (Change σ ω)) (handlers : Handlers σ ω) : Prop where
  /-- A list that is found for an event type has been given for it last, in this order.  An empty
  list is found like any other. -/
  events : ∀ type registered, handlers.eventHandlers? type = some registered ↔
    ∃ before given behind, changes = before ++ Change.setEventHandlers type given :: behind ∧
      (∀ change ∈ behind, ¬ change.ConcernsEvents type) ∧ registered = given.map Subtype.val
  /-- A handler that is found for a command type has been given for it last. -/
  commands : ∀ type h, handlers.commandHandler? type = some h ↔
    ∃ before given behind, changes = before ++ Change.setCommandHandler type given :: behind ∧
      (∀ change ∈ behind, ¬ change.ConcernsCommands type) ∧ h = given.val
  /-- For an event is found what is found for its type. -/
  find_event : ∀ e, handlers.find (.event e) =
    match handlers.eventHandlers? e.type with
    | some registered => .ok registered
    | none => .error (.eventHandlersMissing e.type.name)
  /-- For a command is found what is found for its type. -/
  find_command : ∀ c, handlers.find (.command c) =
    match handlers.commandHandler? c.type with
    | some h => .ok [h]
    | none => .error (.commandHandlerMissing c.type.name)
  /-- A further change that does not concern an event type leaves it what it has. -/
  events_apart : ∀ (change : Change σ ω) type, ¬ change.ConcernsEvents type →
    (change.apply handlers).eventHandlers? type = handlers.eventHandlers? type
  /-- A further change that does not concern a command type leaves it what it has. -/
  commands_apart : ∀ (change : Change σ ω) type, ¬ change.ConcernsCommands type →
    (change.apply handlers).commandHandler? type = handlers.commandHandler? type
  eventNames : Registry.Lists handlers.eventNames fun type =>
    (handlers.eventHandlers? type).isSome
  commandNames : Registry.Lists handlers.commandNames fun type =>
    (handlers.commandHandler? type).isSome
  /-- Whatever is invoked in a call is registered for the message and made for its type, and does
  not fail for want of that. -/
  makes : ∀ {kind : BusKind} {m x w reached h invocation},
    kind.Makes handlers m x w reached h invocation →
      h ∈ handlers.registered reached ∧ h.accepts = reached.type ∧
        (h.Candid → ¬ invocation.Mismatched)
  /-- Nothing in a completed turn fails for want of the type. -/
  serves : ∀ {kind : BusKind} {m x w entries w'}, kind.Serves handlers x m w entries w' →
    (∀ h ∈ handlers.registered m, h.Candid) → ∀ entry ∈ entries, ¬ entry.2.Mismatched

variable {handlers : Handlers σ ω}

theorem Typed.invoked (typed : handlers.Typed) {kind : BusKind} {x : Extra} {m : Message}
    {w : World σ ω} {h : Handler σ ω} {invocation : Invocation}
    (invoked : kind.Invoked handlers x m w h invocation) :
    h.accepts = m.type ∧ (h.Candid → ¬ invocation.Mismatched) := by
  have accepts := typed m h invoked.mem_registered
  exact ⟨accepts, fun candid => invoked.endsIn accepts (candid m x)⟩

/-- Whatever the history of registrations: what is found for a type has been given for it last and
is made for it, types do not interfere, and in no call does an invocation fail for having come to a
handler of another type. -/
theorem routed_after (changes : List (Change σ ω)) : Routed changes (after changes) where
  events := eventHandlers?_after_eq_some_iff changes
  commands := commandHandler?_after_eq_some_iff changes
  find_event e := by
    simp only [Registry.find, Registry.eventHandlers]
    cases (after changes).eventHandlers? e.type <;> rfl
  find_command c := by
    simp only [Registry.find, Registry.commandHandler]
    cases (after changes).commandHandler? c.type <;> rfl
  events_apart change type apart := by
    rw [change.eventHandlers?_apply, (change.onEvents_eq_none_iff type).mpr apart, Option.getD_none]
  commands_apart change type apart := by
    rw [change.commandHandler?_apply, (change.onCommands_eq_none_iff type).mpr apart,
      Option.getD_none]
  eventNames := Registry.lists_sortedNames _
  commandNames := Registry.lists_sortedNames _
  makes := by
    rintro kind m x w reached h invocation ⟨turns, behind, middle, _, invoked⟩
    exact ⟨invoked.mem_registered, (typed_after changes).invoked invoked⟩
  serves := by
    intro kind m x w entries w' served candid entry mem
    obtain ⟨h, invoked⟩ := BusKind.invoked_of_serves served entry mem
    exact ((typed_after changes).invoked invoked).2 (candid h invoked.mem_registered)

end Handlers

/-- Of two types that share a name each has its own handlers, and a clerk who fails for a reason of
its own is candid. -/
example :
    let namesake : MessageType := ⟨"depot::Packed", "Packed"⟩
    let handlers := Handlers.after (σ := Nat) (ω := List String)
      [.setEventHandlers Shop.packed.type [⟨Shop.clerk 2 Shop.packedPost, rfl⟩],
        .setEventHandlers namesake [], .removeCommandHandler Shop.packed.type]
    handlers.eventHandlers? Shop.packed.type = some [Shop.clerk 2 Shop.packedPost] ∧
      handlers.eventHandlers? namesake = some [] ∧
      (Shop.clerk 2 { Shop.packedPost with result := .error (.failed "lost") }).Candid :=
  ⟨rfl, rfl, fun _ _ _ ⟨_, _, failed⟩ => by cases failed⟩

end Courier
