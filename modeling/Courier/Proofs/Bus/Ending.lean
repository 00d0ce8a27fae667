import Courier.Proofs.Bus.Async
import Courier.Proofs.Bus.Course
import Courier.Proofs.Bus.Sync

/-!
# How calls end

On both buses a call ends with an error exactly when, in the order of its queue, it
reaches a command that nobody is registered for or whose handler fails.  The first
such command is the last message that is handled, and what it has left of the world
is what the call leaves.

The two buses differ in what the handlers of an event make of it: on the blocking bus
they have it one after the other, on the suspending bus as a cohort, with a release
of call-scoped entries behind it.  The handler of a command is alone on both.
-/

namespace Courier

open Courier.Action

variable {σ ω : Type}

namespace Handlers

/-- A command that ends the call it comes up in: nobody is registered for it, and the
world stays as it is, or its handler fails, and the world stays as it leaves it. -/
inductive Aborts (handlers : Handlers σ ω) (x : Extra) (c : Command) (w : World σ ω) :
    DispatchError → World σ ω → Prop
  | missing :
      handlers.commandHandler? c.type = none →
      Aborts handlers x c w (.commandHandlerMissing c.type.name) w
  | failed {h : Handler σ ω} {source : HandlerError} {emitted : List Message} {w' : World σ ω} :
      handlers.commandHandler? c.type = some h →
      (h.invoke (.command c) x).Returns w ⟨.error source, emitted⟩ w' →
      Aborts handlers x c w (.commandFailed c.type.name h.name source) w'

theorem aborts_iff_inTurn (handlers : Handlers σ ω) (x : Extra) (c : Command) (w w' : World σ ω)
    (e : DispatchError) :
    handlers.Aborts x c w e w' ↔
      ∃ invocations,
        Handler.InTurn x (.command c) (handlers.registered (.command c)) w invocations w' ∧
          Turn.Aborts ⟨.command c, invocations⟩ e := by
  simp only [Registry.registered]
  constructor
  · rintro (unregistered | ⟨registered, invoked⟩)
    · rw [unregistered]
      exact ⟨[], .nobody, .missing c⟩
    · rw [registered]
      exact ⟨_, .next invoked .nobody, .failed c _ _ _ []⟩
  · rintro ⟨invocations, served, aborts⟩
    cases registered : handlers.commandHandler? c.type with
    | none =>
        rw [registered, Option.toList_none, Handler.inTurn_nil_iff] at served
        rcases served with ⟨rfl, rfl⟩
        cases aborts
        exact .missing registered
    | some h =>
        rw [registered, Option.toList_some, Handler.inTurn_singleton_iff] at served
        rcases served with ⟨invocation, invoked, rfl⟩
        cases aborts
        exact .failed registered invoked

end Handlers

namespace Progress

/-- The ends that a call on a message may come to, from the world it starts in to the
world it leaves.  `serving` tells what the handlers of a message make of it. -/
inductive EndsWith (handlers : Handlers σ ω) (x : Extra) (serving : Serving (World σ ω))
    (m : Message) (w : World σ ω) : List Message → CallResult → World σ ω → Prop
  /-- Every message has had its turn, and each successful invocation has left a result. -/
  | results {turns : List Turn} {w' : World σ ω} :
      Takes serving [m] w turns [] w' →
      EndsWith handlers x serving m w (turns.map (·.message)) (.ok (turns.flatMap Turn.results)) w'
  /-- A command has ended the call, and those behind it have no turn. -/
  | error {turns : List Turn} {c : Command} {behind : List Message} {middle w' : World σ ω}
      {e : DispatchError} :
      Takes serving [m] w turns (.command c :: behind) middle →
      handlers.Aborts x c middle e w' →
      EndsWith handlers x serving m w (turns.map (·.message) ++ [.command c]) (.error e) w'

/-- Where the handler of a command is alone, the loop of a call comes to one of these
ends. -/
theorem drains_iff_endsWith {handlers : Handlers σ ω} {x : Extra}
    {dispatching : Dispatching (World σ ω)} {serving : Serving (World σ ω)}
    (turned : ∀ m p w w' r, dispatching m p w r w' ↔
      ∃ invocations, serving m w invocations w' ∧ Turn.settle ⟨m, invocations⟩ p = r)
    (alone : ∀ c w invocations w', serving (.command c) w invocations w' ↔
      Handler.InTurn x (.command c) (handlers.registered (.command c)) w invocations w')
    (m : Message) (w w' : World σ ω) (taken : List Message) (r : CallResult) :
    Drains dispatching ⟨[m], []⟩ w taken r w' ↔
      EndsWith handlers x serving m w taken r w' := by
  cases r with
  | ok results =>
      rw [drains_ok_iff turned]
      constructor
      · rintro ⟨turns, takes, rfl, rfl⟩
        exact .results takes
      · rintro ⟨takes⟩
        exact ⟨_, takes, rfl, rfl⟩
  | error e =>
      rw [drains_error_iff turned]
      constructor
      · rintro ⟨turns, last, behind, middle, invocations, takes, served, aborts, rfl⟩
        -- Only the turn of a command can end a call.
        obtain ⟨c, rfl⟩ : ∃ c, last = .command c := by
          cases aborts <;> exact ⟨_, rfl⟩
        rw [alone] at served
        exact .error takes ((handlers.aborts_iff_inTurn x c middle w' e).mpr
          ⟨invocations, served, aborts⟩)
      · rintro (_ | ⟨takes, aborts⟩)
        obtain ⟨invocations, served, aborts⟩ := (handlers.aborts_iff_inTurn x _ _ w' e).mp aborts
        exact ⟨_, _, _, _, invocations, takes, (alone _ _ _ _).mpr served, aborts, rfl⟩

end Progress

namespace AsyncBus

open Courier.Progress

/-- The handlers of a message have it as a cohort that finds and leaves no instance
locked, and the turn is ended. -/
def Convenes (handlers : Handlers σ ω) (x : Extra) (m : Message) (w : World σ ω)
    (invocations : List (String × Invocation)) (w' : World σ ω) : Prop :=
  ∃ budget results served,
    (Cohort.run budget (handlers.registered m) m x).Returns ⟨w, Locks.free⟩ results
        ⟨served, Locks.free⟩ ∧
      invocations = named (handlers.registered m) results ∧ w' = served.afterTurn m

/-- A cohort that returns leaves no instance locked. -/
theorem convenes_of_run {handlers : Handlers σ ω} {x : Extra} {m : Message} {w : World σ ω}
    {budget : Nat} {results : List Invocation} {s' : SharedWorld σ ω}
    (ran : (Cohort.run budget (handlers.registered m) m x).Returns ⟨w, Locks.free⟩ results s') :
    Convenes handlers x m w (named (handlers.registered m) results) (s'.world.afterTurn m) := by
  rcases s' with ⟨served, locks⟩
  obtain rfl : locks = Locks.free := Cohort.locks_of_run_returns ran
  exact ⟨budget, results, served, ran, rfl, rfl⟩

/-- Every handler is invoked once, and the invocations come in registration order. -/
theorem Convenes.names {handlers : Handlers σ ω} {x : Extra} {m : Message} {w w' : World σ ω}
    {invocations : List (String × Invocation)} (convenes : Convenes handlers x m w invocations w') :
    invocations.map (·.1) = (handlers.registered m).map (·.name) := by
  rcases convenes with ⟨budget, results, served, ran, rfl, _⟩
  have lengthEq := Cohort.length_of_run_returns ran
  calc (named (handlers.registered m) results).map (·.1)
      = (((handlers.registered m).zip results).map Prod.fst).map (·.name) := by
        simp [named, Function.comp_def]
    _ = (handlers.registered m).map (·.name) := by rw [List.map_fst_zip (by omega)]

/-- A single handler has a message as if it did not suspend. -/
theorem convenes_iff_serves (handlers : Handlers σ ω) (x : Extra) (m : Message)
    (single : (handlers.registered m).length ≤ 1) (w w' : World σ ω)
    (invocations : List (String × Invocation)) :
    Convenes handlers x m w invocations w' ↔ Serves handlers x m w invocations w' := by
  have orderless : Cohort.Orderless id
      ((handlers.registered m).map fun h => h.program m x) w := by
    apply Cohort.orderless_of_length_le_one
    · intro p mem
      rcases List.mem_map.mp mem with ⟨h, _, rfl⟩
      exact (Handler.DependsOn.of_injective Function.injective_id h).program _ x
    · rw [List.length_map]
      exact single
  simp only [Serves, Cohort.inTurn_iff_finish]
  constructor
  · rintro ⟨budget, results, served, ran, rfl, rfl⟩
    obtain ⟨finish, finished, sameEnd⟩ := (Cohort.exists_run_returns_iff _ _ x orderless results
      (served.seen id)).mp ⟨budget, _, ran, rfl⟩
    obtain rfl : finish = served := sameEnd
    exact ⟨finish, ⟨results, finished, rfl⟩, rfl⟩
  · rintro ⟨served, ⟨results, finished, rfl⟩, rfl⟩
    obtain ⟨budget, s', ran, sameEnd⟩ := (Cohort.exists_run_returns_iff _ _ x orderless results
      (served.seen id)).mpr ⟨served, finished, rfl⟩
    have locksEq := Cohort.locks_of_run_returns ran
    obtain rfl : s' = ⟨served, Locks.free⟩ :=
      (s'.shows_id_iff served).mp ⟨locksEq, sameEnd⟩
    exact ⟨budget, results, served, ran, rfl, rfl⟩

/-- The handler of a command is alone in its cohort. -/
theorem convenes_command_iff (handlers : Handlers σ ω) (x : Extra) (c : Command)
    (w w' : World σ ω) (invocations : List (String × Invocation)) :
    Convenes handlers x (.command c) w invocations w' ↔
      Handler.InTurn x (.command c) (handlers.registered (.command c)) w invocations w' := by
  rw [convenes_iff_serves handlers x (.command c) Option.length_toList_le]
  constructor
  · rintro ⟨_, served, rfl⟩
    exact served
  · intro served
    exact ⟨w', served, rfl⟩

/-- Where no instance is locked, handling a message is one turn of the cohort of its
handlers, and no instance is locked behind it. -/
theorem handles_iff_convenes (handlers : Handlers σ ω) (x : Extra) (m : Message) (p : Progress)
    (w : World σ ω) (s' : SharedWorld σ ω) (r : Except DispatchError Progress) :
    Handles handlers x m p ⟨w, Locks.free⟩ r s' ↔
      ∃ w', s' = ⟨w', Locks.free⟩ ∧
        ∃ invocations, Convenes handlers x m w invocations w' ∧
          Turn.settle ⟨m, invocations⟩ p = r := by
  simp only [Handles, dispatch_returns_iff]
  constructor
  · rintro ⟨budget, results, ⟨served, locks⟩, ran, rfl, settled⟩
    obtain rfl : locks = Locks.free := Cohort.locks_of_run_returns ran
    exact ⟨_, rfl, _, ⟨budget, results, served, ran, rfl, rfl⟩, settled⟩
  · rintro ⟨_, rfl, _, ⟨budget, results, served, ran, rfl, rfl⟩, settled⟩
    exact ⟨budget, results, _, ran, rfl, settled⟩

/-- A call that finds no instance locked goes from one turn of a cohort to the next,
and leaves no instance locked. -/
theorem call_iff_convenes (handlers : Handlers σ ω) (m : Message) (x : Extra) (w : World σ ω)
    (s' : SharedWorld σ ω) (taken : List Message) (r : CallResult) :
    Call handlers m x ⟨w, Locks.free⟩ taken r s' ↔
      ∃ w', s' = ⟨w', Locks.free⟩ ∧
        Drains (fun m p w r w' => ∃ invocations, Convenes handlers x m w invocations w' ∧
          Turn.settle ⟨m, invocations⟩ p = r) ⟨[m], []⟩ w taken r w' := by
  rw [call_iff_drains]
  constructor
  · intro drained
    apply drained.transport (fun s w => s = ⟨w, Locks.free⟩) rfl
    rintro m p _ r s' w rfl handled
    exact (handles_iff_convenes handlers x m p w s' r).mp handled
  · rintro ⟨w', rfl, drained⟩
    have alike : ∃ s', s' = ⟨w', Locks.free⟩ ∧
        Drains (Handles handlers x) ⟨[m], []⟩ ⟨w, Locks.free⟩ taken r s' := by
      apply drained.transport (fun w (s : SharedWorld σ ω) => s = ⟨w, Locks.free⟩) rfl
      rintro m p w r w' _ rfl turned
      exact ⟨_, rfl, (handles_iff_convenes handlers x m p w _ r).mpr ⟨w', rfl, turned⟩⟩
    rcases alike with ⟨_, rfl, drainedAlike⟩
    exact drainedAlike

end AsyncBus

/-- On both buses a call ends with an error exactly when it reaches a command that
ends it.  By then every message in front of the command has had all its handlers, the
command is the last message that is taken, and the world is as the command has left it.
Otherwise it ends with the results of all turns, whatever becomes of events. -/
theorem call_iff_endsWith (handlers : Handlers σ ω) (m : Message) (x : Extra) (w : World σ ω)
    (taken : List Message) (r : CallResult) :
    (∀ w', SyncBus.Call handlers m x w taken r w' ↔
      Progress.EndsWith handlers x (fun m => Handler.InTurn x m (handlers.registered m)) m w
        taken r w') ∧
    (∀ s', AsyncBus.Call handlers m x ⟨w, Locks.free⟩ taken r s' ↔
      ∃ w', s' = ⟨w', Locks.free⟩ ∧
        Progress.EndsWith handlers x (AsyncBus.Convenes handlers x) m w taken r w') ∧
    ∀ m w invocations w',
      Handler.InTurn x m (handlers.registered m) w invocations w' ∨
        AsyncBus.Convenes handlers x m w invocations w' →
      invocations.map (·.1) = (handlers.registered m).map (·.name) := by
  refine ⟨?_, ?_, ?_⟩
  · intro w'
    rw [SyncBus.call_iff_drains]
    apply Progress.drains_iff_endsWith
    · exact SyncBus.dispatch_returns_iff handlers x
    · exact fun c w invocations w' => Iff.rfl
  · intro s'
    rw [AsyncBus.call_iff_convenes]
    refine exists_congr fun w' => and_congr_right fun _ => ?_
    apply Progress.drains_iff_endsWith
    · exact fun m p w w' r => Iff.rfl
    · exact fun c w invocations w' => AsyncBus.convenes_command_iff handlers x c w w' invocations
  · rintro m w invocations w' (served | convenes)
    · exact served.names
    · exact convenes.names

end Courier
