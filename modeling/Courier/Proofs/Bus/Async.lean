import Courier.Bus.Async
import Courier.Proofs.Bus.Drain
import Courier.Proofs.Cohort.Orderless
import Courier.Proofs.Handler.Suspension

/-!
# Calls on the suspending bus

Handling one message is one turn, too: the cohort of its handlers runs to its end,
and its invocations are taken in all at once, in registration order.  Where the
members of the cohort may go on out of turn, this is the turn of handlers that
have the message one after the other; and after an event the call-scoped entries
of the context are released.

All this holds as far as is seen of the outside: a function of it stands for what
the handlers need to know.
-/

namespace Courier

open Courier.Action

variable {σ ω κ : Type}

/-- The world after the turn of a message. -/
def World.afterTurn (m : Message) (w : World σ ω) : World σ ω :=
  match m with
  | .event _ => { w with context := w.context.releaseScoped }
  | .command _ => w

theorem World.seen_afterTurn (g : ω → κ) (m : Message) (w : World σ ω) :
    (w.afterTurn m).seen g = (w.seen g).afterTurn m := by
  cases m <;> rfl

/-- Whenever a member of a cohort goes on, it may do so out of turn. -/
def Handlers.Orderless (g : ω → κ) (handlers : Handlers σ ω) (x : Extra) : Prop :=
  ∀ m w, Cohort.Orderless g ((handlers.registered m).map fun h => h.program m x) w

/-- As much is seen of the one world as of the other, and no instance is locked. -/
def SharedWorld.Shows (g : ω → κ) (s : SharedWorld σ ω) (w : World σ ω) : Prop :=
  s.locks = Locks.free ∧ s.world.seen g = w.seen g

theorem SharedWorld.shows_id_iff (s : SharedWorld σ ω) (w : World σ ω) :
    s.Shows id w ↔ s = ⟨w, Locks.free⟩ := by
  rcases s with ⟨v, locks⟩
  constructor
  · rintro ⟨rfl, sameWorld⟩
    exact congrArg (SharedWorld.mk · Locks.free) sameWorld
  · rintro ⟨⟩
    exact ⟨rfl, rfl⟩

namespace AsyncBus

open Courier.Progress

/-- A call ends with `r` and leaves `s'`, and `taken` are the messages that it
takes from its queue, in this order. -/
def Call (handlers : Handlers σ ω) (m : Message) (x : Extra) (s : SharedWorld σ ω)
    (taken : List Message) (r : CallResult) (s' : SharedWorld σ ω) : Prop :=
  ∃ budget, (handle handlers budget m x).Returns s r s' ∧
    Drains (fun m p => (dispatch handlers budget x m p).Returns) ⟨[m], []⟩ s taken r s'

/-- The invocations of a cohort, each with the name of its handler. -/
def named (handlers : List (Handler σ ω)) (invocations : List Invocation) :
    List (String × Invocation) :=
  (handlers.zip invocations).map fun entry => (entry.1.name, entry.2)

/-! ## One message -/

theorem settleAll_returns_iff {S : Type} (m : Message)
    (entries : List (Handler σ ω × Invocation)) (p next : Progress) (s s' : S) :
    (settleAll m entries p).Returns s next s' ↔
      p.after ⟨m, entries.map fun entry => (entry.1.name, entry.2)⟩ = next ∧ s = s' := by
  induction entries generalizing p s with
  | nil => simp [settleAll]
  | cons entry rest ih =>
      rcases entry with ⟨h, invocation⟩
      simp only [settleAll, returns_bind_iff, settleEvent_returns_iff, ih, List.map_cons]
      constructor
      · rintro ⟨_, _, ⟨rfl, rfl⟩, rfl, rfl⟩
        rw [after_after]
        exact ⟨rfl, rfl⟩
      · rintro ⟨rfl, rfl⟩
        refine ⟨_, s, ⟨rfl, rfl⟩, ?_, rfl⟩
        rw [after_after]
        rfl

theorem releaseScoped_returns_iff (s s' : SharedWorld σ ω) (u : Unit) (e : Event) :
    (releaseScoped : Action (SharedWorld σ ω) Unit).Returns s u s' ↔
      s' = ⟨s.world.afterTurn (.event e), s.locks⟩ := by
  unfold releaseScoped
  simp only [returns_bind_iff, returns_get_iff, returns_modify_iff]
  constructor
  · rintro ⟨_, _, ⟨rfl, rfl⟩, _, _, rfl, told⟩
    split at told
    · exact ((returns_tell_iff _ _ _ _).mp told).symm
    · exact ((returns_pure_iff _ _ _ _).mp told).2.symm
  · rintro rfl
    refine ⟨s, s, ⟨rfl, rfl⟩, (), _, rfl, ?_⟩
    split
    · exact (returns_tell_iff _ _ _ _).mpr rfl
    · exact (returns_pure_iff _ _ _ _).mpr ⟨rfl, rfl⟩

theorem run_nil_returns_iff (budget : Nat) (m : Message) (x : Extra) (s s' : SharedWorld σ ω)
    (invocations : List Invocation) :
    (Cohort.run budget [] m x).Returns s invocations s' ↔ invocations = [] ∧ s = s' := by
  rw [Cohort.run, returns_onCrash_iff]
  have settled : Cohort.invocations? ([] : List (Task σ ω)) = some [] := rfl
  rw [List.map_nil, List.map_nil, Cohort.rounds_of_settled settled, returns_pure_iff]
  exact and_congr_left' eq_comm

theorem deliverEvent_returns_iff (handlers : Handlers σ ω) (budget : Nat) (x : Extra)
    (e : Event) (p next : Progress) (s s' : SharedWorld σ ω) :
    (deliverEvent handlers budget x e p).Returns s next s' ↔
      ∃ invocations,
        (Cohort.run budget (handlers.registered (.event e)) (.event e) x).Returns s invocations s' ∧
          p.after ⟨.event e, named (handlers.registered (.event e)) invocations⟩ = next := by
  simp only [deliverEvent, Registry.registered]
  cases handlers.eventHandlers? e.type with
  | none =>
      simp only [unhandledEvent, returns_bind_iff, returns_tell_iff, returns_pure_iff,
        Option.getD_none, run_nil_returns_iff]
      constructor
      · rintro ⟨_, _, rfl, rfl, rfl⟩
        exact ⟨[], ⟨rfl, rfl⟩, after_nil p _⟩
      · rintro ⟨_, ⟨rfl, rfl⟩, rfl⟩
        exact ⟨(), s, rfl, (after_nil p _).symm, rfl⟩
  | some registered =>
      simp only [runHandlers, returns_bind_iff, returns_tell_iff, settleAll_returns_iff,
        Option.getD_some]
      constructor
      · rintro ⟨_, _, rfl, invocations, _, ran, rfl, rfl⟩
        exact ⟨invocations, ran, rfl⟩
      · rintro ⟨invocations, ran, rfl⟩
        exact ⟨(), s, rfl, invocations, s', ran, rfl, rfl⟩

theorem dispatchCommand_returns_iff (handlers : Handlers σ ω) (budget : Nat) (x : Extra)
    (c : Command) (p : Progress) (s s' : SharedWorld σ ω) (r : Except DispatchError Progress) :
    (dispatchCommand handlers budget x c p).Returns s r s' ↔
      ∃ invocations,
        (Cohort.run budget (handlers.registered (.command c)) (.command c) x).Returns s invocations
            s' ∧
          Turn.settle ⟨.command c, named (handlers.registered (.command c)) invocations⟩ p = r := by
  simp only [dispatchCommand, Registry.registered]
  cases handlers.commandHandler? c.type with
  | none =>
      simp only [unhandledCommand_returns_iff p, Option.toList_none, run_nil_returns_iff]
      constructor
      · rintro ⟨rfl, rfl⟩
        exact ⟨[], ⟨rfl, rfl⟩, rfl⟩
      · rintro ⟨_, ⟨rfl, rfl⟩, rfl⟩
        exact ⟨rfl, rfl⟩
  | some h =>
      -- The cohort has one member, so that there is one invocation to take in.
      simp only [returns_bind_iff, returns_tell_iff, Option.toList_some]
      constructor
      · rintro ⟨_, _, rfl, invocations, middle, ran, settled⟩
        rcases List.length_eq_one_iff.mp (Cohort.length_of_run_returns ran) with ⟨invocation, rfl⟩
        rcases (settleCommand_returns_iff _ _ _ _ _ _ _).mp settled with ⟨rfl, rfl⟩
        exact ⟨[invocation], ran, rfl⟩
      · rintro ⟨invocations, ran, rfl⟩
        rcases List.length_eq_one_iff.mp (Cohort.length_of_run_returns ran) with ⟨invocation, rfl⟩
        exact ⟨(), s, rfl, [invocation], s', ran,
          (settleCommand_returns_iff _ _ _ _ _ _ _).mpr ⟨rfl, rfl⟩⟩

/-- Handling a message is one turn of the cohort of its handlers. -/
theorem dispatch_returns_iff (handlers : Handlers σ ω) (budget : Nat) (x : Extra) (m : Message)
    (p : Progress) (s s' : SharedWorld σ ω) (r : Except DispatchError Progress) :
    (dispatch handlers budget x m p).Returns s r s' ↔
      ∃ invocations middle,
        (Cohort.run budget (handlers.registered m) m x).Returns s invocations middle ∧
          s' = ⟨middle.world.afterTurn m, middle.locks⟩ ∧
          Turn.settle ⟨m, named (handlers.registered m) invocations⟩ p = r := by
  cases m with
  | event e =>
      simp only [dispatch, dispatchEvent, returns_bind_iff, returns_pure_iff,
        deliverEvent_returns_iff, releaseScoped_returns_iff _ _ _ e]
      constructor
      · rintro ⟨_, _, ⟨_, middle, ⟨invocations, ran, rfl⟩, _, _, rfl, rfl, rfl⟩, rfl, rfl⟩
        exact ⟨invocations, middle, ran, rfl, rfl⟩
      · rintro ⟨invocations, middle, ran, rfl, rfl⟩
        exact ⟨_, _, ⟨_, middle, ⟨invocations, ran, rfl⟩, (), _, rfl, rfl, rfl⟩, rfl, rfl⟩
  | command c =>
      simp only [dispatch, dispatchCommand_returns_iff]
      constructor
      · rintro ⟨invocations, ran, rfl⟩
        exact ⟨invocations, s', ran, rfl, rfl⟩
      · rintro ⟨invocations, _, ran, rfl, rfl⟩
        exact ⟨invocations, ran, rfl⟩

/-- The handlers of a message have it in turn, and the turn is ended. -/
def Serves (handlers : Handlers σ ω) (x : Extra) (m : Message) (w : World σ ω)
    (invocations : List (String × Invocation)) (w' : World σ ω) : Prop :=
  ∃ served, Handler.InTurn x m (handlers.registered m) w invocations served ∧
    w' = served.afterTurn m

/-- What becomes of a message when it is handled, in as many rounds as it takes. -/
abbrev Handles (handlers : Handlers σ ω) (x : Extra) : Dispatching (SharedWorld σ ω) :=
  fun m p s r s' => ∃ budget, (dispatch handlers budget x m p).Returns s r s'

/-- What becomes of a message when its handlers have it in turn. -/
abbrev TakesTurn (handlers : Handlers σ ω) (x : Extra) : Dispatching (World σ ω) :=
  fun m p w r w' => ∃ invocations, Serves handlers x m w invocations w' ∧
    Turn.settle ⟨m, invocations⟩ p = r

theorem Serves.respects {g : ω → κ} {handlers : Handlers σ ω} {x : Extra}
    (orderless : handlers.Orderless g x) {m : Message} {w u w' : World σ ω}
    (same : w.seen g = u.seen g) {invocations : List (String × Invocation)}
    (serves : Serves handlers x m w invocations w') :
    ∃ u', Serves handlers x m u invocations u' ∧ w'.seen g = u'.seen g := by
  rcases serves with ⟨served, inTurn, rfl⟩
  have respects : ∀ h ∈ handlers.registered m, (h.program m x).run.Respects (World.seen g) := by
    intro h mem
    apply (orderless m w).respects .start (.fresh (h.program m x))
    simpa [Cohort.Stage.tasks] using ⟨h, mem, rfl⟩
  obtain ⟨served', inTurnAlike, sameEnd⟩ := Handler.InTurn.respects respects same inTurn
  refine ⟨served'.afterTurn m, ⟨served', inTurnAlike, rfl⟩, ?_⟩
  rw [World.seen_afterTurn, World.seen_afterTurn, sameEnd]

/-- Where the members of a cohort may go on out of turn, handling a message is one
turn of handlers that have it one after the other. -/
theorem takesTurn_of_handles {g : ω → κ} {handlers : Handlers σ ω} {x : Extra}
    (orderless : handlers.Orderless g x) {m : Message} {p : Progress} {s s' : SharedWorld σ ω}
    {w : World σ ω} {r : Except DispatchError Progress} (shows : s.Shows g w)
    (handled : Handles handlers x m p s r s') :
    ∃ w', s'.Shows g w' ∧ TakesTurn handlers x m p w r w' := by
  rcases handled with ⟨budget, dispatched⟩
  rcases s with ⟨v, locks⟩
  rcases shows with ⟨rfl, seenEq⟩
  obtain ⟨invocations, middle, ran, rfl, settled⟩ :=
    (dispatch_returns_iff handlers budget x m p _ s' r).mp dispatched
  obtain ⟨v', finished, sameFinish⟩ := (Cohort.exists_run_returns_iff _ m x (orderless m v)
    invocations (middle.world.seen g)).mp ⟨budget, middle, ran, rfl⟩
  have served : Serves handlers x m v (named (handlers.registered m) invocations)
      (v'.afterTurn m) :=
    ⟨v', (Cohort.inTurn_iff_finish _ _ _ _ _ _).mpr ⟨invocations, finished, rfl⟩, rfl⟩
  obtain ⟨w', servedAlike, sameEnd⟩ := served.respects orderless seenEq
  have locksEq : middle.locks = Locks.free := Cohort.locks_of_run_returns ran
  refine ⟨w', ⟨locksEq, ?_⟩, _, servedAlike, settled⟩
  rw [← sameEnd, World.seen_afterTurn, World.seen_afterTurn, sameFinish]

theorem handles_of_takesTurn {g : ω → κ} {handlers : Handlers σ ω} {x : Extra}
    (orderless : handlers.Orderless g x) {m : Message} {p : Progress} {s : SharedWorld σ ω}
    {w w' : World σ ω} {r : Except DispatchError Progress} (shows : s.Shows g w)
    (turned : TakesTurn handlers x m p w r w') :
    ∃ s', s'.Shows g w' ∧ Handles handlers x m p s r s' := by
  rcases turned with ⟨entries, served, settled⟩
  rcases s with ⟨v, locks⟩
  rcases shows with ⟨rfl, seenEq⟩
  obtain ⟨_, ⟨v', inTurn, rfl⟩, sameEnd⟩ := served.respects orderless seenEq.symm
  rcases (Cohort.inTurn_iff_finish _ _ _ _ _ _).mp inTurn with ⟨invocations, finished, rfl⟩
  obtain ⟨budget, middle, ran, sameFinish⟩ := (Cohort.exists_run_returns_iff _ m x
    (orderless m v) invocations (v'.seen g)).mpr ⟨v', finished, rfl⟩
  have locksEq : middle.locks = Locks.free := Cohort.locks_of_run_returns ran
  refine ⟨⟨middle.world.afterTurn m, middle.locks⟩, ⟨locksEq, ?_⟩, budget, ?_⟩
  · rw [sameEnd, World.seen_afterTurn, World.seen_afterTurn, sameFinish]
  · rw [dispatch_returns_iff]
    exact ⟨invocations, middle, ran, rfl, settled⟩

/-! ## A whole call -/

theorem deliverEvent_approximates (handlers : Handlers σ ω) {budget larger : Nat}
    (le : budget ≤ larger) (x : Extra) (e : Event) (p : Progress) :
    (deliverEvent handlers budget x e p).Approximates (deliverEvent handlers larger x e p) := by
  unfold deliverEvent
  cases handlers.eventHandlers? e.type with
  | none => exact .refl _
  | some registered =>
      apply (Approximates.refl _).bind
      intro _
      exact (Cohort.run_approximates le registered (.event e) x).bind fun _ => .refl _

theorem dispatchCommand_approximates (handlers : Handlers σ ω) {budget larger : Nat}
    (le : budget ≤ larger) (x : Extra) (c : Command) (p : Progress) :
    (dispatchCommand handlers budget x c p).Approximates
      (dispatchCommand handlers larger x c p) := by
  unfold dispatchCommand
  cases handlers.commandHandler? c.type with
  | none => exact .refl _
  | some h =>
      apply (Approximates.refl _).bind
      intro _
      exact (Cohort.run_approximates le [h] (.command c) x).bind fun _ => .refl _

theorem dispatch_approximates (handlers : Handlers σ ω) {budget larger : Nat}
    (le : budget ≤ larger) (x : Extra) (m : Message) (p : Progress) :
    (dispatch handlers budget x m p).Approximates (dispatch handlers larger x m p) := by
  cases m with
  | event e =>
      have dispatched : (dispatchEvent handlers budget x e p).Approximates
          (dispatchEvent handlers larger x e p) :=
        (deliverEvent_approximates handlers le x e p).bind fun _ => .refl _
      exact dispatched.bind fun _ => .refl _
  | command c => exact dispatchCommand_approximates handlers le x c p

theorem dispatch_returns_mono {handlers : Handlers σ ω} {budget larger : Nat}
    (le : budget ≤ larger) {x : Extra} {m : Message} {p : Progress} {s s' : SharedWorld σ ω}
    {r : Except DispatchError Progress}
    (returned : (dispatch handlers budget x m p).Returns s r s') :
    (dispatch handlers larger x m p).Returns s r s' :=
  (dispatch_approximates handlers le x m p).returns returned

theorem handle_returns_iff (handlers : Handlers σ ω) (budget : Nat) (m : Message) (x : Extra)
    (s s' : SharedWorld σ ω) (r : CallResult) :
    (handle handlers budget m x).Returns s r s' ↔
      ∃ taken, taken.length ≤ budget ∧
        Drains (fun m p => (dispatch handlers budget x m p).Returns) ⟨[m], []⟩ s taken r s' := by
  simp only [handle, returns_bind_iff, returns_tell_iff, drain_returns_iff]
  constructor
  · rintro ⟨_, _, rfl, ended⟩
    exact ended
  · intro ended
    exact ⟨(), s, rfl, ended⟩

/-- A call ends when its queue is drained, however many messages and rounds that
takes. -/
theorem call_iff_drains (handlers : Handlers σ ω) (m : Message) (x : Extra)
    (s s' : SharedWorld σ ω) (taken : List Message) (r : CallResult) :
    Call handlers m x s taken r s' ↔ Drains (Handles handlers x) ⟨[m], []⟩ s taken r s' := by
  constructor
  · rintro ⟨budget, _, drained⟩
    exact drained.mono fun returned => ⟨budget, returned⟩
  · intro drained
    obtain ⟨enough, drains⟩ :=
      drained.exists_budget fun le => dispatch_approximates handlers le x
    have drainsMax := drains (max enough taken.length) (Nat.le_max_left _ _)
    refine ⟨max enough taken.length, ?_, drainsMax⟩
    rw [handle_returns_iff]
    exact ⟨taken, Nat.le_max_right _ _, drainsMax⟩

/-- A call comes out in one way only, however many rounds it is allowed. -/
theorem Call.unique {handlers : Handlers σ ω} {m : Message} {x : Extra}
    {s first second : SharedWorld σ ω} {taken others : List Message} {r r' : CallResult}
    (called : Call handlers m x s taken r first)
    (calledToo : Call handlers m x s others r' second) :
    taken = others ∧ r = r' ∧ first = second := by
  rw [call_iff_drains] at called calledToo
  apply called.unique _ calledToo
  rintro m p s r r' s' s'' ⟨budget, returned⟩ ⟨larger, returnedToo⟩
  exact (dispatch_returns_mono (Nat.le_max_left budget larger) returned).unique
    (dispatch_returns_mono (Nat.le_max_right budget larger) returnedToo)

/-- Where the members of a cohort may go on out of turn, a call takes one turn
after the other and leaves no instance locked. -/
theorem turns_of_call {g : ω → κ} {handlers : Handlers σ ω} {x : Extra}
    (orderless : handlers.Orderless g x) {m : Message} {w : World σ ω} {s' : SharedWorld σ ω}
    {taken : List Message} {r : CallResult}
    (called : Call handlers m x ⟨w, Locks.free⟩ taken r s') :
    ∃ w', s'.Shows g w' ∧ Drains (TakesTurn handlers x) ⟨[m], []⟩ w taken r w' := by
  rw [call_iff_drains] at called
  exact called.transport (SharedWorld.Shows g) ⟨rfl, rfl⟩ (takesTurn_of_handles orderless)

theorem call_of_turns {g : ω → κ} {handlers : Handlers σ ω} {x : Extra}
    (orderless : handlers.Orderless g x) {m : Message} {w w' : World σ ω}
    {taken : List Message} {r : CallResult}
    (turned : Drains (TakesTurn handlers x) ⟨[m], []⟩ w taken r w') :
    ∃ s', s'.Shows g w' ∧ Call handlers m x ⟨w, Locks.free⟩ taken r s' := by
  simp only [call_iff_drains]
  exact turned.transport (fun w (s : SharedWorld σ ω) => s.Shows g w) ⟨rfl, rfl⟩
    (handles_of_takesTurn orderless)

/-- A call may take these messages and end with `r`, and this is seen of the world
that it leaves then. -/
def Leaves (g : ω → κ) (handlers : Handlers σ ω) (m : Message) (x : Extra) (w : World σ ω)
    (taken : List Message) (r : CallResult) (seen : World σ κ) : Prop :=
  ∃ s', Call handlers m x ⟨w, Locks.free⟩ taken r s' ∧ s'.world.seen g = seen

theorem leaves_iff_turns {g : ω → κ} {handlers : Handlers σ ω} {x : Extra}
    (orderless : handlers.Orderless g x) (m : Message) (w : World σ ω) (taken : List Message)
    (r : CallResult) (seen : World σ κ) :
    Leaves g handlers m x w taken r seen ↔
      ∃ w', Drains (TakesTurn handlers x) ⟨[m], []⟩ w taken r w' ∧ w'.seen g = seen := by
  constructor
  · rintro ⟨s', called, rfl⟩
    obtain ⟨w', shows, turned⟩ := turns_of_call orderless called
    exact ⟨w', turned, shows.2.symm⟩
  · rintro ⟨w', turned, rfl⟩
    obtain ⟨s', shows, called⟩ := call_of_turns orderless turned
    exact ⟨s', called, shows.2⟩

end AsyncBus

end Courier
