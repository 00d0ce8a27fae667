import Courier.Proofs.Budget
import Courier.Proofs.Bus.Kind

/-!
# Calls without locks

A call on the suspending bus finds no instance locked, and none stays locked behind it: it may be
run as if there were no locks.  So the calls on both kinds of bus are actions on the world, and
`BusKind.dispatch`, `BusKind.handle` and `BusKind.handleBatch` are these actions, with the kind as a
parameter.  Of the two, only the suspending bus needs a budget for a single message.
-/

namespace Courier

open Courier.Action Courier.Progress

variable {σ ω S α β : Type}

/-! ## Locks -/

namespace Action

/-- Run an action where no instance is locked. -/
def unlocked (action : Action (SharedWorld σ ω) α) : Action (World σ ω) α :=
  action.within (⟨·, Locks.free⟩) fun s _ => s.world

/-- An action that finds no instance locked and returns leaves none so. -/
def LeavesFree (action : Action (SharedWorld σ ω) α) : Prop :=
  ∀ w a s', action.Returns ⟨w, Locks.free⟩ a s' → s'.locks = Locks.free

theorem LeavesFree.returns_unlocked_iff {action : Action (SharedWorld σ ω) α}
    (free : action.LeavesFree) (w w' : World σ ω) (a : α) :
    action.unlocked.Returns w a w' ↔ action.Returns ⟨w, Locks.free⟩ a ⟨w', Locks.free⟩ := by
  rw [unlocked, returns_within_iff]
  constructor
  · rintro ⟨⟨served, locks⟩, returned, rfl⟩
    obtain rfl : locks = Locks.free := free _ _ _ returned
    exact returned
  · intro returned
    exact ⟨_, returned, rfl⟩

/-- What follows an action that leaves no instance locked finds none so. -/
theorem LeavesFree.unlocked_bind {action : Action (SharedWorld σ ω) α} (free : action.LeavesFree)
    (next : α → Action (SharedWorld σ ω) β) :
    (action >>= next).unlocked = action.unlocked >>= fun a => (next a).unlocked := by
  funext w
  show Action.unlocked (action.bind next) w = Action.bind action.unlocked _ w
  rcases runEq : action ⟨w, Locks.free⟩ with ⟨outcome, ⟨served, locks⟩, log⟩
  cases outcome with
  | returned a =>
      obtain rfl : locks = Locks.free := free w a _ (by rw [Returns, runEq]; exact ⟨rfl, rfl⟩)
      simp only [unlocked, within, Action.bind, runEq]
  | crashed text => simp only [unlocked, within, Action.bind, runEq]
  | unfinished => simp only [unlocked, within, Action.bind, runEq]

theorem leavesFree_pure (a : α) : (pure a : Action (SharedWorld σ ω) α).LeavesFree := by
  intro w b s' returned
  obtain ⟨_, rfl⟩ := (returns_pure_iff _ _ _ _).mp returned
  rfl

theorem leavesFree_tell (lines : List LogLine) :
    (tell lines : Action (SharedWorld σ ω) Unit).LeavesFree := by
  intro w b s' returned
  obtain rfl := (returns_tell_iff _ _ _ _).mp returned
  rfl

theorem LeavesFree.bind {action : Action (SharedWorld σ ω) α} (free : action.LeavesFree)
    {next : α → Action (SharedWorld σ ω) β} (freeNext : ∀ a, (next a).LeavesFree) :
    (action >>= next).LeavesFree := by
  intro w b s' returned
  obtain ⟨a, ⟨served, locks⟩, first, second⟩ := (returns_bind_iff _ _ _ _ _).mp returned
  obtain rfl : locks = Locks.free := free _ _ _ first
  exact freeNext a _ _ _ second

end Action

namespace Progress

variable {dispatch : Message → Progress → Action (SharedWorld σ ω) (Except DispatchError Progress)}
  {handle : Message → Action (SharedWorld σ ω) CallResult}

theorem drain_leavesFree (free : ∀ m p, (dispatch m p).LeavesFree) (budget : Nat) (p : Progress) :
    (drain dispatch budget p).LeavesFree := by
  induction budget generalizing p with
  | zero =>
      rw [drain]
      split
      · exact leavesFree_pure _
      · exact fun _ _ _ returned => absurd returned (not_returns_cutOff _ _ _)
  | succ budget ih =>
      rcases p with ⟨_ | ⟨m, rest⟩, results⟩
      · exact leavesFree_pure _
      · apply (free m _).bind
        rintro (e | next)
        · exact leavesFree_pure _
        · exact ih next

theorem unlocked_drain (free : ∀ m p, (dispatch m p).LeavesFree) (budget : Nat) (p : Progress) :
    (drain dispatch budget p).unlocked = drain (fun m p => (dispatch m p).unlocked) budget p := by
  induction budget generalizing p with
  | zero =>
      rw [drain, drain]
      split <;> rfl
  | succ budget ih =>
      rcases p with ⟨_ | ⟨m, rest⟩, results⟩
      · rfl
      · rw [drain, (free m _).unlocked_bind]
        apply congrArg
        funext r
        cases r with
        | error e => rfl
        | ok next => exact ih next

theorem batch_leavesFree (free : ∀ m, (handle m).LeavesFree) (ms : List Message) :
    (batch handle ms).LeavesFree := by
  induction ms with
  | nil => exact leavesFree_pure _
  | cons m rest ih =>
      apply (free m).bind
      rintro (e | results)
      · exact leavesFree_pure _
      · apply ih.bind
        rintro (e | more) <;> exact leavesFree_pure _

theorem unlocked_batch (free : ∀ m, (handle m).LeavesFree) (ms : List Message) :
    (batch handle ms).unlocked = batch (fun m => (handle m).unlocked) ms := by
  induction ms with
  | nil => rfl
  | cons m rest ih =>
      rw [batch, (free m).unlocked_bind]
      apply congrArg
      funext r
      cases r with
      | error e => rfl
      | ok results =>
          rw [(batch_leavesFree free rest).unlocked_bind, ih]
          apply congrArg
          funext r
          cases r <;> rfl

end Progress

/-! ## Every message settles -/

theorem Handler.invoke_finishes (h : Handler σ ω) (m : Message) (x : Extra) :
    (h.invoke m x).Finishes := by
  unfold Handler.invoke
  split
  · exact .pure _
  · cases h.behavior with
    | stateful owner lifecycle =>
        refine Finishes.within ?_ _ _
        refine Finishes.bind lifecycle.before.run_ne_unfinished ?_
        rintro (e | _)
        · exact .pure _
        · exact .ensuring (lifecycle.core m x).run_ne_unfinished lifecycle.after.run_ne_unfinished
    | plain routine =>
        refine Finishes.within ?_ _ _
        exact .bind (routine m x).run_ne_unfinished fun _ => .pure _

namespace Progress

theorem settleEvent_finishes (p : Progress) (m : Message) (handler : String)
    (invocation : Invocation) :
    (p.settleEvent m handler invocation : Action S Progress).Finishes :=
  fun s => ((settleEvent_returns_iff p _ m handler invocation s s).mpr ⟨rfl, rfl⟩).ne_unfinished

theorem settleCommand_finishes (p : Progress) (c : Command) (handler : String)
    (invocation : Invocation) :
    (p.settleCommand (.command c) handler invocation : Action S _).Finishes :=
  fun s => ((settleCommand_returns_iff p c handler invocation s s _).mpr ⟨rfl, rfl⟩).ne_unfinished

end Progress

namespace SyncBus

theorem runHandlers_finishes (m : Message) (x : Extra) (handlers : List (Handler σ ω))
    (p : Progress) : (runHandlers m x handlers p).Finishes := by
  induction handlers generalizing p with
  | nil => exact .pure _
  | cons h rest ih =>
      exact .bind (.tell _) fun _ => .bind (h.invoke_finishes m x) fun invocation =>
        .bind (p.settleEvent_finishes m h.name invocation) ih

/-- On the blocking bus the handlers of a message come to their end. -/
theorem dispatch_finishes (handlers : Handlers σ ω) (x : Extra) (m : Message) (p : Progress) :
    (dispatch handlers x m p).Finishes := by
  cases m with
  | event e =>
      have dispatched : (dispatchEvent handlers x e p).Finishes := by
        unfold dispatchEvent
        cases handlers.eventHandlers? e.type with
        | none => exact .bind (.tell _) fun _ => .pure _
        | some registered => exact runHandlers_finishes _ x registered p
      exact dispatched.bind fun _ => .pure _
  | command c =>
      show (dispatchCommand handlers x c p).Finishes
      unfold dispatchCommand
      cases handlers.commandHandler? c.type with
      | none => exact .bind (.tell _) fun _ => .pure _
      | some h =>
          exact .bind (.tell _) fun _ => .bind (h.invoke_finishes _ x) fun invocation =>
            p.settleCommand_finishes c h.name invocation

end SyncBus

/-- A cohort comes to its end with a budget that is large enough. -/
theorem Cohort.exists_run_ends (handlers : List (Handler σ ω)) (m : Message) (x : Extra)
    (w : World σ ω) :
    ∃ budget, (run budget handlers m x ⟨w, Locks.free⟩).outcome ≠ .unfinished := by
  have passed : Passes handlers m x w [] ⟨[], _, ⟨w, Locks.free⟩⟩ := .start
  obtain ⟨budget, ended⟩ := passed.exists_rounds
  exact ⟨budget, (onCrash_ne_unfinished_iff _ _ _).mpr ended⟩

namespace AsyncBus

theorem settleAll_finishes (m : Message) (entries : List (Handler σ ω × Invocation))
    (p : Progress) : (settleAll m entries p : Action S Progress).Finishes :=
  fun s => ((settleAll_returns_iff m entries p _ s s).mpr ⟨rfl, rfl⟩).ne_unfinished

theorem deliverEvent_ends {handlers : Handlers σ ω} {budget : Nat} {x : Extra} {e : Event}
    {s : SharedWorld σ ω} (p : Progress)
    (ended : (Cohort.run budget (handlers.registered (.event e)) (.event e) x s).outcome ≠
      .unfinished) : (deliverEvent handlers budget x e p s).outcome ≠ .unfinished := by
  unfold deliverEvent
  rw [Registry.registered] at ended
  cases foundEq : handlers.eventHandlers? e.type with
  | none => exact Finishes.bind (.tell _) (fun _ => .pure _) s
  | some registered =>
      rw [foundEq, Option.getD_some] at ended
      apply bind_ne_unfinished (Finishes.tell _ s)
      intro _ s' told
      obtain rfl := (returns_tell_iff _ _ _ _).mp told
      exact bind_ne_unfinished ended fun _ s _ => settleAll_finishes _ _ p s

theorem dispatchCommand_ends {handlers : Handlers σ ω} {budget : Nat} {x : Extra} {c : Command}
    {s : SharedWorld σ ω} (p : Progress)
    (ended : (Cohort.run budget (handlers.registered (.command c)) (.command c) x s).outcome ≠
      .unfinished) : (dispatchCommand handlers budget x c p s).outcome ≠ .unfinished := by
  unfold dispatchCommand
  rw [Registry.registered] at ended
  cases foundEq : handlers.commandHandler? c.type with
  | none => exact Finishes.bind (.tell _) (fun _ => .pure _) s
  | some h =>
      rw [foundEq, Option.toList_some] at ended
      apply bind_ne_unfinished (Finishes.tell _ s)
      intro _ s' told
      obtain rfl := (returns_tell_iff _ _ _ _).mp told
      apply bind_ne_unfinished ended
      rintro (_ | ⟨invocation, _⟩) s _
      · exact Finishes.pure _ s
      · exact p.settleCommand_finishes c h.name invocation s

/-- On the suspending bus they do so with a budget that is large enough. -/
theorem exists_dispatch_ends (handlers : Handlers σ ω) (x : Extra) (m : Message)
    (p : Progress) (w : World σ ω) :
    ∃ budget, (dispatch handlers budget x m p ⟨w, Locks.free⟩).outcome ≠ .unfinished := by
  obtain ⟨budget, ended⟩ := Cohort.exists_run_ends (handlers.registered m) m x w
  use budget
  cases m with
  | event e =>
      have released : (releaseScoped : Action (SharedWorld σ ω) Unit).Finishes :=
        fun s => ((releaseScoped_returns_iff s _ () e).mpr rfl).ne_unfinished
      have dispatched : (dispatchEvent handlers budget x e p ⟨w, Locks.free⟩).outcome ≠
          .unfinished :=
        bind_ne_unfinished (deliverEvent_ends p ended) fun _ s _ =>
          released.bind (fun _ => .pure _) s
      exact bind_ne_unfinished dispatched fun _ s _ => Finishes.pure _ s
  | command c => exact dispatchCommand_ends p ended

theorem dispatch_leavesFree (handlers : Handlers σ ω) (budget : Nat) (x : Extra) (m : Message)
    (p : Progress) : (dispatch handlers budget x m p).LeavesFree := by
  intro w r s' returned
  obtain ⟨invocations, middle, ran, rfl, _⟩ :=
    (dispatch_returns_iff handlers budget x m p _ s' r).mp returned
  have locksEq := Cohort.locks_of_run_returns ran
  exact locksEq

theorem handle_leavesFree (handlers : Handlers σ ω) (budget : Nat) (m : Message) (x : Extra) :
    (handle handlers budget m x).LeavesFree :=
  (leavesFree_tell _).bind fun _ =>
    drain_leavesFree (dispatch_leavesFree handlers budget x) budget _

end AsyncBus

/-! ## Both kinds of bus -/

namespace BusKind

/-- Handle one message. -/
def dispatch (kind : BusKind) (handlers : Handlers σ ω) (budget : Nat) (x : Extra) (m : Message)
    (p : Progress) : Action (World σ ω) (Except DispatchError Progress) :=
  match kind with
  | blocking => SyncBus.dispatch handlers x m p
  | suspending => (AsyncBus.dispatch handlers budget x m p).unlocked

/-- Handle a message together with everything that its handlers emit. -/
def handle (kind : BusKind) (handlers : Handlers σ ω) (budget : Nat) (m : Message) (x : Extra) :
    Action (World σ ω) CallResult :=
  match kind with
  | blocking => SyncBus.handle handlers budget m x
  | suspending => (AsyncBus.handle handlers budget m x).unlocked

/-- Handle messages one after the other, each with all that follows from it. -/
def handleBatch (kind : BusKind) (handlers : Handlers σ ω) (budget : Nat) (ms : List Message)
    (x : Extra) : Action (World σ ω) CallResult :=
  match kind with
  | blocking => SyncBus.handleBatch handlers budget ms x
  | suspending => (AsyncBus.handleBatch handlers budget ms x).unlocked

variable (kind : BusKind) (handlers : Handlers σ ω)

/-- A call is a loop over single messages. -/
theorem handle_eq (budget : Nat) (m : Message) (x : Extra) :
    kind.handle handlers budget m x =
      (do
        Action.tell [.opened "handle" [("message", m.name), ("extra", toString x.size)]]
        Progress.drain (kind.dispatch handlers budget x) budget ⟨[m], []⟩) := by
  cases kind with
  | blocking => rfl
  | suspending =>
      show (AsyncBus.handle handlers budget m x).unlocked = _
      rw [AsyncBus.handle, (leavesFree_tell _).unlocked_bind,
        unlocked_drain (AsyncBus.dispatch_leavesFree handlers budget x)]
      rfl

/-- A batch is a loop over calls. -/
theorem handleBatch_eq (budget : Nat) (ms : List Message) (x : Extra) :
    kind.handleBatch handlers budget ms x =
      Progress.batch (fun m => kind.handle handlers budget m x) ms := by
  cases kind with
  | blocking => rfl
  | suspending => exact unlocked_batch (fun m => AsyncBus.handle_leavesFree handlers budget m x) ms

theorem dispatch_approximates {budget larger : Nat} (le : budget ≤ larger) (x : Extra)
    (m : Message) (p : Progress) :
    (kind.dispatch handlers budget x m p).Approximates (kind.dispatch handlers larger x m p) := by
  cases kind with
  | blocking => exact .refl _
  | suspending => exact (AsyncBus.dispatch_approximates handlers le x m p).within _ _

theorem handle_approximates {budget larger : Nat} (le : budget ≤ larger) (m : Message)
    (x : Extra) :
    (kind.handle handlers budget m x).Approximates (kind.handle handlers larger m x) := by
  rw [handle_eq, handle_eq]
  exact (Approximates.refl _).bind fun _ =>
    drain_approximates (kind.dispatch_approximates handlers le x) le _

theorem handleBatch_approximates {budget larger : Nat} (le : budget ≤ larger) (ms : List Message)
    (x : Extra) :
    (kind.handleBatch handlers budget ms x).Approximates
      (kind.handleBatch handlers larger ms x) := by
  rw [handleBatch_eq, handleBatch_eq]
  exact batch_approximates (fun m => kind.handle_approximates handlers le m x) ms

/-- A single message is handled with a budget that is large enough. -/
theorem exists_dispatch_ends (x : Extra) (m : Message) (p : Progress) (w : World σ ω) :
    ∃ budget, (kind.dispatch handlers budget x m p w).outcome ≠ .unfinished := by
  cases kind with
  | blocking => exact ⟨0, SyncBus.dispatch_finishes handlers x m p w⟩
  | suspending => exact AsyncBus.exists_dispatch_ends handlers x m p w

/-- What becomes of a message is what its handlers make of it. -/
theorem exists_dispatch_returns_iff (x : Extra) (m : Message) (p : Progress) (w w' : World σ ω)
    (r : Except DispatchError Progress) :
    (∃ budget, (kind.dispatch handlers budget x m p).Returns w r w') ↔
      ∃ invocations, kind.Serves handlers x m w invocations w' ∧
        Turn.settle ⟨m, invocations⟩ p = r := by
  cases kind with
  | blocking =>
      have turned := SyncBus.dispatch_returns_iff handlers x m p w w' r
      exact ⟨fun ⟨_, returned⟩ => turned.mp returned, fun served => ⟨0, turned.mpr served⟩⟩
  | suspending =>
      have turned := AsyncBus.handles_iff_convenes handlers x m p w ⟨w', Locks.free⟩ r
      have unlocked := fun budget =>
        (AsyncBus.dispatch_leavesFree handlers budget x m p).returns_unlocked_iff w w' r
      simp only [dispatch, unlocked, turned]
      constructor
      · rintro ⟨_, ⟨⟩, served⟩
        exact served
      · intro served
        exact ⟨w', rfl, served⟩

variable {kind handlers}

/-- A message that is not cut off is handled as its handlers would have it in the end. -/
theorem Serves.dispatch_returns {x : Extra} {m : Message} {p : Progress} {w w' : World σ ω}
    {invocations : List (String × Invocation)} {budget : Nat}
    (served : kind.Serves handlers x m w invocations w')
    (ended : (kind.dispatch handlers budget x m p w).outcome ≠ .unfinished) :
    (kind.dispatch handlers budget x m p).Returns w (Turn.settle ⟨m, invocations⟩ p) w' := by
  obtain ⟨enough, returned⟩ :=
    (kind.exists_dispatch_returns_iff handlers x m p w w' _).mpr ⟨invocations, served, rfl⟩
  have same := kind.dispatch_approximates handlers (Nat.le_max_left budget enough) x m p w ended
  have returned := (kind.dispatch_approximates handlers (Nat.le_max_right budget enough) x m
    p).returns returned
  rw [Returns, ← same]
  exact returned

end BusKind

end Courier
