import Courier.Bus.Async
import Courier.Bus.Sync
import Courier.Proofs.Handler.Diary
import Courier.Proofs.Tracking

/-!
# Calls on recorded handlers

A call on a bus whose handlers are recorded goes on as the call on the handlers does.  On the
blocking bus it does so if this holds of every single invocation, and on the suspending bus if it
holds of every cohort and of the release behind an event.
-/

namespace Courier

open Courier.Action

variable {σ ω S T : Type} {kept broken : S → T → Prop}

namespace Progress

variable (p : Progress) (m : Message) (handler : String) (invocation : Invocation)

theorem succeed_tracks (output : Value) (emitted : List Message) :
    Tracks kept broken Eq (p.succeed m handler output emitted)
      (p.succeed m handler output emitted) := by
  unfold succeed enqueue
  by_cases nothing : emitted.isEmpty
  · simp only [nothing, if_true]
    exact Tracks.bind (.pure rfl) fun q _ same => .pure (same ▸ rfl)
  · simp only [nothing]
    exact Tracks.bind (.tell_bind _ _ (.pure rfl)) fun q _ same => .pure (same ▸ rfl)

theorem settleEvent_tracks :
    Tracks kept broken Eq (p.settleEvent m handler invocation)
      (p.settleEvent m handler invocation) := by
  unfold settleEvent
  cases invocation.result with
  | ok output => exact p.succeed_tracks m handler output invocation.emitted
  | error e =>
      by_cases nothing : invocation.emitted.isEmpty
      · simp only [nothing]
        exact .tell_bind _ _ (.pure rfl)
      · simp only [nothing]
        exact .tell_bind _ _ (.tell_bind _ _ (.pure rfl))

theorem settleCommand_tracks :
    Tracks kept broken Eq (p.settleCommand m handler invocation)
      (p.settleCommand m handler invocation) := by
  unfold settleCommand
  cases invocation.result with
  | ok output =>
      apply (p.succeed_tracks m handler output invocation.emitted).bind
      rintro q _ rfl
      exact .pure rfl
  | error e => exact .tell_bind _ _ (.pure rfl)

/-- A loop over messages goes on as another does if each message is handled alike. -/
theorem drain_tracks
    {dispatch : Message → Progress → Action S (Except DispatchError Progress)}
    {dispatch' : Message → Progress → Action T (Except DispatchError Progress)}
    (dispatched : ∀ m p, Tracks kept broken Eq (dispatch m p) (dispatch' m p)) (budget : Nat)
    (p : Progress) :
    Tracks kept broken Eq (drain dispatch budget p) (drain dispatch' budget p) := by
  induction budget generalizing p with
  | zero =>
      unfold drain
      by_cases empty : p.queue.isEmpty
      · rw [if_pos empty, if_pos empty]
        exact .pure rfl
      · rw [if_neg empty, if_neg empty]
        exact .cutOff
  | succ budget ih =>
      unfold drain
      cases p.queue with
      | nil => exact .pure rfl
      | cons m rest =>
          apply (dispatched m { p with queue := rest }).bind
          rintro r _ rfl
          cases r with
          | error e => exact .pure rfl
          | ok q => exact ih q

theorem batch_tracks {handle : Message → Action S CallResult}
    {handle' : Message → Action T CallResult}
    (handled : ∀ m, Tracks kept broken Eq (handle m) (handle' m)) (ms : List Message) :
    Tracks kept broken Eq (batch handle ms) (batch handle' ms) := by
  induction ms with
  | nil => exact .pure rfl
  | cons m rest ih =>
      apply (handled m).bind
      rintro r _ rfl
      cases r with
      | error e => exact .pure rfl
      | ok results =>
          apply ih.bind
          rintro r _ rfl
          cases r <;> exact .pure rfl

end Progress

/-! ## The blocking bus -/

namespace SyncBus

variable {kept broken : World (Diary σ) ω → World σ ω → Prop}
  (invoked : ∀ (h : Handler σ ω) (m : Message) (x : Extra),
    Tracks kept broken Eq (h.recorded.invoke m x) (h.invoke m x))

include invoked

theorem runHandlers_tracks (m : Message) (x : Extra) (handlers : List (Handler σ ω))
    (p : Progress) :
    Tracks kept broken Eq (runHandlers m x (handlers.map Handler.recorded) p)
      (runHandlers m x handlers p) := by
  induction handlers generalizing p with
  | nil => exact .pure rfl
  | cons h rest ih =>
      apply Tracks.tell_bind
      apply (invoked h m x).bind
      rintro invocation _ rfl
      apply (p.settleEvent_tracks m h.name invocation).bind
      rintro q _ rfl
      exact ih q

theorem dispatchEvent_tracks (handlers : Handlers σ ω) (x : Extra) (e : Event) (p : Progress) :
    Tracks kept broken Eq (dispatchEvent handlers.recorded x e p)
      (dispatchEvent handlers x e p) := by
  unfold dispatchEvent
  rw [handlers.eventHandlers?_recorded]
  cases handlers.eventHandlers? e.type with
  | none => exact .tell_bind _ _ (.pure rfl)
  | some registered => exact runHandlers_tracks invoked (.event e) x registered p

theorem dispatchCommand_tracks (handlers : Handlers σ ω) (x : Extra) (c : Command)
    (p : Progress) :
    Tracks kept broken Eq (dispatchCommand handlers.recorded x c p)
      (dispatchCommand handlers x c p) := by
  unfold dispatchCommand
  rw [handlers.commandHandler?_recorded]
  cases handlers.commandHandler? c.type with
  | none => exact .tell_bind _ _ (.pure rfl)
  | some h =>
      apply Tracks.tell_bind
      apply (invoked h (.command c) x).bind
      rintro invocation _ rfl
      exact p.settleCommand_tracks (.command c) h.name invocation

theorem dispatch_tracks (handlers : Handlers σ ω) (x : Extra) (m : Message) (p : Progress) :
    Tracks kept broken Eq (dispatch handlers.recorded x m p) (dispatch handlers x m p) := by
  cases m with
  | event e =>
      apply (dispatchEvent_tracks invoked handlers x e p).bind
      rintro q _ rfl
      exact .pure rfl
  | command c => exact dispatchCommand_tracks invoked handlers x c p

theorem handle_tracks (handlers : Handlers σ ω) (budget : Nat) (m : Message) (x : Extra) :
    Tracks kept broken Eq (handle handlers.recorded budget m x) (handle handlers budget m x) :=
  .tell_bind _ _ (Progress.drain_tracks (dispatch_tracks invoked handlers x) budget _)

theorem handleBatch_tracks (handlers : Handlers σ ω) (budget : Nat) (ms : List Message)
    (x : Extra) :
    Tracks kept broken Eq (handleBatch handlers.recorded budget ms x)
      (handleBatch handlers budget ms x) :=
  Progress.batch_tracks (fun m => handle_tracks invoked handlers budget m x) ms

theorem handleStep_tracks (handlers : Handlers σ ω) (m : Message) (x : Extra) :
    Tracks kept broken Eq (handleStep handlers.recorded m x) (handleStep handlers m x) := by
  apply Tracks.tell_bind
  apply (dispatch_tracks invoked handlers x m ⟨[], []⟩).bind
  rintro r _ rfl
  cases r <;> exact .pure rfl

end SyncBus

/-! ## The suspending bus -/

namespace AsyncBus

theorem settleAll_tracks (m : Message) (handlers : List (Handler σ ω))
    (invocations : List Invocation) (p : Progress) :
    Tracks kept broken Eq (settleAll m ((handlers.map Handler.recorded).zip invocations) p)
      (settleAll m (handlers.zip invocations) p) := by
  induction handlers generalizing invocations p with
  | nil => exact .pure rfl
  | cons h rest ih =>
      cases invocations with
      | nil => exact .pure rfl
      | cons invocation others =>
          apply (p.settleEvent_tracks m h.name invocation).bind
          rintro q _ rfl
          exact ih others q

variable {kept broken : SharedWorld (Diary σ) ω → SharedWorld σ ω → Prop}
  (ran : ∀ (budget : Nat) (handlers : List (Handler σ ω)) (m : Message) (x : Extra),
    Tracks kept broken Eq (Cohort.run budget (handlers.map Handler.recorded) m x)
      (Cohort.run budget handlers m x))
  (released : Tracks kept broken Eq releaseScoped releaseScoped)

include ran

theorem deliverEvent_tracks (handlers : Handlers σ ω) (budget : Nat) (x : Extra) (e : Event)
    (p : Progress) :
    Tracks kept broken Eq (deliverEvent handlers.recorded budget x e p)
      (deliverEvent handlers budget x e p) := by
  unfold deliverEvent
  rw [handlers.eventHandlers?_recorded]
  cases handlers.eventHandlers? e.type with
  | none => exact .tell_bind _ _ (.pure rfl)
  | some registered =>
      apply Tracks.tell_bind
      apply (ran budget registered (.event e) x).bind
      rintro invocations _ rfl
      exact settleAll_tracks (.event e) registered invocations p

theorem dispatchCommand_tracks (handlers : Handlers σ ω) (budget : Nat) (x : Extra) (c : Command)
    (p : Progress) :
    Tracks kept broken Eq (dispatchCommand handlers.recorded budget x c p)
      (dispatchCommand handlers budget x c p) := by
  unfold dispatchCommand
  rw [handlers.commandHandler?_recorded]
  cases handlers.commandHandler? c.type with
  | none => exact .tell_bind _ _ (.pure rfl)
  | some h =>
      apply Tracks.tell_bind
      apply (ran budget [h] (.command c) x).bind
      rintro invocations _ rfl
      cases invocations with
      | nil => exact .pure rfl
      | cons invocation others => exact p.settleCommand_tracks (.command c) h.name invocation

include released

theorem dispatch_tracks (handlers : Handlers σ ω) (budget : Nat) (x : Extra) (m : Message)
    (p : Progress) :
    Tracks kept broken Eq (dispatch handlers.recorded budget x m p)
      (dispatch handlers budget x m p) := by
  cases m with
  | event e =>
      have dispatched : Tracks kept broken Eq (dispatchEvent handlers.recorded budget x e p)
          (dispatchEvent handlers budget x e p) := by
        apply (deliverEvent_tracks ran handlers budget x e p).bind
        rintro q _ rfl
        exact released.bind fun _ _ _ => .pure rfl
      apply dispatched.bind
      rintro q _ rfl
      exact .pure rfl
  | command c => exact dispatchCommand_tracks ran handlers budget x c p

theorem handle_tracks (handlers : Handlers σ ω) (budget : Nat) (m : Message) (x : Extra) :
    Tracks kept broken Eq (handle handlers.recorded budget m x) (handle handlers budget m x) :=
  .tell_bind _ _ (Progress.drain_tracks (dispatch_tracks ran released handlers budget x) budget _)

theorem handleBatch_tracks (handlers : Handlers σ ω) (budget : Nat) (ms : List Message)
    (x : Extra) :
    Tracks kept broken Eq (handleBatch handlers.recorded budget ms x)
      (handleBatch handlers budget ms x) :=
  Progress.batch_tracks (fun m => handle_tracks ran released handlers budget m x) ms

end AsyncBus

end Courier
