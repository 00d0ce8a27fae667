import Courier.Proofs.Bus.Discipline
import Courier.Proofs.Bus.Unlocked

/-!
# What calls keep up

A property of worlds that every invocation keeps up is kept up by calls, however they end: in the
states that a call leaves when it returns, crashes or is cut off, and in those on which a message
comes to its turn.  On the suspending bus it is cohorts that have to keep it up, and the release
behind an event.  Between calls anything may be changed of the context and of what lies outside,
but the instances are in nobody's reach.

The main statements are `BusKind.Upholds.handle`, `BusKind.Upholds.turn` and
`Episode.afterAll_upholds`.
-/

namespace Courier

open Courier.Action Courier.Progress

variable {σ ω S α β : Type}

/-! ## Actions -/

namespace Action

variable {P Q : S → Prop}

/-- From a state with the first property the action gets to one with the second, however it
ends. -/
def Leads (P Q : S → Prop) (action : Action S α) : Prop :=
  ∀ s, P s → Q (action s).state

theorem leads_pure (a : α) : (pure a : Action S α).Leads P P :=
  fun _ holds => holds

theorem leads_tell (lines : List LogLine) : (tell lines).Leads P P :=
  fun _ holds => holds

theorem leads_cutOff : (cutOff : Action S α).Leads P P :=
  fun _ holds => holds

/-- An action that returns and leaves the state as it is. -/
theorem leads_of_returns {action : Action S α} (returns : ∀ s, ∃ a, action.Returns s a s) :
    action.Leads P P := by
  intro s holds
  obtain ⟨a, _, stateEq⟩ := returns s
  rw [stateEq]
  exact holds

theorem Leads.bind {action : Action S α} {next : α → Action S β} (first : action.Leads P Q)
    (second : ∀ a, (next a).Leads Q Q) : (action >>= next).Leads P Q := by
  intro s holds
  have reached := first s holds
  show Q (action.bind next s).state
  rw [Action.bind]
  revert reached
  rcases action s with ⟨outcome, state, log⟩
  intro reached
  cases outcome with
  | returned a => exact second a state reached
  | crashed text => exact reached
  | unfinished => exact reached

/-- On the way to its value an action has kept up the property as well. -/
theorem Leads.returned {action : Action S α} (leads : action.Leads P Q) {s s' : S} {a : α}
    (returned : action.Returns s a s') (holds : P s) : Q s' :=
  returned.2 ▸ leads s holds

end Action

namespace Progress

variable {P : S → Prop}

theorem settleEvent_leads (p : Progress) (m : Message) (handler : String)
    (invocation : Invocation) : (p.settleEvent m handler invocation : Action S _).Leads P P :=
  leads_of_returns fun s =>
    ⟨_, (settleEvent_returns_iff p _ m handler invocation s s).mpr ⟨rfl, rfl⟩⟩

theorem settleCommand_leads (p : Progress) (c : Command) (handler : String)
    (invocation : Invocation) :
    (p.settleCommand (.command c) handler invocation : Action S _).Leads P P :=
  leads_of_returns fun s =>
    ⟨_, (settleCommand_returns_iff p c handler invocation s s _).mpr ⟨rfl, rfl⟩⟩

theorem drain_leads {dispatch : Message → Progress → Action S (Except DispatchError Progress)}
    (dispatched : ∀ m p, (dispatch m p).Leads P P) (budget : Nat) (p : Progress) :
    (drain dispatch budget p).Leads P P := by
  induction budget generalizing p with
  | zero =>
      unfold drain
      split
      · exact leads_pure _
      · exact leads_cutOff
  | succ budget ih =>
      unfold drain
      cases p.queue with
      | nil => exact leads_pure _
      | cons m rest =>
          apply (dispatched m _).bind
          rintro (e | next)
          · exact leads_pure _
          · exact ih next

theorem batch_leads {handle : Message → Action S CallResult}
    (handled : ∀ m, (handle m).Leads P P) (ms : List Message) : (batch handle ms).Leads P P := by
  induction ms with
  | nil => exact leads_pure _
  | cons m rest ih =>
      apply (handled m).bind
      rintro (e | results)
      · exact leads_pure _
      · apply ih.bind
        rintro (e | more) <;> exact leads_pure _

end Progress

/-! ## The blocking bus -/

namespace SyncBus

variable {P : World σ ω → Prop} {x : Extra}

theorem runHandlers_leads {m : Message} {handlers : List (Handler σ ω)}
    (invoked : ∀ h ∈ handlers, (h.invoke m x).Leads P P) (p : Progress) :
    (runHandlers m x handlers p).Leads P P := by
  induction handlers generalizing p with
  | nil => exact leads_pure _
  | cons h rest ih =>
      rw [List.forall_mem_cons] at invoked
      exact (leads_tell _).bind fun _ => invoked.1.bind fun invocation =>
        (p.settleEvent_leads m h.name invocation).bind (ih invoked.2)

theorem dispatch_leads {handlers : Handlers σ ω}
    (invoked : ∀ m, ∀ h ∈ handlers.registered m, (h.invoke m x).Leads P P) (m : Message)
    (p : Progress) : (dispatch handlers x m p).Leads P P := by
  cases m with
  | event e =>
      have invoked := invoked (.event e)
      have dispatched : (dispatchEvent handlers x e p).Leads P P := by
        unfold dispatchEvent
        rw [Registry.registered] at invoked
        cases foundEq : handlers.eventHandlers? e.type with
        | none => exact (leads_tell _).bind fun _ => leads_pure _
        | some registered =>
            rw [foundEq, Option.getD_some] at invoked
            exact runHandlers_leads invoked p
      exact dispatched.bind fun _ => leads_pure _
  | command c =>
      have invoked := invoked (.command c)
      show (dispatchCommand handlers x c p).Leads P P
      unfold dispatchCommand
      rw [Registry.registered] at invoked
      cases foundEq : handlers.commandHandler? c.type with
      | none => exact (leads_tell _).bind fun _ => leads_pure _
      | some h =>
          rw [foundEq, Option.toList_some, List.forall_mem_singleton] at invoked
          exact (leads_tell _).bind fun _ => invoked.bind fun invocation =>
            p.settleCommand_leads c h.name invocation

/-- Handling one message only leaves what its turn leaves. -/
theorem state_handleStep (handlers : Handlers σ ω) (m : Message) (x : Extra) (w : World σ ω) :
    (handleStep handlers m x w).state = (dispatch handlers x m ⟨[], []⟩ w).state := by
  show ((dispatch handlers x m ⟨[], []⟩).bind _ w).state = _
  rw [Action.bind]
  rcases dispatch handlers x m ⟨[], []⟩ w with ⟨outcome, state, log⟩
  rcases outcome with ((e | p) | _ | _) <;> rfl

end SyncBus

/-! ## The suspending bus -/

namespace AsyncBus

variable {P : World σ ω → Prop} {x : Extra} {budget : Nat}

theorem settleAll_leads {P : S → Prop} (m : Message) (entries : List (Handler σ ω × Invocation))
    (p : Progress) : (settleAll m entries p : Action S _).Leads P P :=
  leads_of_returns fun s => ⟨_, (settleAll_returns_iff m entries p _ s s).mpr ⟨rfl, rfl⟩⟩

/-- No instance is locked, and the world has the property. -/
def Unlocked (P : World σ ω → Prop) (s : SharedWorld σ ω) : Prop :=
  s.locks = Locks.free ∧ P s.world

variable {handlers : Handlers σ ω}
  (ran : ∀ m, (Cohort.run budget (handlers.registered m) m x).Leads (Unlocked P) (P ·.world))
  (released : ∀ w e, P w → P (w.afterTurn (.event e)))

include ran released

theorem dispatch_leads (m : Message) (p : Progress) :
    (dispatch handlers budget x m p).Leads (Unlocked P) (P ·.world) := by
  cases m with
  | event e =>
      have ran := ran (.event e)
      have delivered : (deliverEvent handlers budget x e p).Leads (Unlocked P) (P ·.world) := by
        unfold deliverEvent
        rw [Registry.registered] at ran
        cases foundEq : handlers.eventHandlers? e.type with
        | none => exact fun s holds => holds.2
        | some registered =>
            rw [foundEq, Option.getD_some] at ran
            intro s holds
            exact (ran.bind fun _ => settleAll_leads _ _ p) s holds
      have releases : (releaseScoped : Action (SharedWorld σ ω) Unit).Leads (P ·.world)
          (P ·.world) := by
        intro s holds
        obtain ⟨_, stateEq⟩ := (releaseScoped_returns_iff s _ () e).mpr rfl
        rw [stateEq]
        exact released s.world e holds
      exact (delivered.bind fun _ => releases.bind fun _ => leads_pure _).bind fun _ => leads_pure _
  | command c =>
      have ran := ran (.command c)
      show (dispatchCommand handlers budget x c p).Leads (Unlocked P) (P ·.world)
      unfold dispatchCommand
      rw [Registry.registered] at ran
      cases foundEq : handlers.commandHandler? c.type with
      | none => exact fun s holds => holds.2
      | some h =>
          rw [foundEq, Option.toList_some] at ran
          intro s holds
          refine (ran.bind ?_) s holds
          rintro (_ | ⟨invocation, _⟩)
          · exact leads_pure _
          · exact p.settleCommand_leads c h.name invocation

end AsyncBus

/-! ## Both kinds of bus -/

namespace BusKind

/-- Whatever the handlers make of a message, they keep up the property. -/
def Upholds (kind : BusKind) (P : World σ ω → Prop) (handlers : Handlers σ ω) (x : Extra) : Prop :=
  ∀ budget m p, (kind.dispatch handlers budget x m p).Leads P P

/-- In the course of a call on `w` a message comes to its turn on `u`. -/
def TurnBegins (kind : BusKind) (handlers : Handlers σ ω) (m : Message) (x : Extra)
    (w : World σ ω) (reached : Message) (u : World σ ω) : Prop :=
  ∃ turns behind, Takes (kind.Serves handlers x) [m] w turns (reached :: behind) u

/-- In the course of a batch of calls on `w` a message comes to its turn on `u`: the calls before
have come to their results. -/
def BatchTurnBegins (kind : BusKind) (handlers : Handlers σ ω) (budget : Nat) (ms : List Message)
    (x : Extra) (w : World σ ω) (reached : Message) (u : World σ ω) : Prop :=
  ∃ earlier m later results v, ms = earlier ++ m :: later ∧
    (kind.handleBatch handlers budget earlier x).Returns w (.ok results) v ∧
    kind.TurnBegins handlers m x v reached u

variable {kind : BusKind} {P : World σ ω → Prop} {handlers : Handlers σ ω} {x : Extra}

theorem upholds_blocking
    (invoked : ∀ m, ∀ h ∈ handlers.registered m, (h.invoke m x).Leads P P) :
    blocking.Upholds P handlers x :=
  fun _ => SyncBus.dispatch_leads invoked

theorem upholds_suspending
    (ran : ∀ budget m w, P w →
      P (Cohort.run budget (handlers.registered m) m x ⟨w, Locks.free⟩).state.world)
    (released : ∀ w e, P w → P (w.afterTurn (.event e))) :
    suspending.Upholds P handlers x := by
  intro budget m p w holds
  have ranLeads : ∀ m, (Cohort.run budget (handlers.registered m) m x).Leads
      (AsyncBus.Unlocked P) (P ·.world) := by
    rintro m ⟨w, _⟩ ⟨rfl, holds⟩
    exact ran budget m w holds
  exact AsyncBus.dispatch_leads ranLeads released m p ⟨w, Locks.free⟩ ⟨rfl, holds⟩

namespace Upholds

variable (upholds : kind.Upholds P handlers x)

include upholds

theorem handle (budget : Nat) (m : Message) : (kind.handle handlers budget m x).Leads P P := by
  rw [handle_eq]
  exact (leads_tell _).bind fun _ => drain_leads (upholds budget) budget _

theorem handleBatch (budget : Nat) (ms : List Message) :
    (kind.handleBatch handlers budget ms x).Leads P P := by
  rw [handleBatch_eq]
  exact batch_leads (upholds.handle budget) ms

theorem serves {m : Message} {w w' : World σ ω} {invocations : List (String × Invocation)}
    (served : kind.Serves handlers x m w invocations w') (holds : P w) : P w' := by
  obtain ⟨budget, returned⟩ :=
    (kind.exists_dispatch_returns_iff handlers x m ⟨[], []⟩ w w' _).mpr ⟨invocations, served, rfl⟩
  exact (upholds budget m _).returned returned holds

theorem takes {queue left : List Message} {turns : List Turn} {w w' : World σ ω}
    (takes : Takes (kind.Serves handlers x) queue w turns left w') (holds : P w) : P w' := by
  induction takes with
  | nothing => exact holds
  | turn served _ _ ih => exact ih (upholds.serves served holds)

/-- A message comes to its turn on a world with the property. -/
theorem turn {m reached : Message} {w u : World σ ω}
    (begins : kind.TurnBegins handlers m x w reached u) (holds : P w) : P u := by
  obtain ⟨turns, behind, takes⟩ := begins
  exact upholds.takes takes holds

theorem batchTurn {budget : Nat} {ms : List Message} {reached : Message} {w u : World σ ω}
    (begins : kind.BatchTurnBegins handlers budget ms x w reached u) (holds : P w) : P u := by
  obtain ⟨earlier, m, later, results, v, _, returned, begins⟩ := begins
  exact upholds.turn begins ((upholds.handleBatch budget earlier).returned returned holds)

end Upholds

end BusKind

/-! ## Requests -/

namespace SyncBus.Request

/-- The handlers that a request is made to. -/
def handlers : Request σ ω → Handlers σ ω
  | message handlers _ _ _ => handlers
  | batch handlers _ _ _ => handlers
  | step handlers _ _ => handlers

/-- The data that come with a request. -/
def extra : Request σ ω → Extra
  | message _ _ _ x => x
  | batch _ _ _ x => x
  | step _ _ x => x

/-- The world that a request leaves, however its call ends. -/
def after (r : Request σ ω) (w : World σ ω) : World σ ω :=
  (r.serve w).state

/-- In the course of a request on `w` a message comes to its turn on `u`. -/
def TurnBegins (r : Request σ ω) (w : World σ ω) (reached : Message) (u : World σ ω) : Prop :=
  match r with
  | message handlers _ m x => BusKind.blocking.TurnBegins handlers m x w reached u
  | batch handlers budget ms x => BusKind.blocking.BatchTurnBegins handlers budget ms x w reached u
  | step _ m _ => reached = m ∧ u = w

/-- In the course of a request on `w` a handler is invoked with `m` on `v`: the message has come to
its turn, and the handlers before this one have returned. -/
def Invokes (r : Request σ ω) (w : World σ ω) (h : Handler σ ω) (m : Message) (v : World σ ω) :
    Prop :=
  ∃ u front back invocations, r.TurnBegins w m u ∧
    r.handlers.registered m = front ++ h :: back ∧ Handler.InTurn r.extra m front u invocations v

theorem Invokes.registered {r : Request σ ω} {w v : World σ ω} {h : Handler σ ω} {m : Message}
    (invokes : r.Invokes w h m v) : h ∈ r.handlers.registered m := by
  obtain ⟨_, front, back, _, _, registeredEq, _⟩ := invokes
  rw [registeredEq]
  exact List.mem_append_right front List.mem_cons_self

variable {P : World σ ω → Prop} {r : Request σ ω}

section

variable (invoked : ∀ m, ∀ h ∈ r.handlers.registered m, (h.invoke m r.extra).Leads P P)

include invoked

theorem after_upholds {w : World σ ω} (holds : P w) : P (r.after w) := by
  cases r with
  | message handlers budget m x =>
      have upholds := BusKind.upholds_blocking invoked
      exact ((upholds.handle budget m).bind fun _ => leads_pure _) w holds
  | batch handlers budget ms x =>
      have upholds := BusKind.upholds_blocking invoked
      exact ((upholds.handleBatch budget ms).bind fun _ => leads_pure _) w holds
  | step handlers m x =>
      have stepped : (handleStep handlers m x).Leads P P := by
        intro w holds
        rw [state_handleStep]
        exact dispatch_leads invoked m _ w holds
      exact (stepped.bind fun _ => leads_pure _) w holds

theorem turn_upholds {w u : World σ ω} {m : Message} (begins : r.TurnBegins w m u) (holds : P w) :
    P u := by
  cases r with
  | message handlers budget m x => exact (BusKind.upholds_blocking invoked).turn begins holds
  | batch handlers budget ms x => exact (BusKind.upholds_blocking invoked).batchTurn begins holds
  | step handlers m x => exact begins.2 ▸ holds

/-- Every invocation finds the property, and keeps it up. -/
theorem Invokes.upheld {w v : World σ ω} {h : Handler σ ω} {m : Message}
    (invokes : r.Invokes w h m v) (holds : P w) : P v ∧ P (h.invoke m r.extra v).state := by
  obtain ⟨u, front, back, invocations, begins, registeredEq, served⟩ := invokes
  have invokedHere := invoked m
  rw [registeredEq] at invokedHere
  have holdsTurn := turn_upholds invoked begins holds
  -- On the handlers that have returned before this one.
  have holdsBefore : P v := by
    clear registeredEq begins
    induction served with
    | nobody => exact holdsTurn
    | next returned _ ih =>
        rw [List.cons_append, List.forall_mem_cons] at invokedHere
        exact ih invokedHere.2 (invokedHere.1.returned returned holdsTurn)
  exact ⟨holdsBefore, invokedHere h (by simp) v holdsBefore⟩

end

end SyncBus.Request

namespace AsyncBus.Request

/-- The handlers that a request is made to. -/
def handlers : Request σ ω → Handlers σ ω
  | message handlers _ _ _ => handlers
  | batch handlers _ _ _ => handlers

/-- The data that come with a request. -/
def extra : Request σ ω → Extra
  | message _ _ _ x => x
  | batch _ _ _ x => x

/-- The world that a request leaves, however its call ends; no instance is locked at first. -/
def after (r : Request σ ω) (w : World σ ω) : World σ ω :=
  (r.serve ⟨w, Locks.free⟩).state.world

/-- In the course of a request on `w` a message comes to its turn on `u`. -/
def TurnBegins (r : Request σ ω) (w : World σ ω) (reached : Message) (u : World σ ω) : Prop :=
  match r with
  | message handlers _ m x => BusKind.suspending.TurnBegins handlers m x w reached u
  | batch handlers budget ms x =>
      BusKind.suspending.BatchTurnBegins handlers budget ms x w reached u

variable {P : World σ ω → Prop} {r : Request σ ω}
  (upholds : BusKind.suspending.Upholds P r.handlers r.extra)

include upholds

theorem after_upholds {w : World σ ω} (holds : P w) : P (r.after w) := by
  cases r with
  | message handlers budget m x => exact upholds.handle budget m w holds
  | batch handlers budget ms x => exact upholds.handleBatch budget ms w holds

theorem turn_upholds {w u : World σ ω} {m : Message} (begins : r.TurnBegins w m u) (holds : P w) :
    P u := by
  cases r with
  | message handlers budget m x => exact upholds.turn begins holds
  | batch handlers budget ms x => exact upholds.batchTurn begins holds

end AsyncBus.Request

/-! ## Histories -/

/-- What happens to a world in which a bus is: a request is made, or somebody changes the context
or what lies outside. -/
inductive Episode (ρ ω : Type) where
  | request (r : ρ)
  | change (context : Context → Context) (outside : ω → ω)

namespace Episode

variable {ρ : Type} (serve : ρ → World σ ω → World σ ω)

/-- The world after an episode. -/
def after (w : World σ ω) : Episode ρ ω → World σ ω
  | request r => serve r w
  | change context outside =>
      { w with context := context w.context, outside := outside w.outside }

/-- The world after episodes that follow each other. -/
def afterAll (history : List (Episode ρ ω)) (w : World σ ω) : World σ ω :=
  history.foldl (after serve) w

variable {serve}

/-- What the requests keep up, and what is not touched by changes, holds after all. -/
theorem afterAll_upholds {P : World σ ω → Prop} {history : List (Episode ρ ω)}
    (served : ∀ r, request r ∈ history → ∀ w, P w → P (serve r w))
    (changed : ∀ w context outside, P w → P { w with context, outside }) {w : World σ ω}
    (holds : P w) : P (afterAll serve history w) := by
  induction history generalizing w with
  | nil => exact holds
  | cons episode rest ih =>
      apply ih fun r mem => served r (List.mem_cons_of_mem _ mem)
      cases episode with
      | request r => exact served r List.mem_cons_self w holds
      | change context outside => exact changed w _ _ holds

end Episode

end Courier
