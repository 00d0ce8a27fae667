import Courier.Proofs.Bus.Async
import Courier.Proofs.Bus.Recorded
import Courier.Proofs.Bus.Sync
import Courier.Proofs.Cohort.Blocks
import Courier.Proofs.Cohort.Chronicle
import Courier.Proofs.Handler.Threads

/-!
# The discipline of lifecycles

What is run on an instance are whole blocks, one after the other, whoever calls and however the
calls end.  A block that is not whole is left behind by a crash alone: on the blocking bus it is
the crash of its own phase, and the hook after the core runs all the same; on the suspending bus
it may be the crash of another member, and no later phase runs.
-/

namespace Courier

open Courier.Action

variable {σ ω S T α : Type}

/-! ## Calls in sequence -/

/-- The marks are those of invocations that have returned, one after the other. -/
def WholeBlocks (marks : List Mark) : Prop :=
  ∃ invocations : List Invocation, Blocks (invocations.map .returned) marks

/-- The same, but for what a crash may have left of the last invocation. -/
def BrokenOff (broken : List Mark → Prop) (marks : List Mark) : Prop :=
  ∃ whole last, marks = whole ++ last ∧ WholeBlocks whole ∧ (last = [] ∨ broken last)

theorem WholeBlocks.brokenOff {broken : List Mark → Prop} {marks : List Mark}
    (whole : WholeBlocks marks) : BrokenOff broken marks :=
  ⟨marks, [], (List.append_nil marks).symm, whole, .inl rfl⟩

theorem WholeBlocks.append {marks more : List Mark} (first : WholeBlocks marks)
    (second : WholeBlocks more) : WholeBlocks (marks ++ more) := by
  rcases first with ⟨invocations, blocks⟩
  rcases second with ⟨others, moreBlocks⟩
  refine ⟨invocations ++ others, ?_⟩
  rw [List.map_append]
  exact blocks.append moreBlocks

theorem WholeBlocks.append_brokenOff {broken : List Mark → Prop} {marks more : List Mark}
    (first : WholeBlocks marks) (second : BrokenOff broken more) :
    BrokenOff broken (marks ++ more) := by
  rcases second with ⟨whole, last, rfl, wholeBlocks, lastCases⟩
  exact ⟨marks ++ whole, last, (List.append_assoc _ _ _).symm, first.append wholeBlocks, lastCases⟩

/-- What a call writes into a diary, by the way it ends. -/
def Contributes (broken : List Mark → Prop) : Outcome α → List Mark → Prop
  | .returned _, marks => WholeBlocks marks
  | .crashed _, marks => BrokenOff broken marks
  | .unfinished, _ => True

/-- Make calls one after the other.  A crash ends the call that it occurs in, and whoever makes the
calls goes on with the next. -/
def Action.inSequence : List (Action S α) → S → List (Outcome α) × S
  | [], s => ([], s)
  | call :: rest, s =>
      let r := call s
      let next := inSequence rest r.state
      (r.outcome :: next.1, next.2)

/-- How calls on recorded handlers are compared with the calls on the handlers: which states are
alike, where the diaries are, and what a crash may leave in them. -/
structure Comparison (S T : Type) where
  alike : S → T → Prop
  marks : S → InstanceId → List Mark
  broken : List Mark → Prop

namespace Comparison

variable (c : Comparison S T)

/-- From states that are alike, the calls end in the same way and leave states that are alike
again; and what the recorded one has written is as it must be. -/
def Holds (recorded : Action S α) (call : Action T α) : Prop :=
  ∀ s t, c.alike s t → (recorded s).outcome = (call t).outcome ∧
    ((call t).outcome ≠ .unfinished → c.alike (recorded s).state (call t).state ∧
      ∀ i, ∃ part, Contributes c.broken (call t).outcome part ∧
        c.marks (recorded s).state i = c.marks s i ++ part)

/-- Since `start` whole blocks have been written. -/
def Grown (start s : S) (t : T) : Prop :=
  c.alike s t ∧ ∀ i, ∃ part, WholeBlocks part ∧ c.marks s i = c.marks start i ++ part

/-- Since `start` whole blocks have been written, and what a crash has left. -/
def Broken (start s : S) (t : T) : Prop :=
  c.alike s t ∧ ∀ i, ∃ part, BrokenOff c.broken part ∧ c.marks s i = c.marks start i ++ part

variable {c}

theorem grown_refl {s : S} {t : T} (alike : c.alike s t) : c.Grown s s t :=
  ⟨alike, fun _ => ⟨[], ⟨[], .nothing⟩, (List.append_nil _).symm⟩⟩

/-- What holds from the start of a call on holds of the call. -/
theorem holds_of_tracks {recorded : Action S α} {call : Action T α}
    (tracks : ∀ start, Tracks (c.Grown start) (c.Broken start) Eq recorded call) :
    c.Holds recorded call := by
  intro s t alike
  have tracked := tracks s (grown_refl alike)
  have outcomeEq := (Outcome.matches_eq_iff _ _).mp tracked.outcome
  refine ⟨outcomeEq, fun ended => ?_⟩
  rw [← outcomeEq] at ended ⊢
  cases ending : (recorded s).outcome with
  | returned a => exact tracked.returned a ending
  | crashed text => exact tracked.crashed text ending
  | unfinished => contradiction

/-- What a single action writes is added to what has been written since the start. -/
theorem tracks_of_holds {recorded : Action S α} {call : Action T α}
    (holds : c.Holds recorded call) (start : S) :
    Tracks (c.Grown start) (c.Broken start) Eq recorded call := by
  rintro s t ⟨alike, grown⟩
  obtain ⟨outcomeEq, after⟩ := holds s t alike
  constructor
  · exact (Outcome.matches_eq_iff _ _).mpr outcomeEq
  · intro a returned
    rw [outcomeEq] at returned
    rw [returned] at after
    obtain ⟨alikeAfter, written⟩ := after (by rintro ⟨⟩)
    refine ⟨alikeAfter, fun i => ?_⟩
    obtain ⟨part, whole, marksEq⟩ := grown i
    obtain ⟨more, wholeMore, moreEq⟩ := written i
    refine ⟨part ++ more, whole.append wholeMore, ?_⟩
    rw [moreEq, marksEq, List.append_assoc]
  · intro text crashed
    rw [outcomeEq] at crashed
    rw [crashed] at after
    obtain ⟨alikeAfter, written⟩ := after (by rintro ⟨⟩)
    refine ⟨alikeAfter, fun i => ?_⟩
    obtain ⟨part, whole, marksEq⟩ := grown i
    obtain ⟨more, brokenMore, moreEq⟩ := written i
    refine ⟨part ++ more, whole.append_brokenOff brokenMore, ?_⟩
    rw [moreEq, marksEq, List.append_assoc]

/-- Calls in sequence, on recorded handlers and on the handlers: each ends in the same way, and
has written its part into every diary. -/
theorem inSequence_of_holds {ρ : Type} {recorded : ρ → Action S α} {call : ρ → Action T α}
    (holds : ∀ request, c.Holds (recorded request) (call request)) (requests : List ρ) {s : S}
    {t : T} (alike : c.alike s t)
    (ended : .unfinished ∉ (inSequence (requests.map call) t).1) :
    (inSequence (requests.map recorded) s).1 = (inSequence (requests.map call) t).1 ∧
      c.alike (inSequence (requests.map recorded) s).2 (inSequence (requests.map call) t).2 ∧
      ∀ i, ∃ parts,
        List.Forall₂ (Contributes c.broken) (inSequence (requests.map call) t).1 parts ∧
          c.marks (inSequence (requests.map recorded) s).2 i = c.marks s i ++ parts.flatten := by
  induction requests generalizing s t with
  | nil => exact ⟨rfl, alike, fun i => ⟨[], .nil, (List.append_nil _).symm⟩⟩
  | cons request rest ih =>
      obtain ⟨outcomeEq, after⟩ := holds request s t alike
      simp only [List.map_cons, inSequence, List.mem_cons, not_or] at ended
      obtain ⟨alikeAfter, written⟩ := after fun unfinished => ended.1 unfinished.symm
      obtain ⟨outcomesEq, alikeEnd, writtenRest⟩ := ih alikeAfter ended.2
      refine ⟨congrArg₂ _ outcomeEq outcomesEq, alikeEnd, fun i => ?_⟩
      obtain ⟨part, contributes, marksEq⟩ := written i
      obtain ⟨parts, contribute, restEq⟩ := writtenRest i
      refine ⟨part :: parts, .cons contributes contribute, ?_⟩
      show c.marks (inSequence (rest.map recorded) (recorded request s).state).2 i = _
      rw [restEq, marksEq, List.flatten_cons, List.append_assoc]

end Comparison

/-! ## The blocking bus -/

namespace SyncBus

/-- What a bus may be called for. -/
inductive Request (σ ω : Type) where
  | message (handlers : Handlers σ ω) (budget : Nat) (m : Message) (x : Extra)
  | batch (handlers : Handlers σ ω) (budget : Nat) (ms : List Message) (x : Extra)
  | step (handlers : Handlers σ ω) (m : Message) (x : Extra)

namespace Request

/-- The call for a request. -/
def serve : Request σ ω → Action (World σ ω) (CallResult ⊕ Except DispatchError Step)
  | message handlers budget m x => do return .inl (← handle handlers budget m x)
  | batch handlers budget ms x => do return .inl (← handleBatch handlers budget ms x)
  | step handlers m x => do return .inr (← handleStep handlers m x)

/-- The same request to a bus whose handlers are recorded. -/
def recorded : Request σ ω → Request (Diary σ) ω
  | message handlers budget m x => message handlers.recorded budget m x
  | batch handlers budget ms x => batch handlers.recorded budget ms x
  | step handlers m x => step handlers.recorded m x

/-- The calls for requests that are made one after the other, and the world that they leave. -/
def serveAll (requests : List (Request σ ω)) (w : World σ ω) :
    List (Outcome (CallResult ⊕ Except DispatchError Step)) × World σ ω :=
  inSequence (requests.map serve) w

end Request

/-- Blocking calls: the worlds are alike without the diaries, and the last block may be that of an
invocation that has crashed. -/
def comparison (σ ω : Type) : Comparison (World (Diary σ) ω) (World σ ω) where
  alike d w := d.current = w
  marks := World.marks
  broken marks := ∃ text, Block (.crashed text) marks

theorem holds_invoke (h : Handler σ ω) (m : Message) (x : Extra) :
    (comparison σ ω).Holds (h.recorded.invoke m x) (h.invoke m x) := by
  rintro d _ rfl
  have alike := h.invokesAlike m x d
  refine ⟨alike.outcome, fun ended => ⟨alike.current, fun i => ?_⟩⟩
  by_cases engaged : h.engages m = some i
  · obtain ⟨marks, block, marksEq⟩ := alike.block i engaged
    refine ⟨marks, ?_, marksEq⟩
    revert block ended
    generalize (h.invoke m x d.current).outcome = outcome
    intro ended block
    cases outcome with
    | returned invocation => exact ⟨[invocation], block.blocks⟩
    | crashed text => exact ⟨[], marks, rfl, ⟨[], .nothing⟩, .inr ⟨text, block⟩⟩
    | unfinished => trivial
  · refine ⟨[], ?_, (alike.apart i engaged).trans (List.append_nil _).symm⟩
    have nothing : WholeBlocks [] := ⟨[], .nothing⟩
    cases (h.invoke m x d.current).outcome with
    | returned invocation => exact nothing
    | crashed text => exact nothing.brokenOff
    | unfinished => trivial

theorem holds_serve (request : Request σ ω) :
    (comparison σ ω).Holds request.recorded.serve request.serve := by
  apply Comparison.holds_of_tracks
  intro start
  have invoked := fun (h : Handler σ ω) m x =>
    Comparison.tracks_of_holds (holds_invoke h m x) start
  cases request with
  | message handlers budget m x =>
      exact (handle_tracks invoked handlers budget m x).bind fun _ _ same => .pure (same ▸ rfl)
  | batch handlers budget ms x =>
      exact (handleBatch_tracks invoked handlers budget ms x).bind fun _ _ same =>
        .pure (same ▸ rfl)
  | step handlers m x =>
      exact (handleStep_tracks invoked handlers m x).bind fun _ _ same => .pure (same ▸ rfl)

/-- The discipline of blocking calls that are made one after the other.  The diaries make no
difference, and each call adds to the diary of an instance the blocks of invocations that have
returned and, if it crashes, perhaps that of the invocation that has crashed. -/
structure Disciplined (requests : List (Request σ ω)) (d : World (Diary σ) ω) : Prop where
  outcomes : (Request.serveAll (requests.map Request.recorded) d).1 =
    (Request.serveAll requests d.current).1
  current : (Request.serveAll (requests.map Request.recorded) d).2.current =
    (Request.serveAll requests d.current).2
  blocks : ∀ i, ∃ parts,
    List.Forall₂ (Contributes fun marks => ∃ text, Block (.crashed text) marks)
      (Request.serveAll requests d.current).1 parts ∧
    (Request.serveAll (requests.map Request.recorded) d).2.marks i = d.marks i ++ parts.flatten

theorem disciplined {requests : List (Request σ ω)} {d : World (Diary σ) ω}
    (ended : .unfinished ∉ (Request.serveAll requests d.current).1) : Disciplined requests d := by
  obtain ⟨outcomes, current, blocks⟩ :=
    (comparison σ ω).inSequence_of_holds holds_serve requests rfl ended
  have recordedEq : requests.map (fun request => request.recorded.serve) =
      (requests.map Request.recorded).map Request.serve := by
    rw [List.map_map]
    rfl
  rw [recordedEq] at outcomes current blocks
  exact ⟨outcomes, current, blocks⟩

end SyncBus

/-! ## The suspending bus -/

namespace AsyncBus

/-- What a bus may be called for. -/
inductive Request (σ ω : Type) where
  | message (handlers : Handlers σ ω) (budget : Nat) (m : Message) (x : Extra)
  | batch (handlers : Handlers σ ω) (budget : Nat) (ms : List Message) (x : Extra)

namespace Request

/-- The call for a request. -/
def serve : Request σ ω → Action (SharedWorld σ ω) CallResult
  | message handlers budget m x => handle handlers budget m x
  | batch handlers budget ms x => handleBatch handlers budget ms x

/-- The same request to a bus whose handlers are recorded. -/
def recorded : Request σ ω → Request (Diary σ) ω
  | message handlers budget m x => message handlers.recorded budget m x
  | batch handlers budget ms x => batch handlers.recorded budget ms x

/-- The calls for requests that are made one after the other, where no instance is locked at
first, and what they leave. -/
def serveAll (requests : List (Request σ ω)) (w : World σ ω) :
    List (Outcome CallResult) × SharedWorld σ ω :=
  inSequence (requests.map serve) ⟨w, Locks.free⟩

end Request

/-- Suspending calls: the worlds are alike without the diaries, no instance is locked, and the
last block may be cut in the middle of a phase. -/
def comparison (σ ω : Type) : Comparison (SharedWorld (Diary σ) ω) (SharedWorld σ ω) where
  alike s t := s.current = t ∧ s.locks = Locks.free
  marks s := s.world.marks
  broken := Cut

theorem holds_run (budget : Nat) (handlers : List (Handler σ ω)) (m : Message) (x : Extra) :
    (comparison σ ω).Holds (Cohort.run budget (handlers.map Handler.recorded) m x)
      (Cohort.run budget handlers m x) := by
  rintro ⟨d, locks⟩ t ⟨rfl, rfl⟩
  obtain ⟨outcomes, current⟩ := Cohort.run_matches budget handlers m x (Eq.refl _)
  have outcomeEq := (Outcome.matches_eq_iff _ _).mp outcomes
  refine ⟨outcomeEq, ?_⟩
  rw [← outcomeEq]
  intro ended
  cases ending :
      (Cohort.run budget (handlers.map Handler.recorded) m x ⟨d, Locks.free⟩).outcome with
  | returned invocations =>
      refine ⟨⟨current, Cohort.locks_of_run_returns ⟨ending, rfl⟩⟩, fun i => ?_⟩
      obtain ⟨whole, marksEq, blocks⟩ := Cohort.blocks_of_run_returns ⟨ending, rfl⟩ i
      exact ⟨whole, ⟨_, blocks⟩, marksEq⟩
  | crashed text =>
      refine ⟨⟨current, (Cohort.run_crashes ⟨ending, rfl⟩).2⟩, fun i => ?_⟩
      obtain ⟨invocations, whole, cut, marksEq, blocks, cutCases⟩ :=
        Cohort.cut_of_run_crashes ⟨ending, rfl⟩ i
      refine ⟨whole ++ cut, ⟨whole, cut, rfl, ⟨invocations, blocks⟩, ?_⟩, marksEq⟩
      exact cutCases.imp And.left And.left
  | unfinished => contradiction

theorem holds_releaseScoped : (comparison σ ω).Holds releaseScoped releaseScoped := by
  rintro ⟨d, locks⟩ t ⟨rfl, rfl⟩
  have releases : ∀ {τ : Type} (w : World τ ω),
      (releaseScoped ⟨w, Locks.free⟩).outcome = .returned () ∧
        (releaseScoped ⟨w, Locks.free⟩).state =
          ⟨{ w with context := w.context.releaseScoped }, Locks.free⟩ := by
    intro τ w
    simp only [releaseScoped, Bind.bind, Action.bind, Action.get, Action.modify]
    split <;> exact ⟨rfl, rfl⟩
  obtain ⟨outcomeEq, stateEq⟩ := releases d
  obtain ⟨outcomeEq', stateEq'⟩ := releases d.current
  refine ⟨outcomeEq.trans outcomeEq'.symm, fun _ => ⟨?_, fun i => ?_⟩⟩
  · rw [stateEq]
    exact ⟨stateEq'.symm, rfl⟩
  · rw [stateEq]
    refine ⟨[], ?_, (List.append_nil _).symm⟩
    show Contributes Cut (releaseScoped ⟨d.current, Locks.free⟩).outcome []
    rw [outcomeEq']
    exact ⟨[], .nothing⟩

theorem holds_serve (request : Request σ ω) :
    (comparison σ ω).Holds request.recorded.serve request.serve := by
  apply Comparison.holds_of_tracks
  intro start
  have ran := fun budget (handlers : List (Handler σ ω)) m x =>
    Comparison.tracks_of_holds (holds_run budget handlers m x) start
  have released := Comparison.tracks_of_holds (holds_releaseScoped (σ := σ) (ω := ω)) start
  cases request with
  | message handlers budget m x => exact handle_tracks ran released handlers budget m x
  | batch handlers budget ms x => exact handleBatch_tracks ran released handlers budget ms x

/-- The discipline of calls that may suspend and are made one after the other.  The diaries make no
difference, no instance stays locked, and each call adds to the diary of an instance the blocks of
invocations that have returned and, if it crashes, perhaps one that is cut. -/
structure Disciplined (requests : List (Request σ ω)) (d : World (Diary σ) ω) : Prop where
  outcomes : (Request.serveAll (requests.map Request.recorded) d).1 =
    (Request.serveAll requests d.current).1
  current : (Request.serveAll (requests.map Request.recorded) d).2.current =
    (Request.serveAll requests d.current).2
  unlocked : (Request.serveAll (requests.map Request.recorded) d).2.locks = Locks.free
  blocks : ∀ i, ∃ parts,
    List.Forall₂ (Contributes Cut) (Request.serveAll requests d.current).1 parts ∧
    (Request.serveAll (requests.map Request.recorded) d).2.world.marks i =
      d.marks i ++ parts.flatten

theorem disciplined {requests : List (Request σ ω)} {d : World (Diary σ) ω}
    (ended : .unfinished ∉ (Request.serveAll requests d.current).1) : Disciplined requests d := by
  have alike : (comparison σ ω).alike ⟨d, Locks.free⟩ ⟨d.current, Locks.free⟩ := ⟨rfl, rfl⟩
  obtain ⟨outcomes, ⟨current, unlocked⟩, blocks⟩ :=
    (comparison σ ω).inSequence_of_holds holds_serve requests alike ended
  have recordedEq : requests.map (fun request => request.recorded.serve) =
      (requests.map Request.recorded).map Request.serve := by
    rw [List.map_map]
    rfl
  rw [recordedEq] at outcomes current unlocked blocks
  exact ⟨outcomes, current, unlocked, blocks⟩

end AsyncBus

/-- The discipline of a cohort.  Its members write whole blocks into the diary of an instance, and
at most one that has been begun, by the member that has locked the instance.  A cohort that returns
has written a block for each member that has the instance engaged, in registration order, and the
member's invocation is the one of the block; where a member crashes at most one block is cut.  In
both cases no instance stays locked, and the diaries make no difference. -/
structure Cohort.Disciplined (handlers : List (Handler σ ω)) (m : Message) (x : Extra)
    (d : World (Diary σ) ω) : Prop where
  alike : ∀ budget,
    (run budget (handlers.map Handler.recorded) m x ⟨d, Locks.free⟩).outcome =
        (run budget handlers m x ⟨d.current, Locks.free⟩).outcome ∧
      (run budget (handlers.map Handler.recorded) m x ⟨d, Locks.free⟩).state.current =
        (run budget handlers m x ⟨d.current, Locks.free⟩).state
  stages : ∀ trace stage, Passes (handlers.map Handler.recorded) m x d trace stage → ∀ i,
    ∃ (invocations : List Invocation) (whole cut : List Mark),
      stage.shared.world.marks i = d.marks i ++ (whole ++ cut) ∧
      Blocks (invocations.map .returned) whole ∧
      (cut = [] ∨ Cut cut ∧ ∃ k, stage.Holds i k ∧ (stage.shared.locks i).holder = some k)
  returned : ∀ budget invocations s',
    (run budget (handlers.map Handler.recorded) m x).Returns ⟨d, Locks.free⟩ invocations s' →
    s'.locks = Locks.free ∧ invocations.length = handlers.length ∧
      ∀ i, ∃ whole, s'.world.marks i = d.marks i ++ whole ∧
        Blocks ((((handlers.zip invocations).filter fun entry => entry.1.engages m = some i).map
          (·.2)).map .returned) whole
  crashed : ∀ budget text s',
    (run budget (handlers.map Handler.recorded) m x).Crashes ⟨d, Locks.free⟩ text s' →
    s'.locks = Locks.free ∧
      ∀ i, ∃ (invocations : List Invocation) (whole cut : List Mark),
        s'.world.marks i = d.marks i ++ (whole ++ cut) ∧
        Blocks (invocations.map .returned) whole ∧
        (cut = [] ∧ invocations.length ≤ (handlers.filter fun h => h.engages m = some i).length ∨
          Cut cut ∧ invocations.length < (handlers.filter fun h => h.engages m = some i).length)

theorem Cohort.disciplined (handlers : List (Handler σ ω)) (m : Message) (x : Extra)
    (d : World (Diary σ) ω) : Disciplined handlers m x d where
  alike budget := by
    obtain ⟨outcomes, current⟩ := run_matches budget handlers m x (Eq.refl _)
    exact ⟨(Outcome.matches_eq_iff _ _).mp outcomes, current⟩
  stages _ _ passed := blocks_of_passes passed
  returned _ _ _ returned :=
    ⟨locks_of_run_returns returned, by simpa using length_of_run_returns returned,
      blocks_of_run_returns returned⟩
  crashed _ _ _ crashed := ⟨(run_crashes crashed).2, cut_of_run_crashes crashed⟩

/-- The steps on an instance are whole blocks, one after the other: a hook before the core that
fails or crashes, or one that succeeds, the core, and the hook after it, once, whatever becomes of
the core.  An invocation returns the error of the hook or what the core has ended with, and leaves
a block; one with a message of another type leaves nothing.

Blocking calls leave such blocks, crashes included, however many threads there are and however
they mix: an instance is locked while a block is being written, and unlocked at its end.  Calls that
suspend do the same, however many cohorts there are at the same time and however their members are
resumed; but there a crash, of the handler itself or of another member of its cohort, leaves a block
as it stands, cut in the middle of a phase, and the instance is unlocked then, too.

A bus that serves one call after the other is a case of both: a blocking invocation is a run of one
thread, and what a cohort comes to is what some moves of a crowd come to. -/
theorem lifecycle_discipline :
    (∀ (h : Handler σ ω) (m : Message) (x : Extra) (d : World (Diary σ) ω),
      h.InvokesAlike m x d) ∧
    (∀ (w : World σ ω) (trace : List (InstanceId × Occurrence)) (s : Threads σ ω),
      (Threads.idle w).Runs trace s → ∀ i, s.History i (Occurrence.atInstance i trace)) ∧
    (∀ (s : Threads σ ω) (t : Nat) (h : Handler σ ω) (m : Message) (x : Extra),
      s.activity t = none → (∀ i, h.engages m = some i → s.holder i = none) →
      ∃ trace, s.Runs trace { s with world := (h.invoke m x s.world).state } ∧
        (h.engages m = none → trace = []) ∧
        ∀ i, h.engages m = some i → ∃ marks, Block (h.invoke m x s.world).outcome marks ∧
          trace = Occurrence.on i (Occurrence.ofBlocks [((h.invoke m x s.world).outcome, marks)])) ∧
    (∀ (requests : List (SyncBus.Request σ ω)) (d : World (Diary σ) ω),
      .unfinished ∉ (SyncBus.Request.serveAll requests d.current).1 →
      SyncBus.Disciplined requests d) ∧
    (∀ (moves : List (Crowd.Move σ ω)) (d : World (Diary σ) ω), Crowd.Disciplined moves d) ∧
    (∀ (budget : Nat) (handlers : List (Handler σ ω)) (m : Message) (x : Extra) (w : World σ ω),
      (Cohort.run budget handlers m x ⟨w, Locks.free⟩).outcome ≠ .unfinished →
      ∃ numbers : List Nat,
        ((Crowd.idle w).run (.gather handlers m x :: numbers.map .resume)).1.shared =
          (Cohort.run budget handlers m x ⟨w, Locks.free⟩).state) ∧
    (∀ (handlers : List (Handler σ ω)) (m : Message) (x : Extra) (d : World (Diary σ) ω),
      Cohort.Disciplined handlers m x d) ∧
    ∀ (requests : List (AsyncBus.Request σ ω)) (d : World (Diary σ) ω),
      .unfinished ∉ (AsyncBus.Request.serveAll requests d.current).1 →
      AsyncBus.Disciplined requests d := by
  refine ⟨fun h m x d => h.invokesAlike m x d, ?_, ?_, ?_, Crowd.disciplined, ?_,
    Cohort.disciplined, ?_⟩
  · exact fun w trace s runs => runs.history.2
  · exact fun s t h m x resting free => Threads.Runs.of_invoke resting h m x free
  · exact fun requests d ended => SyncBus.disciplined ended
  · exact fun budget handlers m x w ended => Crowd.exists_moves_of_run ended
  · exact fun requests d ended => AsyncBus.disciplined ended

end Courier

/-! ## A yard

The porter breaks what is ordered, and the till is none the worse for it. -/

namespace Courier.Shop

/-- The porter suspends, breaks what it carries, and signs in the book afterwards. -/
def porter : Handler Nat (List String) where
  name := "porter"
  accepts := ordered.type
  behavior := .stateful 0
    { before := .done (.ok ())
      core := fun _ _ => .pause (.crash "broken")
      after := .step (fun v => { v with outside := v.outside ++ ["porter"] }) fun _ => .done () }

def yard : Handlers Nat (List String) :=
  (Registry.empty.setEventHandlers ordered.type [porter]).setCommandHandler charge.type
    (clerk 1 till)

/-- The world before the first order, where nothing has been written into the diaries. -/
def blank : World (Diary Nat) (List String) :=
  ⟨.empty, fun _ => ⟨0, []⟩, []⟩

end Courier.Shop

namespace Courier

/-- The porter crashes, on both buses; its hook after the core signs on the blocking one alone. -/
theorem lifecycle_discipline_yard :
    ∃ (blocking : List (SyncBus.Request Nat (List String)))
      (suspending : List (AsyncBus.Request Nat (List String))),
      (SyncBus.Request.serveAll blocking Shop.blank.current).1 =
        [.crashed "broken", .returned (.inl (.ok [⟨.command Shop.charge, "till", .unit⟩]))] ∧
      (SyncBus.Request.serveAll blocking Shop.blank.current).2.outside = ["porter", "till"] ∧
      SyncBus.Disciplined blocking Shop.blank ∧
      (AsyncBus.Request.serveAll suspending Shop.blank.current).1 =
        [.crashed "broken", .returned (.ok [⟨.command Shop.charge, "till", .unit⟩])] ∧
      (AsyncBus.Request.serveAll suspending Shop.blank.current).2.world.outside = ["till"] ∧
      AsyncBus.Disciplined suspending Shop.blank ∧
      (Threads.idle Shop.opening).History 0 [] ∧
      (∃ trace, (Threads.idle Shop.opening).Runs trace
        { Threads.idle Shop.opening with
          world := (Shop.porter.invoke (.event Shop.ordered) ∅ Shop.opening).state }) ∧
      ∃ numbers : List Nat, ((Crowd.idle Shop.opening).run
          (.gather [Shop.porter] (.event Shop.ordered) ∅ :: numbers.map .resume)).1.shared =
        (Cohort.run 3 [Shop.porter] (.event Shop.ordered) ∅ ⟨Shop.opening, Locks.free⟩).state := by
  obtain ⟨_, histories, invocations, blocking, _, alone, _, suspending⟩ :=
    @lifecycle_discipline Nat (List String)
  refine ⟨[.message Shop.yard 3 (.event Shop.ordered) ∅,
      .message Shop.yard 3 (.command Shop.charge) ∅],
    [.message Shop.yard 3 (.event Shop.ordered) ∅,
      .message Shop.yard 3 (.command Shop.charge) ∅],
    rfl, rfl, blocking _ _ ?_, rfl, rfl, suspending _ _ ?_, ?_, ?_, ?_⟩
  · rintro (_ | ⟨_, _ | ⟨_, ⟨⟩⟩⟩)
  · rintro (_ | ⟨_, _ | ⟨_, ⟨⟩⟩⟩)
  · exact histories Shop.opening [] _ (.rests _) 0
  · obtain ⟨trace, runs, _⟩ := invocations (Threads.idle Shop.opening) 0 Shop.porter
      (.event Shop.ordered) ∅ rfl fun _ _ => rfl
    exact ⟨trace, runs⟩
  · exact alone 3 [Shop.porter] (.event Shop.ordered) ∅ Shop.opening (by rintro ⟨⟩)

end Courier
