import Courier.Proofs.Handler.Diary
import Mathlib.Logic.Function.Basic

/-!
# Threads that share instances

Several threads may call handlers that block, and an instance may belong to several of them.
Whoever invokes it locks it for the whole of the lifecycle and unlocks it at the end, also where a
hook or the core crashes: the crash of the core is held back until the hook after it has run.

However the steps of the threads mix, what is noted on an instance is a sequence of blocks, and
the instance is locked exactly while one of them has not ended (`Threads.Runs.history`).  An
invocation of a handler as it is run by a bus is a run of one thread
(`Threads.Runs.of_invoke`).
-/

namespace Courier

variable {σ ω : Type}

/-- One step of a procedure that does not end with it. -/
inductive Proc.Steps {S α : Type} : Proc S α → S → Proc S α → S → Prop
  | step (change : S → S) (next : S → Proc S α) (s : S) :
      Steps (.step change next) s (next s) (change s)
  | log (line : LogLine) (next : Proc S α) (s : S) : Steps (.log line next) s next s
  | pause (next : Proc S α) (s : S) : Steps (.pause next) s next s

/-- A procedure has been run to its end. -/
inductive Proc.Ended {S α : Type} : Proc S α → Outcome α → Prop
  | done (a : α) : Ended (.done a) (.returned a)
  | crash (text : String) : Ended (.crash text) (.crashed text)

/-- What is left of an invocation that blocks.  The hook after the core knows how the invocation is
going to end. -/
inductive Phase (σ ω : Type) where
  | before (rest : Proc (View σ ω) (Except HandlerError Unit))
  | core (rest : Proc (View σ ω) Invocation)
  | after (rest : Proc (View σ ω) Unit) (pending : Outcome Invocation)

/-- An invocation that a thread is in the middle of. -/
structure Activity (σ ω : Type) where
  owner : InstanceId
  lifecycle : Lifecycle σ ω
  message : Message
  extra : Extra
  phase : Phase σ ω

namespace Phase

open Mark

/-- One step of an invocation, with what is noted of it: it goes on, or ends. -/
inductive Step (h : Lifecycle σ ω) (m : Message) (x : Extra) :
    Phase σ ω → View σ ω → List Mark → Phase σ ω ⊕ Outcome Invocation → View σ ω → Prop
  | before {rest rest' : Proc (View σ ω) (Except HandlerError Unit)} {v v' : View σ ω} :
      rest.Steps v rest' v' → Step h m x (before rest) v [] (.inl (before rest')) v'
  | accepts (v : View σ ω) :
      Step h m x (before (.done (.ok ()))) v [beforeEnds (.ok ()), coreBegins]
        (.inl (core (h.core m x))) v
  | refuses (e : HandlerError) (v : View σ ω) :
      Step h m x (before (.done (.error e))) v [beforeEnds (.error e)]
        (.inr (.returned ⟨.error e, []⟩)) v
  | beforeCrashes (text : String) (v : View σ ω) :
      Step h m x (before (.crash text)) v [] (.inr (.crashed text)) v
  | core {rest rest' : Proc (View σ ω) Invocation} {v v' : View σ ω} :
      rest.Steps v rest' v' → Step h m x (core rest) v [] (.inl (core rest')) v'
  | coreEnds (invocation : Invocation) (v : View σ ω) :
      Step h m x (core (.done invocation)) v [coreEnds invocation, afterBegins]
        (.inl (after h.after (.returned invocation))) v
  | coreCrashes (text : String) (v : View σ ω) :
      Step h m x (core (.crash text)) v [afterBegins] (.inl (after h.after (.crashed text))) v
  | after {rest rest' : Proc (View σ ω) Unit} {v v' : View σ ω} (pending : Outcome Invocation) :
      rest.Steps v rest' v' →
      Step h m x (after rest pending) v [] (.inl (after rest' pending)) v'
  | afterEnds (pending : Outcome Invocation) (v : View σ ω) :
      Step h m x (after (.done ()) pending) v [afterEnds] (.inr pending) v
  | afterCrashes (text : String) (pending : Outcome Invocation) (v : View σ ω) :
      Step h m x (after (.crash text) pending) v [] (.inr (.crashed text)) v

/-- What has been noted of an invocation that has got to a phase. -/
inductive Noted : Phase σ ω → List Mark → Prop
  | before (rest : Proc (View σ ω) (Except HandlerError Unit)) : Noted (before rest) [beforeBegins]
  | core (rest : Proc (View σ ω) Invocation) :
      Noted (core rest) [beforeBegins, beforeEnds (.ok ()), coreBegins]
  | after (rest : Proc (View σ ω) Unit) (invocation : Invocation) :
      Noted (after rest (.returned invocation))
        [beforeBegins, beforeEnds (.ok ()), coreBegins, coreEnds invocation, afterBegins]
  | unwinds (rest : Proc (View σ ω) Unit) (text : String) :
      Noted (after rest (.crashed text))
        [beforeBegins, beforeEnds (.ok ()), coreBegins, afterBegins]

variable {h : Lifecycle σ ω} {m : Message} {x : Extra} {phase : Phase σ ω} {v v' : View σ ω}
  {marks noted : List Mark}

/-- An invocation that goes on is in the middle of a block. -/
theorem Noted.goesOn (before : phase.Noted noted) {phase' : Phase σ ω}
    (step : phase.Step h m x v marks (.inl phase') v') : phase'.Noted (noted ++ marks) := by
  cases before <;> cases step <;> constructor

/-- An invocation that ends has completed a block. -/
theorem Noted.ends (before : phase.Noted noted) {outcome : Outcome Invocation}
    (step : phase.Step h m x v marks (.inr outcome) v') : Block outcome (noted ++ marks) := by
  cases before <;> cases step <;> constructor

end Phase

/-- What happens on an instance. -/
inductive Occurrence where
  | noted (mark : Mark)
  /-- The instance is unlocked, since an invocation has ended. -/
  | unlocked (outcome : Outcome Invocation)

namespace Occurrence

/-- Whole blocks one after the other, each with the way in which it ends; at the end of each the
instance is unlocked. -/
def ofBlocks (blocks : List (Outcome Invocation × List Mark)) : List Occurrence :=
  blocks.flatMap fun block => block.2.map noted ++ [unlocked block.1]

theorem ofBlocks_append (blocks more : List (Outcome Invocation × List Mark)) :
    ofBlocks (blocks ++ more) = ofBlocks blocks ++ ofBlocks more :=
  List.flatMap_append

theorem ofBlocks_singleton (outcome : Outcome Invocation) (marks : List Mark) :
    ofBlocks [(outcome, marks)] = marks.map noted ++ [unlocked outcome] :=
  List.flatMap_singleton _ _

/-- The same on a certain instance. -/
def on (i : InstanceId) (entries : List Occurrence) : List (InstanceId × Occurrence) :=
  entries.map fun entry => (i, entry)

/-- What happens on one of the instances. -/
def atInstance (i : InstanceId) (trace : List (InstanceId × Occurrence)) : List Occurrence :=
  trace.filterMap fun entry => if entry.1 = i then some entry.2 else none

@[simp]
theorem atInstance_append (i : InstanceId) (trace more : List (InstanceId × Occurrence)) :
    atInstance i (trace ++ more) = atInstance i trace ++ atInstance i more :=
  List.filterMap_append

@[simp]
theorem atInstance_on_self (i : InstanceId) (entries : List Occurrence) :
    atInstance i (on i entries) = entries := by
  simp only [atInstance, on, List.filterMap_map, Function.comp_def, if_true, List.filterMap_some]

theorem atInstance_on_of_ne {i j : InstanceId} (other : i ≠ j) (entries : List Occurrence) :
    atInstance j (on i entries) = [] := by
  rw [atInstance, List.filterMap_eq_nil_iff]
  intro entry mem
  rcases List.mem_map.mp mem with ⟨_, _, rfl⟩
  exact if_neg other

end Occurrence

/-- Threads that invoke handlers: the world that they share, who has locked each instance, and what
each of them is in the middle of. -/
structure Threads (σ ω : Type) where
  world : World σ ω
  holder : InstanceId → Option Nat
  activity : Nat → Option (Activity σ ω)

namespace Threads

open Occurrence

/-- No thread is in the middle of anything. -/
def idle (w : World σ ω) : Threads σ ω :=
  ⟨w, fun _ => none, fun _ => none⟩

/-- One thread changes what its instance sees, and stands somewhere then. -/
def put (s : Threads σ ω) (t : Nat) (a : Activity σ ω) (v : View σ ω) : Threads σ ω :=
  { s with
    world := s.world.putView a.owner v
    activity := Function.update s.activity t (some a) }

/-- One thread makes a step, with what happens on its instance. -/
inductive Moves : Threads σ ω → List (InstanceId × Occurrence) → Threads σ ω → Prop
  /-- An idle thread locks an instance that nobody else has locked. -/
  | begins {s : Threads σ ω} {t : Nat} {a : Activity σ ω} (resting : s.activity t = none)
      (free : s.holder a.owner = none) (first : a.phase = .before a.lifecycle.before) :
      Moves s (on a.owner [noted .beforeBegins])
        { s with
          holder := Function.update s.holder a.owner (some t)
          activity := Function.update s.activity t (some a) }
  | goesOn {s : Threads σ ω} {t : Nat} {a : Activity σ ω} {marks : List Mark}
      {phase : Phase σ ω} {v : View σ ω} (busy : s.activity t = some a)
      (step : a.phase.Step a.lifecycle a.message a.extra (s.world.view a.owner) marks
        (.inl phase) v) :
      Moves s (on a.owner (marks.map noted)) (s.put t { a with phase } v)
  | ends {s : Threads σ ω} {t : Nat} {a : Activity σ ω} {marks : List Mark}
      {outcome : Outcome Invocation} {v : View σ ω} (busy : s.activity t = some a)
      (step : a.phase.Step a.lifecycle a.message a.extra (s.world.view a.owner) marks
        (.inr outcome) v) :
      Moves s (on a.owner (marks.map noted ++ [unlocked outcome]))
        { world := s.world.putView a.owner v
          holder := Function.update s.holder a.owner none
          activity := Function.update s.activity t none }
  /-- Something happens that concerns no instance, such as a step of a plain handler. -/
  | elsewhere {s : Threads σ ω} {w : World σ ω} (apart : w.instances = s.world.instances) :
      Moves s [] { s with world := w }

/-- Threads make steps one after the other, in any order. -/
inductive Runs : Threads σ ω → List (InstanceId × Occurrence) → Threads σ ω → Prop
  | rests (s : Threads σ ω) : Runs s [] s
  | moves {s s' s'' : Threads σ ω} {trace entries : List (InstanceId × Occurrence)} :
      Runs s trace s' → Moves s' entries s'' → Runs s (trace ++ entries) s''

theorem Runs.append {s s' s'' : Threads σ ω} {trace more : List (InstanceId × Occurrence)}
    (first : Runs s trace s') (second : Runs s' more s'') : Runs s (trace ++ more) s'' := by
  induction second with
  | rests => simpa using first
  | moves _ move ih =>
      rw [← List.append_assoc]
      exact ih.moves move

theorem Runs.trans {s s' s'' : Threads σ ω} {trace more whole : List (InstanceId × Occurrence)}
    (first : Runs s trace s') (second : Runs s' more s'') (wholeEq : trace ++ more = whole) :
    Runs s whole s'' :=
  wholeEq ▸ first.append second

theorem Moves.runs {s s' : Threads σ ω} {entries : List (InstanceId × Occurrence)}
    (move : Moves s entries s') : Runs s entries s' :=
  (Runs.rests s).moves move

/-! ## Histories of instances -/

/-- What has happened on an instance: whole blocks, and what has been noted of the invocation of
the thread that has locked the instance, if there is one. -/
inductive History (s : Threads σ ω) (i : InstanceId) (entries : List Occurrence) : Prop
  | unlocked {blocks : List (Outcome Invocation × List Mark)} (free : s.holder i = none)
      (whole : ∀ block ∈ blocks, Block block.1 block.2) (eq : entries = ofBlocks blocks)
  | locked {blocks : List (Outcome Invocation × List Mark)} {t : Nat} {a : Activity σ ω}
      {marks : List Mark} (held : s.holder i = some t) (busy : s.activity t = some a)
      (owned : a.owner = i) (whole : ∀ block ∈ blocks, Block block.1 block.2)
      (underway : a.phase.Noted marks) (eq : entries = ofBlocks blocks ++ marks.map noted)

variable {s s' : Threads σ ω} {trace : List (InstanceId × Occurrence)}

/-- Every thread that is in the middle of an invocation has locked its instance. -/
def Guarded (s : Threads σ ω) : Prop :=
  ∀ t a, s.activity t = some a → s.holder a.owner = some t

theorem guarded_idle (w : World σ ω) : (idle w).Guarded := by
  rintro t a ⟨⟩

theorem Guarded.of_moves (guarded : s.Guarded) {entries : List (InstanceId × Occurrence)}
    (move : Moves s entries s') : s'.Guarded := by
  cases move with
  | @begins t a resting free first =>
      intro t' a' busy
      by_cases same : t' = t
      · subst same
        simp only [Function.update_self] at busy
        cases busy
        exact Function.update_self _ _ _
      · simp only [Function.update_of_ne same] at busy
        have held := guarded t' a' busy
        have other : a'.owner ≠ a.owner := by
          intro sameOwner
          rw [sameOwner, free] at held
          contradiction
        simp only [Function.update_of_ne other, held]
  | @goesOn t a marks phase v busyHere step =>
      intro t' a' busy
      by_cases same : t' = t
      · subst same
        simp only [put, Function.update_self] at busy
        cases busy
        exact guarded t' a busyHere
      · simp only [put, Function.update_of_ne same] at busy
        exact guarded t' a' busy
  | @ends t a marks outcome v busyHere step =>
      intro t' a' busy
      by_cases same : t' = t
      · subst same
        simp only [Function.update_self] at busy
        contradiction
      · simp only [Function.update_of_ne same] at busy
        have held := guarded t' a' busy
        have other : a'.owner ≠ a.owner := by
          intro sameOwner
          rw [sameOwner, guarded t a busyHere] at held
          exact same (Option.some.inj held).symm
        simp only [Function.update_of_ne other, held]
  | elsewhere apart => exact guarded

/-- What happens on other instances is no part of the history of this one. -/
theorem History.of_other {i : InstanceId} {entries : List Occurrence}
    (history : s.History i entries) (sameHolder : s'.holder i = s.holder i)
    (sameActivity : ∀ t a, s.activity t = some a → a.owner = i → s'.activity t = some a) :
    s'.History i entries := by
  cases history with
  | unlocked free whole eq => exact .unlocked (sameHolder.trans free) whole eq
  | locked held busy owned whole underway eq =>
      exact .locked (sameHolder.trans held) (sameActivity _ _ busy owned) owned whole underway eq

/-- One step continues the history of every instance. -/
theorem History.of_moves (guarded : s.Guarded) {i : InstanceId}
    (history : s.History i (atInstance i trace)) {entries : List (InstanceId × Occurrence)}
    (move : Moves s entries s') : s'.History i (atInstance i (trace ++ entries)) := by
  rw [atInstance_append]
  cases move with
  | @begins t a resting free first =>
      by_cases here : a.owner = i
      · subst here
        rw [atInstance_on_self]
        cases history with
        | unlocked _ whole eq =>
            have underway : a.phase.Noted [.beforeBegins] := by
              rw [first]
              exact .before _
            rw [eq]
            exact .locked (Function.update_self _ _ _) (Function.update_self _ _ _) rfl whole
              underway rfl
        | locked held =>
            rw [free] at held
            contradiction
      · rw [atInstance_on_of_ne here, List.append_nil]
        apply history.of_other (Function.update_of_ne (Ne.symm here) _ _)
        intro t' a' busy owned
        have other : t' ≠ t := by
          rintro rfl
          rw [resting] at busy
          contradiction
        exact (Function.update_of_ne other _ _).trans busy
  | @goesOn t a marks phase v busyHere step =>
      by_cases here : a.owner = i
      · subst here
        rw [atInstance_on_self]
        cases history with
        | unlocked free =>
            rw [guarded t a busyHere] at free
            contradiction
        | @locked blocks t' a' noted held busy owned whole underway eq =>
            rw [guarded t a busyHere] at held
            cases held
            rw [busyHere] at busy
            cases busy
            rw [eq, List.append_assoc, ← List.map_append]
            exact .locked (guarded t a busyHere) (Function.update_self _ _ _) rfl whole
              (underway.goesOn step) rfl
      · rw [atInstance_on_of_ne here, List.append_nil]
        have sameHolder : (s.put t { a with phase } v).holder i = s.holder i := rfl
        apply history.of_other sameHolder
        intro t' a' busy owned
        have other : t' ≠ t := by
          rintro rfl
          rw [busyHere] at busy
          cases busy
          exact here owned
        exact (Function.update_of_ne other _ _).trans busy
  | @ends t a marks outcome v busyHere step =>
      by_cases here : a.owner = i
      · subst here
        rw [atInstance_on_self]
        cases history with
        | unlocked free =>
            rw [guarded t a busyHere] at free
            contradiction
        | @locked blocks t' a' noted held busy owned whole underway eq =>
            rw [guarded t a busyHere] at held
            cases held
            rw [busyHere] at busy
            cases busy
            have wholeNow : ∀ block ∈ blocks ++ [(outcome, noted ++ marks)],
                Block block.1 block.2 := by
              intro block mem
              rcases List.mem_append.mp mem with mem | mem
              · exact whole block mem
              · obtain rfl := List.mem_singleton.mp mem
                exact underway.ends step
            apply History.unlocked (Function.update_self _ _ _) wholeNow
            rw [eq, ofBlocks_append, ofBlocks_singleton, List.map_append]
            simp only [List.append_assoc]
      · rw [atInstance_on_of_ne here, List.append_nil]
        apply history.of_other (Function.update_of_ne (Ne.symm here) _ _)
        intro t' a' busy owned
        have other : t' ≠ t := by
          rintro rfl
          rw [busyHere] at busy
          cases busy
          exact here owned
        exact (Function.update_of_ne other _ _).trans busy
  | elsewhere apart =>
      rw [show atInstance i [] = [] from rfl, List.append_nil]
      exact history.of_other rfl fun _ _ busy _ => busy

/-- However threads mix their steps, what happens on an instance are whole blocks, one after the
other, and at most one that has not ended: that of the thread that has locked the instance. -/
theorem Runs.history {w : World σ ω} (runs : Runs (idle w) trace s) :
    s.Guarded ∧ ∀ i, s.History i (atInstance i trace) := by
  induction runs with
  | rests =>
      constructor
      · exact guarded_idle w
      · intro i
        exact @History.unlocked _ _ _ _ _ [] rfl (fun _ mem => absurd mem List.not_mem_nil) rfl
  | moves _ move ih =>
      rcases ih with ⟨guarded, history⟩
      exact ⟨guarded.of_moves move, fun i => (history i).of_moves guarded move⟩

/-! ## One invocation -/

/-- A thread is in the middle of an invocation in some world, while the others stand where they
stand. -/
def working (s : Threads σ ω) (t : Nat) (a : Activity σ ω) (w : World σ ω) : Threads σ ω where
  world := w
  holder := Function.update s.holder a.owner (some t)
  activity := Function.update s.activity t (some a)

variable {t : Nat} {a : Activity σ ω} {w : World σ ω}

theorem working_busy : (s.working t a w).activity t = some a :=
  Function.update_self _ _ _

theorem put_working (phase : Phase σ ω) (v : View σ ω) :
    (s.working t a w).put t { a with phase } v =
      s.working t { a with phase } (w.putView a.owner v) := by
  simp [working, put]

theorem Runs.begin (resting : s.activity t = none) (free : s.holder a.owner = none)
    (first : a.phase = .before a.lifecycle.before) :
    Runs s (on a.owner [noted .beforeBegins]) (s.working t a s.world) :=
  (Moves.begins resting free first).runs

/-- A step from one phase to the next leaves what the instance sees. -/
theorem Runs.turn {marks : List Mark} {phase : Phase σ ω}
    (step : a.phase.Step a.lifecycle a.message a.extra (w.view a.owner) marks (.inl phase)
      (w.view a.owner)) :
    Runs (s.working t a w) (on a.owner (marks.map noted)) (s.working t { a with phase } w) := by
  have move := Moves.goesOn (s := s.working t a w) working_busy step
  rw [put_working, (World.isPart_view a.owner).put_look] at move
  exact move.runs

/-- At its end an invocation leaves the others where they stand, and its instance unlocked. -/
theorem Runs.finish (resting : s.activity t = none) (free : s.holder a.owner = none)
    {marks : List Mark} {outcome : Outcome Invocation}
    (step : a.phase.Step a.lifecycle a.message a.extra (w.view a.owner) marks (.inr outcome)
      (w.view a.owner)) :
    Runs (s.working t a w) (on a.owner (marks.map noted ++ [unlocked outcome]))
      { s with world := w } := by
  have move := Moves.ends (s := s.working t a w) working_busy step
  simp only [working, (World.isPart_view a.owner).put_look, Function.update_idem] at move
  rw [← free, ← resting, Function.update_eq_self, Function.update_eq_self] at move
  exact move.runs

/-- Within a phase a procedure is run to its end. -/
theorem Runs.exists_ended {α : Type} (wrap : Proc (View σ ω) α → Phase σ ω)
    (within : ∀ {rest rest' : Proc (View σ ω) α} {v v' : View σ ω}, rest.Steps v rest' v' →
      (wrap rest).Step a.lifecycle a.message a.extra v [] (.inl (wrap rest')) v')
    (p : Proc (View σ ω) α) (w : World σ ω) :
    ∃ last, last.Ended (p.run (w.view a.owner)).outcome ∧
      Runs (s.working t { a with phase := wrap p } w) []
        (s.working t { a with phase := wrap last }
          (w.putView a.owner (p.run (w.view a.owner)).state)) := by
  have part := World.isPart_view (σ := σ) (ω := ω) a.owner
  have runsOne : ∀ {rest rest' : Proc (View σ ω) α} {w : World σ ω} {v : View σ ω},
      rest.Steps (w.view a.owner) rest' v →
      Runs (s.working t { a with phase := wrap rest } w) []
        (s.working t { a with phase := wrap rest' } (w.putView a.owner v)) := by
    intro rest rest' w v step
    have move := Moves.goesOn (s := s.working t { a with phase := wrap rest } w) working_busy
      (within step)
    rw [put_working] at move
    exact move.runs
  have stays : ∀ (rest : Proc (View σ ω) α) (w : World σ ω),
      Runs (s.working t { a with phase := wrap rest } w) []
        (s.working t { a with phase := wrap rest } (w.putView a.owner (w.view a.owner))) := by
    intro rest w
    rw [part.put_look]
    exact .rests _
  induction p generalizing w with
  | done b => exact ⟨_, .done b, stays _ w⟩
  | step change next ih =>
      obtain ⟨last, ended, runs⟩ :=
        ih (w.view a.owner) (w.putView a.owner (change (w.view a.owner)))
      rw [part.look_put] at ended runs
      rw [part.put_put] at runs
      exact ⟨last, ended, (runsOne (.step change next _)).append runs⟩
  | log line next ih =>
      obtain ⟨last, ended, runs⟩ := ih w
      have first := runsOne (.log line next (w.view a.owner))
      rw [part.put_look] at first
      exact ⟨last, ended, first.append runs⟩
  | pause next ih =>
      obtain ⟨last, ended, runs⟩ := ih w
      have first := runsOne (.pause next (w.view a.owner))
      rw [part.put_look] at first
      exact ⟨last, ended, first.append runs⟩
  | crash text => exact ⟨_, .crash text, stays _ w⟩

/-- A procedure that returns gets a phase to where it is done. -/
theorem Runs.of_returns {α : Type} (wrap : Proc (View σ ω) α → Phase σ ω)
    (within : ∀ {rest rest' : Proc (View σ ω) α} {v v' : View σ ω}, rest.Steps v rest' v' →
      (wrap rest).Step a.lifecycle a.message a.extra v [] (.inl (wrap rest')) v')
    {p : Proc (View σ ω) α} {b : α} {v : View σ ω}
    (returned : p.run.Returns (w.view a.owner) b v) :
    Runs (s.working t { a with phase := wrap p } w) []
      (s.working t { a with phase := wrap (.done b) } (w.putView a.owner v)) := by
  obtain ⟨last, ended, runs⟩ := Runs.exists_ended (s := s) (t := t) wrap within p w
  rw [returned.2] at runs
  rw [returned.1] at ended
  cases ended
  exact runs

/-- A procedure that crashes gets a phase to where it crashes. -/
theorem Runs.of_crashes {α : Type} (wrap : Proc (View σ ω) α → Phase σ ω)
    (within : ∀ {rest rest' : Proc (View σ ω) α} {v v' : View σ ω}, rest.Steps v rest' v' →
      (wrap rest).Step a.lifecycle a.message a.extra v [] (.inl (wrap rest')) v')
    {p : Proc (View σ ω) α} {text : String} {v : View σ ω}
    (crashed : p.run.Crashes (w.view a.owner) text v) :
    Runs (s.working t { a with phase := wrap p } w) []
      (s.working t { a with phase := wrap (.crash text) } (w.putView a.owner v)) := by
  obtain ⟨last, ended, runs⟩ := Runs.exists_ended (s := s) (t := t) wrap within p w
  rw [crashed.2] at runs
  rw [crashed.1] at ended
  cases ended
  exact runs

variable {owner : InstanceId} {h : Lifecycle σ ω} {m : Message} {x : Extra} {v v' : View σ ω}

/-- An invocation whose hook before the core has returned. -/
theorem Runs.checked (resting : s.activity t = none) (free : s.holder owner = none)
    {result : Except HandlerError Unit}
    (checked : h.before.run.Returns (s.world.view owner) result v) :
    Runs s (on owner [noted .beforeBegins])
      (s.working t ⟨owner, h, m, x, .before (.done result)⟩ (s.world.putView owner v)) := by
  have begun := Runs.begin (a := ⟨owner, h, m, x, .before h.before⟩) resting free rfl
  have ran := Runs.of_returns (s := s) (t := t) (w := s.world)
    (a := ⟨owner, h, m, x, .before h.before⟩) .before .before checked
  exact begun.trans ran rfl

/-- An invocation whose hook before the core has accepted it. -/
theorem Runs.accepted (resting : s.activity t = none) (free : s.holder owner = none)
    (checked : h.before.run.Returns (s.world.view owner) (.ok ()) v) :
    Runs s (on owner [noted .beforeBegins, noted (.beforeEnds (.ok ())), noted .coreBegins])
      (s.working t ⟨owner, h, m, x, .core (h.core m x)⟩ (s.world.putView owner v)) :=
  (Runs.checked resting free checked).trans (Runs.turn (.accepts _)) rfl

/-- An invocation whose core has returned. -/
theorem Runs.core_returned (resting : s.activity t = none) (free : s.holder owner = none)
    (checked : h.before.run.Returns (s.world.view owner) (.ok ()) v) {invocation : Invocation}
    (ran : (h.core m x).run.Returns v invocation v') :
    Runs s
      (on owner [noted .beforeBegins, noted (.beforeEnds (.ok ())), noted .coreBegins,
        noted (.coreEnds invocation), noted .afterBegins])
      (s.working t ⟨owner, h, m, x, .after h.after (.returned invocation)⟩
        (s.world.putView owner v')) := by
  have part := World.isPart_view (σ := σ) (ω := ω) owner
  rw [← part.look_put v s.world] at ran
  have runs := Runs.of_returns (s := s) (t := t)
    (a := ⟨owner, h, m, x, .core (h.core m x)⟩) .core .core ran
  rw [part.put_put] at runs
  exact ((Runs.accepted resting free checked).trans runs rfl).trans (Runs.turn (.coreEnds _ _)) rfl

/-- An invocation whose core has crashed, which is held back. -/
theorem Runs.core_crashed (resting : s.activity t = none) (free : s.holder owner = none)
    (checked : h.before.run.Returns (s.world.view owner) (.ok ()) v) {text : String}
    (ran : (h.core m x).run.Crashes v text v') :
    Runs s
      (on owner [noted .beforeBegins, noted (.beforeEnds (.ok ())), noted .coreBegins,
        noted .afterBegins])
      (s.working t ⟨owner, h, m, x, .after h.after (.crashed text)⟩
        (s.world.putView owner v')) := by
  have part := World.isPart_view (σ := σ) (ω := ω) owner
  rw [← part.look_put v s.world] at ran
  have runs := Runs.of_crashes (s := s) (t := t)
    (a := ⟨owner, h, m, x, .core (h.core m x)⟩) .core .core ran
  rw [part.put_put] at runs
  exact ((Runs.accepted resting free checked).trans runs rfl).trans
    (Runs.turn (.coreCrashes _ _)) rfl

/-- Once the hook after the core has returned, an invocation ends as was pending. -/
theorem Runs.cleaned (resting : s.activity t = none) (free : s.holder owner = none)
    (pending : Outcome Invocation) (cleaned : h.after.run.Returns (w.view owner) () v) :
    Runs (s.working t ⟨owner, h, m, x, .after h.after pending⟩ w)
      (on owner [noted .afterEnds, unlocked pending]) { s with world := w.putView owner v } := by
  have ran : Runs (s.working t ⟨owner, h, m, x, .after h.after pending⟩ w) []
      (s.working t ⟨owner, h, m, x, .after (.done ()) pending⟩ (w.putView owner v)) :=
    Runs.of_returns (a := ⟨owner, h, m, x, .after h.after pending⟩) (.after · pending)
      (.after pending) cleaned
  exact ran.trans (Runs.finish resting free (.afterEnds pending _)) rfl

/-- Where the hook after the core crashes, an invocation ends with this crash. -/
theorem Runs.uncleaned (resting : s.activity t = none) (free : s.holder owner = none)
    (pending : Outcome Invocation) {text : String}
    (crashed : h.after.run.Crashes (w.view owner) text v) :
    Runs (s.working t ⟨owner, h, m, x, .after h.after pending⟩ w)
      (on owner [unlocked (.crashed text)]) { s with world := w.putView owner v } := by
  have ran : Runs (s.working t ⟨owner, h, m, x, .after h.after pending⟩ w) []
      (s.working t ⟨owner, h, m, x, .after (.crash text) pending⟩ (w.putView owner v)) :=
    Runs.of_crashes (a := ⟨owner, h, m, x, .after h.after pending⟩) (.after · pending)
      (.after pending) crashed
  exact ran.trans (Runs.finish resting free (.afterCrashes text pending _)) rfl

/-- A thread that rests can run an invocation of an instance that nobody has locked, while the
others stand where they stand.  What happens then is one block, and at its end the instance is
unlocked, whatever becomes of the invocation. -/
theorem Runs.of_unfolds (resting : s.activity t = none) (free : s.holder owner = none)
    {outcome : Outcome Invocation} {marks : List Mark}
    (unfolds : h.Unfolds m x (s.world.view owner) outcome marks v) :
    Runs s (on owner (ofBlocks [(outcome, marks)]))
      { s with world := s.world.putView owner v } := by
  have part := World.isPart_view (σ := σ) (ω := ω) owner
  cases unfolds with
  | @beforeCrashes text _ crashed =>
      have begun := Runs.begin (a := ⟨owner, h, m, x, .before h.before⟩) resting free rfl
      have ran := Runs.of_crashes (s := s) (t := t) (w := s.world)
        (a := ⟨owner, h, m, x, .before h.before⟩) .before .before crashed
      exact (begun.trans ran rfl).trans (Runs.finish resting free (.beforeCrashes text _)) rfl
  | @refuses e _ checked =>
      exact (Runs.checked (m := m) (x := x) resting free checked).trans
        (Runs.finish resting free (.refuses e _)) rfl
  | @completes invocation ready left _ checked ran cleaned =>
      rw [← part.look_put left s.world] at cleaned
      have ends := Runs.cleaned (m := m) (x := x) resting free (.returned invocation) cleaned
      rw [part.put_put] at ends
      exact (Runs.core_returned resting free checked ran).trans ends rfl
  | @coreCrashes text ready left _ checked ran cleaned =>
      rw [← part.look_put left s.world] at cleaned
      have ends := Runs.cleaned (m := m) (x := x) resting free (.crashed text) cleaned
      rw [part.put_put] at ends
      exact (Runs.core_crashed resting free checked ran).trans ends rfl
  | @afterCrashes invocation text ready left _ checked ran crashed =>
      rw [← part.look_put left s.world] at crashed
      have ends := Runs.uncleaned (m := m) (x := x) resting free (.returned invocation) crashed
      rw [part.put_put] at ends
      exact (Runs.core_returned resting free checked ran).trans ends rfl
  | @bothCrash first text ready left _ checked ran crashed =>
      rw [← part.look_put left s.world] at crashed
      have ends := Runs.uncleaned (m := m) (x := x) resting free (.crashed first) crashed
      rw [part.put_put] at ends
      exact (Runs.core_crashed resting free checked ran).trans ends rfl

/-- Invoking a handler, as a bus does, is a run of one thread.  If an instance is engaged, what
happens on it is one block, which ends as the invocation does; otherwise nothing happens. -/
theorem Runs.of_invoke (resting : s.activity t = none) (h : Handler σ ω) (m : Message) (x : Extra)
    (free : ∀ i, h.engages m = some i → s.holder i = none) :
    ∃ blocks, Runs s blocks { s with world := (h.invoke m x s.world).state } ∧
      (h.engages m = none → blocks = []) ∧
      ∀ i, h.engages m = some i → ∃ marks, Block (h.invoke m x s.world).outcome marks ∧
        blocks = on i (ofBlocks [((h.invoke m x s.world).outcome, marks)]) := by
  cases engaged : h.engages m with
  | none =>
      have apart := Handler.instances_of_not_engages engaged x s.world
      exact ⟨[], (Moves.elsewhere apart).runs, fun _ => rfl, by simp⟩
  | some i =>
      obtain ⟨accepted, lifecycle, behaviorEq⟩ := Handler.behavior_of_engages engaged
      rw [Handler.invoke_of_stateful x accepted behaviorEq]
      obtain ⟨marks, unfolds⟩ := lifecycle.unfolds_invoke m x (s.world.view i)
      refine ⟨_, Runs.of_unfolds resting (free i engaged) unfolds, by simp, ?_⟩
      intro j same
      cases same
      exact ⟨marks, unfolds.block, rfl⟩

end Threads

end Courier
