import Courier.Handler.Basic
import Courier.Proofs.Handler.Procedure

/-!
# Blocks of a lifecycle

What can be noted of an invocation of a stateful handler is where its hooks and its core begin
and how they end.  Of one invocation these marks form a block: a hook that comes before the core
and fails or crashes, or one that succeeds, the core, and the hook after it.  A phase that
crashes begins and does not end.

Where a crash drops an invocation as it stands, the block is cut in the middle of a phase.
-/

namespace Courier

open Courier.Action

variable {σ ω : Type}

/-- What is noted of an invocation of a stateful handler. -/
inductive Mark where
  | beforeBegins
  | beforeEnds (result : Except HandlerError Unit)
  | coreBegins
  | coreEnds (invocation : Invocation)
  | afterBegins
  | afterEnds

open Mark

/-- The marks of a whole invocation, by the way it ends.  Where both the core and the hook after
it crash, the latter decides. -/
inductive Block : Outcome Invocation → List Mark → Prop
  | beforeCrashes (text : String) : Block (.crashed text) [beforeBegins]
  | refuses (e : HandlerError) :
      Block (.returned ⟨.error e, []⟩) [beforeBegins, beforeEnds (.error e)]
  | completes (invocation : Invocation) :
      Block (.returned invocation)
        [beforeBegins, beforeEnds (.ok ()), coreBegins, coreEnds invocation, afterBegins, afterEnds]
  | coreCrashes (text : String) :
      Block (.crashed text) [beforeBegins, beforeEnds (.ok ()), coreBegins, afterBegins, afterEnds]
  | afterCrashes (invocation : Invocation) (text : String) :
      Block (.crashed text)
        [beforeBegins, beforeEnds (.ok ()), coreBegins, coreEnds invocation, afterBegins]
  | bothCrash (text : String) :
      Block (.crashed text) [beforeBegins, beforeEnds (.ok ()), coreBegins, afterBegins]

/-- The marks of an invocation that is dropped in the middle of a phase. -/
inductive Cut : List Mark → Prop
  | before : Cut [beforeBegins]
  | core : Cut [beforeBegins, beforeEnds (.ok ()), coreBegins]
  | after (invocation : Invocation) :
      Cut [beforeBegins, beforeEnds (.ok ()), coreBegins, coreEnds invocation, afterBegins]

/-- Whole blocks one after the other, each with the way in which it ends. -/
inductive Blocks : List (Outcome Invocation) → List Mark → Prop
  | nothing : Blocks [] []
  | snoc {outcomes : List (Outcome Invocation)} {outcome : Outcome Invocation}
      {marks block : List Mark} :
      Blocks outcomes marks → Block outcome block → Blocks (outcomes ++ [outcome]) (marks ++ block)

theorem Block.blocks {outcome : Outcome Invocation} {marks : List Mark}
    (block : Block outcome marks) : Blocks [outcome] marks :=
  .snoc .nothing block

theorem Blocks.append {outcomes more : List (Outcome Invocation)} {marks behind : List Mark}
    (first : Blocks outcomes marks) (second : Blocks more behind) :
    Blocks (outcomes ++ more) (marks ++ behind) := by
  induction second with
  | nothing => simpa using first
  | snoc _ block ih =>
      rw [← List.append_assoc, ← List.append_assoc]
      exact ih.snoc block

namespace Lifecycle

/-- The course of an invocation that blocks, with its marks: the phases that are run, each on what
the one before has left, and what becomes of the invocation. -/
inductive Unfolds (h : Lifecycle σ ω) (m : Message) (x : Extra) (v : View σ ω) :
    Outcome Invocation → List Mark → View σ ω → Prop
  | beforeCrashes {text : String} {v' : View σ ω} (checked : h.before.run.Crashes v text v') :
      Unfolds h m x v (.crashed text) [beforeBegins] v'
  | refuses {e : HandlerError} {v' : View σ ω} (checked : h.before.run.Returns v (.error e) v') :
      Unfolds h m x v (.returned ⟨.error e, []⟩) [beforeBegins, beforeEnds (.error e)] v'
  | completes {invocation : Invocation} {ready left v' : View σ ω}
      (checked : h.before.run.Returns v (.ok ()) ready)
      (ran : (h.core m x).run.Returns ready invocation left)
      (cleaned : h.after.run.Returns left () v') :
      Unfolds h m x v (.returned invocation)
        [beforeBegins, beforeEnds (.ok ()), coreBegins, coreEnds invocation, afterBegins, afterEnds]
        v'
  | coreCrashes {text : String} {ready left v' : View σ ω}
      (checked : h.before.run.Returns v (.ok ()) ready)
      (ran : (h.core m x).run.Crashes ready text left)
      (cleaned : h.after.run.Returns left () v') :
      Unfolds h m x v (.crashed text)
        [beforeBegins, beforeEnds (.ok ()), coreBegins, afterBegins, afterEnds] v'
  | afterCrashes {invocation : Invocation} {text : String} {ready left v' : View σ ω}
      (checked : h.before.run.Returns v (.ok ()) ready)
      (ran : (h.core m x).run.Returns ready invocation left)
      (cleaned : h.after.run.Crashes left text v') :
      Unfolds h m x v (.crashed text)
        [beforeBegins, beforeEnds (.ok ()), coreBegins, coreEnds invocation, afterBegins] v'
  | bothCrash {first text : String} {ready left v' : View σ ω}
      (checked : h.before.run.Returns v (.ok ()) ready)
      (ran : (h.core m x).run.Crashes ready first left)
      (cleaned : h.after.run.Crashes left text v') :
      Unfolds h m x v (.crashed text)
        [beforeBegins, beforeEnds (.ok ()), coreBegins, afterBegins] v'

variable {h : Lifecycle σ ω} {m : Message} {x : Extra} {v v' : View σ ω}
  {outcome : Outcome Invocation} {marks : List Mark}

theorem Unfolds.block (unfolds : h.Unfolds m x v outcome marks v') : Block outcome marks := by
  cases unfolds <;> constructor

/-- An invocation unfolds in some way. -/
theorem exists_unfolds (h : Lifecycle σ ω) (m : Message) (x : Extra) (v : View σ ω) :
    ∃ outcome marks v', h.Unfolds m x v outcome marks v' := by
  rcases returns_or_crashes (h.before.run_ne_unfinished v) with
    ⟨result, ready, checked⟩ | ⟨text, v', checked⟩
  · cases result with
    | error e => exact ⟨_, _, _, .refuses checked⟩
    | ok u =>
        rcases returns_or_crashes ((h.core m x).run_ne_unfinished ready) with
          ⟨invocation, left, ran⟩ | ⟨first, left, ran⟩
        · rcases returns_or_crashes (h.after.run_ne_unfinished left) with
            ⟨_, v', cleaned⟩ | ⟨text, v', cleaned⟩
          · exact ⟨_, _, _, .completes checked ran cleaned⟩
          · exact ⟨_, _, _, .afterCrashes checked ran cleaned⟩
        · rcases returns_or_crashes (h.after.run_ne_unfinished left) with
            ⟨_, v', cleaned⟩ | ⟨text, v', cleaned⟩
          · exact ⟨_, _, _, .coreCrashes checked ran cleaned⟩
          · exact ⟨_, _, _, .bothCrash checked ran cleaned⟩
  · exact ⟨_, _, _, .beforeCrashes checked⟩

/-- What unfolds is what the invocation does. -/
theorem Unfolds.invoke_eq (unfolds : h.Unfolds m x v outcome marks v') :
    (h.invoke m x v).outcome = outcome ∧ (h.invoke m x v).state = v' := by
  -- Once the hook before it has succeeded, the core is run with the hook after it as its cleanup.
  have goesOn : ∀ {ready}, h.before.run.Returns v (.ok ()) ready →
      (∀ {invocation}, ((h.core m x).run.ensuring h.after.run).Returns ready invocation v' →
        (h.invoke m x).Returns v invocation v') ∧
      ∀ {text}, ((h.core m x).run.ensuring h.after.run).Crashes ready text v' →
        (h.invoke m x).Crashes v text v' := by
    intro ready checked
    constructor
    · exact fun ran => (returns_bind_iff _ _ _ _ _).mpr ⟨_, _, checked, ran⟩
    · exact fun ran => (crashes_bind_iff _ _ _ _ _).mpr (.inr ⟨_, _, checked, ran⟩)
  cases unfolds with
  | beforeCrashes checked => exact (crashes_bind_iff _ _ _ _ _).mpr (.inl checked)
  | refuses checked =>
      exact (returns_bind_iff _ _ _ _ _).mpr
        ⟨_, _, checked, (returns_pure_iff _ _ _ _).mpr ⟨rfl, rfl⟩⟩
  | completes checked ran cleaned =>
      exact (goesOn checked).1 ((returns_ensuring_iff _ _ _ _ _).mpr ⟨_, ran, cleaned⟩)
  | coreCrashes checked ran cleaned =>
      exact (goesOn checked).2
        ((crashes_ensuring_iff _ _ _ _ _).mpr (.inr ⟨_, _, ran, .inr ⟨rfl, cleaned⟩⟩))
  | afterCrashes checked ran cleaned =>
      exact (goesOn checked).2
        ((crashes_ensuring_iff _ _ _ _ _).mpr (.inl ⟨_, _, ran, cleaned⟩))
  | bothCrash checked ran cleaned =>
      exact (goesOn checked).2
        ((crashes_ensuring_iff _ _ _ _ _).mpr (.inr ⟨_, _, ran, .inl cleaned⟩))

/-- The marks of an invocation, whatever becomes of it, form a block. -/
theorem unfolds_invoke (h : Lifecycle σ ω) (m : Message) (x : Extra) (v : View σ ω) :
    ∃ marks, h.Unfolds m x v (h.invoke m x v).outcome marks (h.invoke m x v).state := by
  obtain ⟨outcome, marks, v', unfolds⟩ := h.exists_unfolds m x v
  obtain ⟨rfl, rfl⟩ := unfolds.invoke_eq
  exact ⟨marks, unfolds⟩

end Lifecycle

end Courier
