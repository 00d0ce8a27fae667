import Courier.Proofs.Bus.Upkeep
import Courier.Proofs.Cohort.Settling

/-!
# What cohorts keep up

A property of worlds that every stretch of a member keeps up holds at all stages of a cohort
(`Cohort.Upkeep.stage`) and where a member has crashed, and so in whatever the cohort leaves when it
settles, crashes or is cut off (`Cohort.Upkeep.run`).  What a stretch does may depend on the
program, of which each stretch has to keep what is needed.
-/

namespace Courier.Cohort

open Courier.Action

variable {σ ω : Type} {programs : List (Program σ ω)} {start : SharedWorld σ ω}
  {P : World σ ω → Prop}

/-- What holds at all stages and where members crash holds of what any number of rounds leaves. -/
theorem Reaches.rounds_upholds
    (stages : ∀ {trace stage}, Reaches programs start trace stage → P stage.shared.world)
    (crashes : ∀ {text s'}, CrashesAt programs start text s' → P s'.world)
    {trace : List (Stretch σ ω)} {tasks : List (Task σ ω)} {s : SharedWorld σ ω}
    (reached : Reaches programs start trace ⟨[], tasks, s⟩) (budget : Nat) :
    P (rounds budget tasks s).state.world := by
  -- On the rounds that are allowed; a round that returns leads from stage to stage.
  induction budget generalizing trace tasks s with
  | zero =>
      cases settled : invocations? tasks with
      | some all =>
          rw [rounds_of_settled settled]
          exact stages reached
      | none =>
          rw [rounds_zero settled]
          exact stages reached
  | succ budget ih =>
      cases settled : invocations? tasks with
      | some all =>
          rw [rounds_of_settled settled]
          exact stages reached
      | none =>
          rw [rounds_succ settled]
          show P ((Cohort.round 0 tasks).bind (rounds budget) s).state.world
          have ended := round_ne_unfinished 0 tasks s
          rw [Action.bind]
          rcases roundEq : Cohort.round 0 tasks s with ⟨tasks' | text | _, middle, log⟩
          · have rounded : (Cohort.round 0 tasks).Returns s tasks' middle := by
              rw [Returns, roundEq]
              exact ⟨rfl, rfl⟩
            obtain ⟨trace', nextReached⟩ := reached.of_round rounded
            cases settled' : invocations? tasks' with
            | none => exact ih (nextReached.round settled')
            | some all =>
                show P (rounds budget tasks' middle).state.world
                rw [rounds_of_settled settled']
                exact stages nextReached
          · have crashed : (Cohort.round 0 tasks).Crashes s text middle := by
              rw [Crashes, roundEq]
              exact ⟨rfl, rfl⟩
            exact crashes (reached.of_round_crashes crashed)
          · rw [roundEq] at ended
            contradiction

/-- What is known of the programs that are left of each member is known of all from the start, and
suffices for every stretch to keep up the property. -/
structure Upkeep (programs : List (Program σ ω)) (T : Nat → Program σ ω → Prop)
    (P : World σ ω → Prop) : Prop where
  told : ∀ k p, programs[k]? = some p → T k p
  kept : ∀ k p w rest w', T k p → p.advance.Returns w (.inl rest) w' → T k rest
  leads : ∀ k p, T k p → p.advance.Leads P P

namespace Upkeep

variable {T : Nat → Program σ ω → Prop} (upkeep : Upkeep programs T P) (holds : P start.world)

include upkeep

/-- It is known at all stages. -/
theorem known {trace : List (Stretch σ ω)} {stage : Stage σ ω}
    (reached : Reaches programs start trace stage) (k : Nat) (task : Task σ ω) (p : Program σ ω)
    (taskEq : stage.tasks[k]? = some task) (programEq : task.program? = some p) : T k p :=
  reached.forall_program upkeep.told upkeep.kept k task p taskEq programEq

include holds

/-- What every stretch keeps up holds at all stages, and every stretch that was run until then has
begun on a world with the property. -/
theorem stage {trace : List (Stretch σ ω)} {stage : Stage σ ω}
    (reached : Reaches programs start trace stage) :
    P stage.shared.world ∧ ∀ stretch ∈ trace, T stretch.member stretch.program ∧ P stretch.before ∧
      stretch.program.advance.Returns stretch.before stretch.left stretch.after := by
  induction reached with
  | start => exact ⟨holds, by simp⟩
  | @resume trace resumed pending task task' s s' reached returned ih =>
      obtain ⟨holdsBefore, stretches⟩ := ih
      cases Task.resume_returns returned with
      | stays invocation =>
          exact ⟨holdsBefore, by simpa [Task.stretch?, Task.program?] using stretches⟩
      | waits arrivedEq =>
          exact ⟨holdsBefore, by simpa [Task.stretch?_queued] using stretches⟩
      | @runs _ p left w goesOn advanced =>
          have programEq := goesOn.program?_of_arrived
          have known := upkeep.known reached resumed.length task p (getElem?_at _ _ _) programEq
          refine ⟨(upkeep.leads _ p known).returned advanced holdsBefore, ?_⟩
          rw [Task.stretch?_ofLeft programEq]
          intro stretch mem
          rcases List.mem_append.mp mem with mem | mem
          · exact stretches stretch mem
          · obtain rfl := List.mem_singleton.mp mem
            exact ⟨known, holdsBefore, advanced⟩
  | round _ _ ih => exact ih

/-- It holds where a member has crashed. -/
theorem crash {text : String} {s' : SharedWorld σ ω}
    (crashed : CrashesAt programs start text s') : P s'.world := by
  obtain ⟨trace, resumed, task, pending, s, reached, crashed⟩ := crashed
  obtain ⟨p, w, goesOn, stretchCrashed, rfl⟩ := Task.resume_crashes crashed
  have known := upkeep.known reached resumed.length task p (getElem?_at _ _ _)
    goesOn.program?_of_arrived
  have holdsBefore := (upkeep.stage holds reached).1
  exact stretchCrashed.2 ▸ upkeep.leads _ p known s.world holdsBefore

end Upkeep

/-- It holds of whatever the cohort leaves, however it ends. -/
theorem Upkeep.run {handlers : List (Handler σ ω)} {m : Message} {x : Extra} {w : World σ ω}
    {T : Nat → Program σ ω → Prop} (upkeep : Upkeep (handlers.map fun h => h.program m x) T P)
    (holds : P w) (budget : Nat) : P (run budget handlers m x ⟨w, Locks.free⟩).state.world := by
  have rounded := Reaches.rounds_upholds (P := P) (fun reached => (upkeep.stage holds reached).1)
    (fun crashed => upkeep.crash holds crashed) (.start : Passes handlers m x w _ _) budget
  rw [Cohort.run, onCrash]
  split
  · exact rounded
  · exact rounded

end Courier.Cohort
