import Courier.Proofs.Cohort.Sequence

/-!
# Cohorts whose order does not matter

There are three reasons why the members of a cohort may go on out of turn: there
is only one of them; none of them suspends, so that all in front have settled; or
all of them are quiet, and those in front that share an instance have settled.
-/

namespace Courier.Cohort

open Courier.Action

variable {σ ω κ : Type} {g : ω → κ} {programs : List (Program σ ω)} {w : World σ ω}

/-- What a member has left to do needs to know no more of the outside than the whole
of it did. -/
theorem Reaches.respects (depends : ∀ p ∈ programs, p.DependsOn g)
    {trace : List (Stretch σ ω)} {stage : Stage σ ω}
    (reached : Reaches programs ⟨w, Locks.free⟩ trace stage) :
    ∀ task ∈ stage.tasks, task.finish.Respects (World.seen g) := by
  have dependsAll := reached.forall_program (P := fun _ p => p.DependsOn g)
    (fun k p programEq => depends p (List.mem_of_getElem? programEq))
    (fun k p w rest w' depends advanced => depends.rest advanced)
  intro task mem
  obtain ⟨k, taskEq⟩ := List.getElem?_of_mem mem
  cases programEq : task.program? with
  | none =>
      cases task <;> cases programEq
      exact Respects.pure _ _
  | some p =>
      rw [Task.finish_eq_run programEq]
      exact (dependsAll k task p taskEq programEq).run

/-- A single member is always in its turn. -/
theorem orderless_of_length_le_one (depends : ∀ p ∈ programs, p.DependsOn g)
    (single : programs.length ≤ 1) : Orderless g programs w where
  respects := Reaches.respects depends
  swaps {trace resumed task pending s p} reached _ := by
    have lengthEq := reached.length_eq
    simp only [Stage.tasks, List.length_append, List.length_cons] at lengthEq
    have resumedEq : resumed = [] := List.eq_nil_of_length_eq_zero (by omega)
    subst resumedEq
    exact swaps_settled g [] p

/-- Members that are quiet are in the way of nobody. -/
theorem orderless_of_quiet (quiet : ∀ p ∈ programs, p.Quiet g) : Orderless g programs w where
  respects := Reaches.respects fun p mem => (quiet p mem).depends
  swaps {trace resumed task pending s p} reached goesOn := by
    have quietAll := reached.forall_program (P := fun _ p => p.Quiet g)
      (fun k p programEq => quiet p (List.mem_of_getElem? programEq))
      (fun k p w rest w' quiet advanced => quiet.rest advanced)
    have respects := reached.respects fun p mem => (quiet p mem).depends
    rcases reached.orderly with ⟨orderly, asked⟩
    have arrived := Orderly.arrive orderly asked
    have programEq := task.program?_arrived.symm.trans goesOn.program?_eq
    have quietHere := quietAll resumed.length task p (by simp [Stage.tasks]) programEq
    apply swaps_finish
    · intro earlier mem
      cases earlierEq : earlier.program? with
      | none =>
          cases earlier <;> cases earlierEq
          exact .pure g _ p
      | some q =>
          rcases List.mem_iff_getElem.mp mem with ⟨k, bound, getEq⟩
          have quietEarlier : q.Quiet g := by
            apply quietAll k earlier q _ earlierEq
            rw [Stage.tasks, List.getElem?_append_left bound, List.getElem?_eq_getElem bound,
              getEq]
          rw [Task.finish_eq_run earlierEq]
          apply swaps_run quietHere quietEarlier
          -- Whoever shares the instance and stands in front has settled.
          intro i owned
          exact owner_ne_of_line_eq_nil asked (arrived.line_front_eq_nil goesOn owned) earlier mem
            q earlierEq
    · exact fun earlier mem => respects earlier (List.mem_append_left _ mem)

/-- In a cohort of programs that do not suspend, all members that have been resumed
have settled. -/
theorem Reaches.settled_of_unpaused (unpaused : ∀ p ∈ programs, p.unpaused = p)
    {trace : List (Stretch σ ω)} {stage : Stage σ ω}
    (reached : Reaches programs ⟨w, Locks.free⟩ trace stage) :
    (∃ invocations : List Invocation, stage.resumed = invocations.map .settled) ∧
      ∀ task ∈ stage.pending, ∃ p, task = .fresh p ∧ p.unpaused = p := by
  induction reached with
  | start =>
      refine ⟨⟨[], rfl⟩, ?_⟩
      intro task mem
      rcases List.mem_map.mp mem with ⟨p, programMem, rfl⟩
      exact ⟨p, rfl, unpaused p programMem⟩
  | @resume trace resumed pending task task' s s' reached returned ih =>
      rcases ih with ⟨⟨invocations, resumedEq⟩, freshAll⟩
      rw [List.forall_mem_cons] at freshAll
      rcases freshAll with ⟨⟨p, rfl, unpausedEq⟩, freshRest⟩
      refine ⟨?_, freshRest⟩
      rcases reached.orderly with ⟨orderly, asked⟩
      have arrived := Orderly.arrive orderly asked
      cases Task.resume_returns returned with
      | waits arrivedEq owned notHeld =>
          rw [arrivedEq] at arrived
          have settled : ∀ earlier ∈ resumed, earlier.program? = none := by
            intro earlier mem
            simp only at resumedEq
            rw [resumedEq] at mem
            rcases List.mem_map.mp mem with ⟨_, _, rfl⟩
            rfl
          exact absurd (arrived.holder_of_settled settled owned) notHeld
      | @runs _ q left w' goesOn advanced =>
          cases goesOn
          rw [← unpausedEq] at advanced
          obtain ⟨invocation, rfl⟩ := Program.unpaused_advance advanced
          refine ⟨invocations ++ [invocation], ?_⟩
          simp only at resumedEq
          simp [resumedEq, Task.ofLeft]
  | @round trace tasks s reached unsettled ih =>
      rcases ih with ⟨⟨invocations, rfl⟩, _⟩
      rw [(invocations?_eq_some_iff _ invocations).mpr rfl] at unsettled
      contradiction

/-- Members that do not suspend go on in turn. -/
theorem orderless_of_unpaused (depends : ∀ p ∈ programs, p.DependsOn g)
    (unpaused : ∀ p ∈ programs, p.unpaused = p) : Orderless g programs w where
  respects := Reaches.respects depends
  swaps {trace resumed task pending s p} reached _ := by
    obtain ⟨⟨invocations, resumedEq⟩, _⟩ := reached.settled_of_unpaused unpaused
    simp only at resumedEq
    rw [resumedEq]
    exact swaps_settled g invocations p

end Courier.Cohort
