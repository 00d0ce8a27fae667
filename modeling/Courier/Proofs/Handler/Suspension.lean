import Courier.Proofs.Handler.Footprint
import Courier.Proofs.Handler.InTurn

/-!
# Where handlers suspend

A handler without its suspensions performs the same steps.  Handlers that have a
message in turn cannot tell the difference, and neither can what their steps
respect.
-/

namespace Courier

open Courier.Action

variable {σ ω κ : Type}

/-- The same lifecycle without its suspensions. -/
def Lifecycle.unpaused (l : Lifecycle σ ω) : Lifecycle σ ω where
  before := l.before.unpaused
  core m x := (l.core m x).unpaused
  after := l.after.unpaused

theorem Lifecycle.checked_unpaused (l : Lifecycle σ ω) (m : Message) (x : Extra)
    (result : Except HandlerError Unit) :
    l.unpaused.checked m x result = (l.checked m x result).unpaused := by
  cases result with
  | error e => rfl
  | ok u =>
      rw [checked, checked, Proc.unpaused_bind]
      apply congrArg ((l.core m x).unpaused.bind ·)
      funext invocation
      rw [Proc.unpaused_bind]
      rfl

theorem Lifecycle.procedure_unpaused (l : Lifecycle σ ω) (m : Message) (x : Extra) :
    l.unpaused.procedure m x = (l.procedure m x).unpaused := by
  rw [procedure_eq_bind, procedure_eq_bind, Proc.unpaused_bind]
  apply congrArg (l.before.unpaused.bind ·)
  funext result
  exact l.checked_unpaused m x result

namespace Handler

/-- The same handler without its suspensions. -/
def unpaused (h : Handler σ ω) : Handler σ ω where
  name := h.name
  accepts := h.accepts
  behavior :=
    match h.behavior with
    | .stateful owner lifecycle => .stateful owner lifecycle.unpaused
    | .plain routine => .plain fun m x => (routine m x).unpaused

theorem program_of_mismatch {h : Handler σ ω} {m : Message} (x : Extra)
    (mismatch : m.type ≠ h.accepts) : h.program m x = .free (.done (.mismatch h.accepts m)) :=
  if_pos mismatch

theorem program_of_stateful {h : Handler σ ω} {m : Message} (x : Extra)
    (accepted : ¬ m.type ≠ h.accepts) {owner : InstanceId} {lifecycle : Lifecycle σ ω}
    (behaviorEq : h.behavior = .stateful owner lifecycle) :
    h.program m x = .owned owner (lifecycle.procedure m x) := by
  rw [program, if_neg accepted, behaviorEq]

theorem program_of_plain {h : Handler σ ω} {m : Message} (x : Extra)
    (accepted : ¬ m.type ≠ h.accepts) {routine : Routine ω}
    (behaviorEq : h.behavior = .plain routine) :
    h.program m x = .free ((routine m x).bind fun result => .done ⟨result, []⟩) := by
  rw [program, if_neg accepted, behaviorEq]
  rfl

theorem program_unpaused (h : Handler σ ω) (m : Message) (x : Extra) :
    h.unpaused.program m x = (h.program m x).unpaused := by
  by_cases accepted : m.type ≠ h.accepts
  · rw [program_of_mismatch x accepted, program_of_mismatch (h := h.unpaused) x accepted]
    rfl
  · cases behaviorEq : h.behavior with
    | stateful owner lifecycle =>
        have unpausedEq : h.unpaused.behavior = .stateful owner lifecycle.unpaused := by
          simp only [unpaused, behaviorEq]
        rw [program_of_stateful x accepted behaviorEq,
          program_of_stateful (h := h.unpaused) x accepted unpausedEq,
          lifecycle.procedure_unpaused]
        rfl
    | plain routine =>
        have unpausedEq : h.unpaused.behavior = .plain fun m x => (routine m x).unpaused := by
          simp only [unpaused, behaviorEq]
        rw [program_of_plain x accepted behaviorEq,
          program_of_plain (h := h.unpaused) x accepted unpausedEq, Program.unpaused,
          Proc.unpaused_bind]
        rfl

theorem invoke_unpaused_returns_iff (h : Handler σ ω) (m : Message) (x : Extra)
    (w w' : World σ ω) (invocation : Invocation) :
    (h.unpaused.invoke m x).Returns w invocation w' ↔ (h.invoke m x).Returns w invocation w' := by
  rw [invoke_returns_iff, invoke_returns_iff, program_unpaused, Program.run_unpaused]

/-- Handlers in turn do the same wherever they would suspend. -/
theorem inTurn_unpaused_iff (x : Extra) (m : Message) (handlers : List (Handler σ ω))
    (w w' : World σ ω) (entries : List (String × Invocation)) :
    InTurn x m (handlers.map unpaused) w entries w' ↔ InTurn x m handlers w entries w' := by
  induction handlers generalizing w entries with
  | nil => rfl
  | cons h rest ih =>
      rw [List.map_cons, inTurn_cons_iff, inTurn_cons_iff]
      simp only [invoke_unpaused_returns_iff, ih]
      rfl

/-- Every step of a handler, hooks included, changes the shared part only as `R`
allows. -/
def Keeps (R : Context × ω → Context × ω → Prop) (h : Handler σ ω) : Prop :=
  match h.behavior with
  | .stateful _ lifecycle =>
      (lifecycle.before.Keeps fun v v' => R v.shared v'.shared) ∧
        (∀ m x, (lifecycle.core m x).Keeps fun v v' => R v.shared v'.shared) ∧
        lifecycle.after.Keeps fun v v' => R v.shared v'.shared
  | .plain routine => ∀ m x, (routine m x).Keeps fun v v' => R v.shared v'.shared

theorem Keeps.program {R : Context × ω → Context × ω → Prop} {h : Handler σ ω}
    (kept : h.Keeps R) (m : Message) (x : Extra) : (h.program m x).Keeps R := by
  unfold Keeps at kept
  by_cases accepted : m.type ≠ h.accepts
  · rw [program_of_mismatch x accepted]
    trivial
  · cases behaviorEq : h.behavior with
    | stateful owner lifecycle =>
        rw [behaviorEq] at kept
        rcases kept with ⟨before, core, after⟩
        rw [program_of_stateful x accepted behaviorEq, Lifecycle.procedure_eq_bind]
        apply Proc.Keeps.bind before
        intro result
        cases result with
        | error e => trivial
        | ok u =>
            apply Proc.Keeps.bind (core m x)
            intro invocation
            apply Proc.Keeps.bind after
            intro _
            trivial
    | plain routine =>
        rw [behaviorEq] at kept
        rw [program_of_plain x accepted behaviorEq]
        apply Proc.Keeps.bind (kept m x)
        intro result
        trivial

/-- A handler, hooks included, needs to know no more of the outside than `g` shows. -/
def DependsOn (g : ω → κ) (h : Handler σ ω) : Prop :=
  match h.behavior with
  | .stateful _ lifecycle =>
      lifecycle.before.DependsOn (View.seen g) ∧
        (∀ m x, (lifecycle.core m x).DependsOn (View.seen g)) ∧
        lifecycle.after.DependsOn (View.seen g)
  | .plain routine => ∀ m x, (routine m x).DependsOn (View.seen g)

/-- Where all of the outside is seen nobody needs to know more. -/
theorem DependsOn.of_injective {g : ω → κ} (injective : Function.Injective g)
    (h : Handler σ ω) : h.DependsOn g := by
  have seenInjective : ∀ {τ : Type}, Function.Injective (View.seen (σ := τ) g) := by
    intro τ v u same
    rcases v with ⟨own, context, outside⟩
    rcases u with ⟨own', context', outside'⟩
    simp only [View.seen, View.mk.injEq] at same
    rcases same with ⟨rfl, rfl, outsideEq⟩
    rw [injective outsideEq]
  unfold DependsOn
  cases h.behavior with
  | stateful owner lifecycle =>
      exact ⟨.of_injective seenInjective _, fun m x => .of_injective seenInjective _,
        .of_injective seenInjective _⟩
  | plain routine => exact fun m x => .of_injective seenInjective _

theorem DependsOn.program {g : ω → κ} {h : Handler σ ω} (depends : h.DependsOn g) (m : Message)
    (x : Extra) : (h.program m x).DependsOn g := by
  unfold DependsOn at depends
  by_cases accepted : m.type ≠ h.accepts
  · rw [program_of_mismatch x accepted]
    trivial
  · cases behaviorEq : h.behavior with
    | stateful owner lifecycle =>
        rw [behaviorEq] at depends
        rcases depends with ⟨before, core, after⟩
        rw [program_of_stateful x accepted behaviorEq, Lifecycle.procedure_eq_bind]
        apply Proc.DependsOn.bind before
        intro result
        cases result with
        | error e => trivial
        | ok u =>
            apply Proc.DependsOn.bind (core m x)
            intro invocation
            apply Proc.DependsOn.bind after
            intro _
            trivial
    | plain routine =>
        rw [behaviorEq] at depends
        rw [program_of_plain x accepted behaviorEq]
        apply Proc.DependsOn.bind (depends m x)
        intro result
        trivial

theorem Keeps.mono {R R' : Context × ω → Context × ω → Prop} {h : Handler σ ω} (kept : h.Keeps R)
    (implies : ∀ {c c'}, R c c' → R' c c') : h.Keeps R' := by
  unfold Keeps at kept ⊢
  cases behaviorEq : h.behavior with
  | stateful owner lifecycle =>
      rw [behaviorEq] at kept
      rcases kept with ⟨before, core, after⟩
      exact ⟨before.mono implies, fun m x => (core m x).mono implies, after.mono implies⟩
  | plain routine =>
      rw [behaviorEq] at kept
      exact fun m x => (kept m x).mono implies

theorem keeps_unpaused_iff (R : Context × ω → Context × ω → Prop) (h : Handler σ ω) :
    h.unpaused.Keeps R ↔ h.Keeps R := by
  rcases h with ⟨name, accepts, behavior⟩
  cases behavior with
  | stateful owner lifecycle =>
      simp only [Keeps, unpaused, Lifecycle.unpaused, Proc.keeps_unpaused_iff]
  | plain routine => simp only [Keeps, unpaused, Proc.keeps_unpaused_iff]

/-- Handlers in turn respect what the steps of each respect. -/
theorem InTurn.keeps {R : Context × ω → Context × ω → Prop} {x : Extra} {m : Message}
    {handlers : List (Handler σ ω)} {w w' : World σ ω} {entries : List (String × Invocation)}
    (kept : ∀ h ∈ handlers, h.Keeps R) (refl : ∀ c, R c c)
    (trans : ∀ {first second third}, R first second → R second third → R first third)
    (served : InTurn x m handlers w entries w') : R w.shared w'.shared := by
  induction served with
  | nobody => exact refl _
  | next invoked _ ih =>
      rw [List.forall_mem_cons] at kept
      rw [invoke_returns_iff] at invoked
      exact trans ((kept.1.program m x).run refl trans invoked) (ih kept.2)

/-- Handlers in turn need to know no more of the outside than each does. -/
theorem InTurn.respects {g : ω → κ} {x : Extra} {m : Message} {handlers : List (Handler σ ω)}
    (respects : ∀ h ∈ handlers, (h.program m x).run.Respects (World.seen g)) {w u w' : World σ ω}
    (same : w.seen g = u.seen g) {entries : List (String × Invocation)}
    (served : InTurn x m handlers w entries w') :
    ∃ u', InTurn x m handlers u entries u' ∧ w'.seen g = u'.seen g := by
  induction served generalizing u with
  | nobody => exact ⟨u, .nobody, same⟩
  | @next h rest w middle w' invocation entries invoked _ ih =>
      rw [List.forall_mem_cons] at respects
      rw [invoke_returns_iff] at invoked
      obtain ⟨middle', invokedAlike, sameMiddle⟩ := respects.1 same invoked
      obtain ⟨u', servedAlike, sameEnd⟩ := ih respects.2 sameMiddle
      exact ⟨u', .next ((h.invoke_returns_iff m x _ _ _).mpr invokedAlike) servedAlike, sameEnd⟩

end Handler

/-- The handlers of two buses perform the same steps under the same names, in the
same order and on the same instances; they may differ in where they suspend. -/
def Handlers.SameSteps (first second : Handlers σ ω) : Prop :=
  ∀ m, (first.registered m).map Handler.unpaused = (second.registered m).map Handler.unpaused

namespace Handlers.SameSteps

variable {first second : Handlers σ ω}

theorem symm (same : first.SameSteps second) : second.SameSteps first :=
  fun m => (same m).symm

theorem inTurn_iff (same : first.SameSteps second) (x : Extra) (m : Message) (w w' : World σ ω)
    (entries : List (String × Invocation)) :
    Handler.InTurn x m (first.registered m) w entries w' ↔
      Handler.InTurn x m (second.registered m) w entries w' := by
  rw [← Handler.inTurn_unpaused_iff, same m, Handler.inTurn_unpaused_iff]

theorem keeps (same : first.SameSteps second) {R : Context × ω → Context × ω → Prop} {m : Message}
    (kept : ∀ h ∈ first.registered m, h.Keeps R) : ∀ h ∈ second.registered m, h.Keeps R := by
  intro h mem
  have unpausedMem : h.unpaused ∈ (first.registered m).map Handler.unpaused := by
    rw [same m]
    exact List.mem_map_of_mem mem
  rcases List.mem_map.mp unpausedMem with ⟨other, otherMem, otherEq⟩
  rw [← Handler.keeps_unpaused_iff, ← otherEq, Handler.keeps_unpaused_iff]
  exact kept other otherMem

end Handlers.SameSteps

end Courier
