import Courier.Proofs.Handler.Suspension

/-!
# Instances apart

Some instances are apart from all others: the programs in sight neither belong to them nor
need to know anything of them.  What such a program does is the same in two worlds that
differ in the instances apart and in what is not seen of the outside; and a program that
belongs to an instance apart, and leaves the rest alone, leaves a world that differs in no
more.
-/

namespace Courier

open Courier.Action

variable {σ ω κ α : Type} {apart : InstanceId → Prop} {g : ω → κ}

/-- Two worlds are the same but for the instances apart and for what `g` does not show of the
outside. -/
structure World.SameBut (apart : InstanceId → Prop) (g : ω → κ) (w v : World σ ω) : Prop where
  context : w.context = v.context
  instances : ∀ i, ¬ apart i → w.instances i = v.instances i
  outside : g w.outside = g v.outside

theorem World.SameBut.refl (w : World σ ω) : w.SameBut apart g w :=
  ⟨rfl, fun _ _ => rfl, rfl⟩

theorem World.SameBut.view {w v : World σ ω} (same : w.SameBut apart g v) {i : InstanceId}
    (inSight : ¬ apart i) : (w.view i).seen g = (v.view i).seen g := by
  simp only [View.seen, World.view, same.context, same.instances i inSight, same.outside]

theorem World.SameBut.plainView {w v : World σ ω} (same : w.SameBut apart g v) :
    w.plainView.seen g = v.plainView.seen g := by
  simp only [View.seen, World.plainView, same.context, same.outside]

/-- What is done on an instance in sight is done alike. -/
theorem Action.Respects.within_view_of_sameBut {action : Action (View σ ω) α}
    (respects : action.Respects (View.seen g)) {i : InstanceId} (inSight : ¬ apart i)
    {w v w' : World σ ω} (same : w.SameBut apart g v) {a : α}
    (returned : (action.within (World.view i) (World.putView i)).Returns w a w') :
    ∃ v', (action.within (World.view i) (World.putView i)).Returns v a v' ∧
      w'.SameBut apart g v' := by
  rcases (returns_within_iff _ _ _ _ _ _).mp returned with ⟨view, inner, rfl⟩
  obtain ⟨view', innerAlike, sameView⟩ := respects (same.view inSight) inner
  refine ⟨v.putView i view', (returns_within_iff _ _ _ _ _ _).mpr ⟨view', innerAlike, rfl⟩, ?_⟩
  simp only [View.seen, View.mk.injEq] at sameView
  rcases sameView with ⟨ownEq, contextEq, outsideEq⟩
  refine ⟨contextEq, ?_, outsideEq⟩
  intro j other
  simp only [World.putView, ownEq, same.instances j other]

theorem Action.Respects.within_plainView_of_sameBut {action : Action (View Unit ω) α}
    (respects : action.Respects (View.seen g)) {w v w' : World σ ω} (same : w.SameBut apart g v)
    {a : α} (returned : (action.within World.plainView World.putPlainView).Returns w a w') :
    ∃ v', (action.within World.plainView World.putPlainView).Returns v a v' ∧
      w'.SameBut apart g v' := by
  rcases (returns_within_iff _ _ _ _ _ _).mp returned with ⟨view, inner, rfl⟩
  obtain ⟨view', innerAlike, sameView⟩ := respects same.plainView inner
  refine ⟨v.putPlainView view', (returns_within_iff _ _ _ _ _ _).mpr ⟨view', innerAlike, rfl⟩, ?_⟩
  simp only [View.seen, View.mk.injEq, true_and] at sameView
  exact ⟨sameView.1, same.instances, sameView.2⟩

namespace Program

/-- The program belongs to no instance apart, and needs to know no more of the outside than
`g` shows. -/
structure InSight (apart : InstanceId → Prop) (g : ω → κ) (p : Program σ ω) : Prop where
  owner : ∀ i, p.owner? = some i → ¬ apart i
  depends : p.DependsOn g

variable {p : Program σ ω} {w v w' : World σ ω}

theorem InSight.rest {rest : Program σ ω} (inSight : p.InSight apart g)
    (advanced : p.advance.Returns w (.inl rest) w') : rest.InSight apart g where
  owner := by
    rw [owner?_of_advance advanced]
    exact inSight.owner
  depends := inSight.depends.rest advanced

/-- A stretch of a program in sight is the same in both worlds. -/
theorem InSight.advance (inSight : p.InSight apart g) (same : w.SameBut apart g v)
    {left : Program σ ω ⊕ Invocation} (advanced : p.advance.Returns w left w') :
    ∃ v', p.advance.Returns v left v' ∧ w'.SameBut apart g v' := by
  cases p with
  | owned owner q =>
      rcases (owned_advance_returns_iff owner q w w' left).mp advanced with ⟨rests, stretched, rfl⟩
      have respects : q.advance.Respects (View.seen g) := Proc.DependsOn.advance inSight.depends
      obtain ⟨v', stretchedAlike, sameEnd⟩ :=
        respects.within_view_of_sameBut (inSight.owner owner rfl) same stretched
      have advanced :=
        (owned_advance_returns_iff owner q v v' _).mpr ⟨rests, stretchedAlike, rfl⟩
      exact ⟨v', advanced, sameEnd⟩
  | free q =>
      rcases (free_advance_returns_iff q w w' left).mp advanced with ⟨rests, stretched, rfl⟩
      have respects : q.advance.Respects (View.seen g) := Proc.DependsOn.advance inSight.depends
      obtain ⟨v', stretchedAlike, sameEnd⟩ := respects.within_plainView_of_sameBut same stretched
      exact ⟨v', (free_advance_returns_iff q v v' _).mpr ⟨rests, stretchedAlike, rfl⟩, sameEnd⟩

theorem InSight.run (inSight : p.InSight apart g) (same : w.SameBut apart g v)
    {invocation : Invocation} (returned : p.run.Returns w invocation w') :
    ∃ v', p.run.Returns v invocation v' ∧ w'.SameBut apart g v' := by
  cases p with
  | owned owner q =>
      have respects : q.run.Respects (View.seen g) := Proc.DependsOn.run inSight.depends
      exact respects.within_view_of_sameBut (inSight.owner owner rfl) same returned
  | free q =>
      have respects : q.run.Respects (View.seen g) := Proc.DependsOn.run inSight.depends
      exact respects.within_plainView_of_sameBut same returned

/-- The program does not suspend, belongs to an instance apart or to none, and leaves the
context and what is seen of the outside alone. -/
structure OutOfSight (apart : InstanceId → Prop) (g : ω → κ) (p : Program σ ω) : Prop where
  owner : ∀ i, p.owner? = some i → apart i
  keeps : p.Keeps fun c c' => c'.map id g = c.map id g
  unpaused : p.unpaused = p

/-- A program leaves the instances of others alone. -/
theorem instances_of_run {invocation : Invocation} (returned : p.run.Returns w invocation w')
    {i : InstanceId} (other : p.owner? ≠ some i) : w'.instances i = w.instances i := by
  cases p with
  | owned owner q =>
      rcases (returns_within_iff _ _ _ _ _ _).mp returned with ⟨view, _, rfl⟩
      exact if_neg fun same => other (congrArg some same.symm)
  | free q =>
      rcases (returns_within_iff _ _ _ _ _ _).mp returned with ⟨view, _, rfl⟩
      rfl

/-- Nobody in sight notices that a program out of sight has been run. -/
theorem OutOfSight.run (outOfSight : p.OutOfSight apart g) (same : w.SameBut apart g v)
    {invocation : Invocation} (returned : p.run.Returns w invocation w') :
    w'.SameBut apart g v := by
  have kept := outOfSight.keeps.run (fun _ => rfl) (fun first second => second.trans first) returned
  rcases Prod.mk.inj kept with ⟨contextEq, outsideEq⟩
  constructor
  · exact Eq.trans contextEq same.context
  · intro i inSight
    have other : p.owner? ≠ some i := fun owned => inSight (outOfSight.owner i owned)
    rw [instances_of_run returned other, same.instances i inSight]
  · exact Eq.trans outsideEq same.outside

/-- A program out of sight ends in its first stretch. -/
theorem OutOfSight.advance (outOfSight : p.OutOfSight apart g) (same : w.SameBut apart g v)
    {left : Program σ ω ⊕ Invocation} (advanced : p.advance.Returns w left w') :
    ∃ invocation, left = .inr invocation ∧ w'.SameBut apart g v := by
  have whole := advanced
  rw [← outOfSight.unpaused] at whole
  obtain ⟨invocation, rfl⟩ := unpaused_advance whole
  exact ⟨invocation, rfl, outOfSight.run same (run_of_advance advanced)⟩

end Program

end Courier
