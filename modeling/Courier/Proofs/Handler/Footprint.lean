import Courier.Proofs.Handler.Program

/-!
# What programs touch

Beside the instance of its handler a program sees what all handlers share: the
context, and what lies outside the bus.  `Program.Keeps` says what its steps do
with the shared part, and `Program.DependsOn` how much of the outside they need.

A function of the outside stands for what is seen of it.  A program that leaves
the context and this alone, and needs no more, is local to its instance: programs
that are local to different instances may change places.
-/

namespace Courier

open Courier.Action

variable {σ ω κ α β : Type}

/-- What a view shows to all handlers alike. -/
def View.shared (v : View σ ω) : Context × ω :=
  (v.context, v.outside)

/-- What a world shows to all handlers alike. -/
def World.shared (w : World σ ω) : Context × ω :=
  (w.context, w.outside)

/-- A view of which no more is seen of the outside than `g` shows. -/
def View.seen (g : ω → κ) (v : View σ ω) : View σ κ :=
  ⟨v.own, v.context, g v.outside⟩

/-- A world of which no more is seen of the outside than `g` shows. -/
def World.seen (g : ω → κ) (w : World σ ω) : World σ κ :=
  ⟨w.context, w.instances, g w.outside⟩

theorem World.ext {w w' : World σ ω} (sharedEq : w.shared = w'.shared)
    (instancesEq : ∀ i, w.instances i = w'.instances i) : w = w' := by
  rcases w with ⟨context, instances, outside⟩
  rcases w' with ⟨context', instances', outside'⟩
  obtain ⟨rfl, rfl⟩ := Prod.mk.inj sharedEq
  obtain rfl : instances = instances' := funext instancesEq
  rfl

/-! ## Actions of a handler on the world -/

namespace Action

theorem Respects.within_view {g : ω → κ} {action : Action (View σ ω) α}
    (respects : action.Respects (View.seen g)) (i : InstanceId) :
    (action.within (World.view i) (World.putView i)).Respects (World.seen g) := by
  intro w u a w' same returned
  rcases (returns_within_iff _ _ _ _ _ _).mp returned with ⟨v, inner, rfl⟩
  have viewEq : (w.view i).seen g = (u.view i).seen g := congrArg (World.view i) same
  obtain ⟨v', innerAlike, sameView⟩ := respects viewEq inner
  refine ⟨u.putView i v', (returns_within_iff _ _ _ _ _ _).mpr ⟨v', innerAlike, rfl⟩, ?_⟩
  show World.putView i (v.seen g) (w.seen g) = World.putView i (v'.seen g) (u.seen g)
  rw [sameView, same]

theorem Respects.within_plainView {g : ω → κ} {action : Action (View Unit ω) α}
    (respects : action.Respects (View.seen g)) :
    (action.within (World.plainView (σ := σ)) World.putPlainView).Respects (World.seen g) := by
  intro w u a w' same returned
  rcases (returns_within_iff _ _ _ _ _ _).mp returned with ⟨v, inner, rfl⟩
  have viewEq : w.plainView.seen g = u.plainView.seen g := congrArg World.plainView same
  obtain ⟨v', innerAlike, sameView⟩ := respects viewEq inner
  refine ⟨u.putPlainView v', (returns_within_iff _ _ _ _ _ _).mpr ⟨v', innerAlike, rfl⟩, ?_⟩
  show World.putPlainView (v.seen g) (w.seen g) = World.putPlainView (v'.seen g) (u.seen g)
  rw [sameView, same]

/-- An action that changes one instance at most, as far as is seen, and that needs
to know nothing of the others. -/
structure LocalTo (g : ω → κ) (owner? : Option InstanceId) (action : Action (World σ ω) α) :
    Prop where
  shared_eq : ∀ {w a w'}, action.Returns w a w' → (w'.seen g).shared = (w.seen g).shared
  instances_eq : ∀ {w a w'}, action.Returns w a w' →
    ∀ i, owner? ≠ some i → w'.instances i = w.instances i
  replay : ∀ {w a w'}, action.Returns w a w' →
    ∀ u : World σ ω, (u.seen g).shared = (w.seen g).shared →
      (∀ i, owner? = some i → u.instances i = w.instances i) →
      ∃ u', action.Returns u a u' ∧ ∀ i, owner? = some i → u'.instances i = w'.instances i

/-- Actions that are local to different instances may change places. -/
theorem LocalTo.swap {g : ω → κ} {i? j? : Option InstanceId} {a : Action (World σ ω) α}
    {b : Action (World σ ω) β} (aLocal : a.LocalTo g i?) (bLocal : b.LocalTo g j?)
    (apart : ∀ i, i? = some i → j? ≠ some i) {w middle w' : World σ ω} {x : α} {y : β}
    (first : a.Returns w x middle) (second : b.Returns middle y w') :
    ∃ between final, b.Returns w y between ∧ a.Returns between x final ∧
      final.seen g = w'.seen g := by
  have apart' : ∀ j, j? = some j → i? ≠ some j := fun j eq eq' => apart j eq' eq
  obtain ⟨between, bReturns, betweenEq⟩ := bLocal.replay second w (aLocal.shared_eq first).symm
    fun j owned => (aLocal.instances_eq first j (apart' j owned)).symm
  obtain ⟨final, aReturns, finalEq⟩ := aLocal.replay first between (bLocal.shared_eq bReturns)
    fun i owned => bLocal.instances_eq bReturns i (apart i owned)
  refine ⟨between, final, bReturns, aReturns, ?_⟩
  apply World.ext
  · rw [aLocal.shared_eq aReturns, bLocal.shared_eq bReturns, bLocal.shared_eq second,
      aLocal.shared_eq first]
  · intro k
    show final.instances k = w'.instances k
    by_cases ofFirst : i? = some k
    · rw [finalEq k ofFirst, bLocal.instances_eq second k (apart k ofFirst)]
    · rw [aLocal.instances_eq aReturns k ofFirst]
      by_cases ofSecond : j? = some k
      · exact betweenEq k ofSecond
      · rw [bLocal.instances_eq bReturns k ofSecond, bLocal.instances_eq second k ofSecond,
          aLocal.instances_eq first k ofFirst]

theorem localTo_within_view {g : ω → κ} {action : Action (View σ ω) α} (i : InstanceId)
    (quiet : ∀ {v a v'}, action.Returns v a v' → (v'.seen g).shared = (v.seen g).shared)
    (respects : action.Respects (View.seen g)) :
    (action.within (World.view i) (World.putView i)).LocalTo g (some i) where
  shared_eq returned := by
    rcases (returns_within_iff _ _ _ _ _ _).mp returned with ⟨v, inner, rfl⟩
    exact quiet inner
  instances_eq returned j other := by
    rcases (returns_within_iff _ _ _ _ _ _).mp returned with ⟨v, inner, rfl⟩
    exact if_neg fun same => other (congrArg some same.symm)
  replay {w a w'} returned u sharedEq instancesEq := by
    rcases (returns_within_iff _ _ _ _ _ _).mp returned with ⟨v, inner, rfl⟩
    obtain ⟨contextEq, outsideEq⟩ := Prod.mk.inj sharedEq
    have viewEq : (w.view i).seen g = (u.view i).seen g := by
      simp only [World.seen] at contextEq outsideEq
      simp only [View.seen, World.view, contextEq, outsideEq, instancesEq i rfl]
    obtain ⟨v', innerAlike, sameView⟩ := respects viewEq inner
    refine ⟨u.putView i v', (returns_within_iff _ _ _ _ _ _).mpr ⟨v', innerAlike, rfl⟩, ?_⟩
    rintro _ ⟨⟩
    have ownEq : (v.seen g).own = (v'.seen g).own := congrArg View.own sameView
    simpa [World.putView, View.seen] using ownEq.symm

theorem localTo_within_plainView {g : ω → κ} {action : Action (View Unit ω) α}
    (quiet : ∀ {v a v'}, action.Returns v a v' → (v'.seen g).shared = (v.seen g).shared)
    (respects : action.Respects (View.seen g)) :
    (action.within (World.plainView (σ := σ)) World.putPlainView).LocalTo g none where
  shared_eq returned := by
    rcases (returns_within_iff _ _ _ _ _ _).mp returned with ⟨v, inner, rfl⟩
    exact quiet inner
  instances_eq returned j other := by
    rcases (returns_within_iff _ _ _ _ _ _).mp returned with ⟨v, inner, rfl⟩
    rfl
  replay {w a w'} returned u sharedEq _ := by
    rcases (returns_within_iff _ _ _ _ _ _).mp returned with ⟨v, inner, rfl⟩
    obtain ⟨contextEq, outsideEq⟩ := Prod.mk.inj sharedEq
    have viewEq : w.plainView.seen g = u.plainView.seen g := by
      simp only [World.seen] at contextEq outsideEq
      simp only [View.seen, World.plainView, contextEq, outsideEq]
    obtain ⟨v', innerAlike, _⟩ := respects viewEq inner
    exact ⟨_, (returns_within_iff _ _ _ _ _ _).mpr ⟨v', innerAlike, rfl⟩, by simp⟩

theorem LocalTo.map {g : ω → κ} {owner? : Option InstanceId} {action : Action (World σ ω) α}
    {other : Action (World σ ω) β} {f : α → β} (isLocal : action.LocalTo g owner?)
    (otherIff : ∀ w b w', other.Returns w b w' ↔ ∃ a, action.Returns w a w' ∧ f a = b) :
    other.LocalTo g owner? where
  shared_eq returned := by
    rcases (otherIff _ _ _).mp returned with ⟨a, inner, _⟩
    exact isLocal.shared_eq inner
  instances_eq returned := by
    rcases (otherIff _ _ _).mp returned with ⟨a, inner, _⟩
    exact isLocal.instances_eq inner
  replay returned u sharedEq instancesEq := by
    rcases (otherIff _ _ _).mp returned with ⟨a, inner, valueEq⟩
    obtain ⟨u', replayed, ownEq⟩ := isLocal.replay inner u sharedEq instancesEq
    exact ⟨u', (otherIff _ _ _).mpr ⟨a, replayed, valueEq⟩, ownEq⟩

end Action

/-! ## Programs -/

namespace Program

/-- Every step of a program changes the shared part only as `R` allows. -/
def Keeps (R : Context × ω → Context × ω → Prop) : Program σ ω → Prop
  | owned _ rest => rest.Keeps fun v v' => R v.shared v'.shared
  | free rest => rest.Keeps fun v v' => R v.shared v'.shared

/-- A program needs to know no more of the outside than `g` shows. -/
def DependsOn (g : ω → κ) : Program σ ω → Prop
  | owned _ rest => rest.DependsOn (View.seen g)
  | free rest => rest.DependsOn (View.seen g)

theorem Keeps.rest {R : Context × ω → Context × ω → Prop} {p rest : Program σ ω}
    {w w' : World σ ω} (kept : p.Keeps R) (advanced : p.advance.Returns w (.inl rest) w') :
    rest.Keeps R := by
  cases p with
  | owned owner q =>
      rcases (owned_advance_returns_iff owner q w w' _).mp advanced with ⟨rests, stretched, leftEq⟩
      rcases (returns_within_iff _ _ _ _ _ _).mp stretched with ⟨v, inner, _⟩
      cases rests <;> cases leftEq
      exact Proc.Keeps.rest kept inner
  | free q =>
      rcases (free_advance_returns_iff q w w' _).mp advanced with ⟨rests, stretched, leftEq⟩
      rcases (returns_within_iff _ _ _ _ _ _).mp stretched with ⟨v, inner, _⟩
      cases rests <;> cases leftEq
      exact Proc.Keeps.rest kept inner

theorem Keeps.run {R : Context × ω → Context × ω → Prop} {p : Program σ ω} {w w' : World σ ω}
    {invocation : Invocation} (kept : p.Keeps R) (refl : ∀ c, R c c)
    (trans : ∀ {first second third}, R first second → R second third → R first third)
    (returned : p.run.Returns w invocation w') : R w.shared w'.shared := by
  cases p with
  | owned owner q =>
      have kept : q.Keeps fun v v' => R v.shared v'.shared := kept
      rcases (returns_within_iff _ _ _ _ _ _).mp returned with ⟨v, inner, rfl⟩
      exact kept.run (fun _ => refl _) trans inner
  | free q =>
      have kept : q.Keeps fun v v' => R v.shared v'.shared := kept
      rcases (returns_within_iff _ _ _ _ _ _).mp returned with ⟨v, inner, rfl⟩
      exact kept.run (fun _ => refl _) trans inner

theorem DependsOn.rest {g : ω → κ} {p rest : Program σ ω} {w w' : World σ ω}
    (depends : p.DependsOn g) (advanced : p.advance.Returns w (.inl rest) w') :
    rest.DependsOn g := by
  cases p with
  | owned owner q =>
      rcases (owned_advance_returns_iff owner q w w' _).mp advanced with ⟨rests, stretched, leftEq⟩
      rcases (returns_within_iff _ _ _ _ _ _).mp stretched with ⟨v, inner, _⟩
      cases rests <;> cases leftEq
      exact Proc.DependsOn.rest depends inner
  | free q =>
      rcases (free_advance_returns_iff q w w' _).mp advanced with ⟨rests, stretched, leftEq⟩
      rcases (returns_within_iff _ _ _ _ _ _).mp stretched with ⟨v, inner, _⟩
      cases rests <;> cases leftEq
      exact Proc.DependsOn.rest depends inner

theorem DependsOn.run {g : ω → κ} {p : Program σ ω} (depends : p.DependsOn g) :
    p.run.Respects (World.seen g) := by
  cases p with
  | owned owner q => exact Respects.within_view (Proc.DependsOn.run depends) owner
  | free q => exact Respects.within_plainView (Proc.DependsOn.run depends)

/-- A program leaves the context alone, and what is seen of the outside: it may read
both, and change the instance of its handler and the rest of the outside. -/
structure Quiet (g : ω → κ) (p : Program σ ω) : Prop where
  keeps : p.Keeps fun c c' => c'.map id g = c.map id g
  depends : p.DependsOn g

variable {g : ω → κ} {p : Program σ ω}

theorem Quiet.rest {rest : Program σ ω} {w w' : World σ ω} (quiet : p.Quiet g)
    (advanced : p.advance.Returns w (.inl rest) w') : rest.Quiet g :=
  ⟨quiet.keeps.rest advanced, quiet.depends.rest advanced⟩

theorem Quiet.run_localTo (quiet : p.Quiet g) : p.run.LocalTo g p.owner? := by
  rcases quiet with ⟨keeps, depends⟩
  cases p with
  | owned owner q =>
      have kept : q.Keeps fun v v' => (v'.seen g).shared = (v.seen g).shared := keeps
      apply localTo_within_view owner _ (Proc.DependsOn.run depends)
      exact kept.run (fun _ => rfl) fun first second => second.trans first
  | free q =>
      have kept : q.Keeps fun v v' => (v'.seen g).shared = (v.seen g).shared := keeps
      apply localTo_within_plainView _ (Proc.DependsOn.run depends)
      exact kept.run (fun _ => rfl) fun first second => second.trans first

theorem Quiet.advance_localTo (quiet : p.Quiet g) : p.advance.LocalTo g p.owner? := by
  rcases quiet with ⟨keeps, depends⟩
  cases p with
  | owned owner q =>
      have kept : q.Keeps fun v v' => (v'.seen g).shared = (v.seen g).shared := keeps
      have isLocal := localTo_within_view owner
        (fun advanced => kept.advance (fun _ => rfl) (fun first second => second.trans first)
          advanced) (Proc.DependsOn.advance depends)
      exact isLocal.map fun w left w' => owned_advance_returns_iff owner q w w' left
  | free q =>
      have kept : q.Keeps fun v v' => (v'.seen g).shared = (v.seen g).shared := keeps
      have isLocal := localTo_within_plainView (σ := σ)
        (fun advanced => kept.advance (fun _ => rfl) (fun first second => second.trans first)
          advanced) (Proc.DependsOn.advance depends)
      exact isLocal.map fun w left w' => free_advance_returns_iff q w w' left

end Program

end Courier
