import Courier.Proofs.Handler.Procedure

/-!
# Two runs side by side

Two actions are run from states that a relation holds of.  The second mirrors the first if it
returns whenever the first one does, and if another relation holds then of what both have returned
and left.  The rules follow the ways in which actions are put together, so that a statement on two
runs of a bus comes down to one on two runs of a handler.
-/

namespace Courier.Action

variable {S T α β α' β' : Type}

/-- From states that `before` relates, the second action returns whenever the first one does, and
`after` relates what they return and leave. -/
def Mirrors (before : S → S → Prop) (first : Action S α) (second : Action S α')
    (after : α → α' → S → S → Prop) : Prop :=
  ∀ s t a s', before s t → first.Returns s a s' →
    ∃ a' t', second.Returns t a' t' ∧ after a a' s' t'

namespace Mirrors

variable {before before' : S → S → Prop} {first : Action S α} {second : Action S α'}
  {after after' : α → α' → S → S → Prop} {next : α → Action S β} {next' : α' → Action S β'}
  {final : β → β' → S → S → Prop}

theorem mono_left (mirrors : Mirrors before first second after)
    (enter : ∀ {s t}, before' s t → before s t) : Mirrors before' first second after :=
  fun s t a s' related returned => mirrors s t a s' (enter related) returned

theorem mono_right (mirrors : Mirrors before first second after)
    (leave : ∀ {a a' s t}, after a a' s t → after' a a' s t) :
    Mirrors before first second after' := by
  intro s t a s' related returned
  obtain ⟨a', t', returnedToo, relatedThen⟩ := mirrors s t a s' related returned
  exact ⟨a', t', returnedToo, leave relatedThen⟩

/-- What is known of the states beforehand may be used to relate the actions. -/
theorem given (mirrors : ∀ {s t}, before s t → Mirrors before first second after) :
    Mirrors before first second after :=
  fun s t a s' related returned => mirrors related s t a s' related returned

/-- What is known beside the states may be used, too. -/
theorem of_and {known : Prop} (mirrors : known → Mirrors before first second after) :
    Mirrors (fun s t => known ∧ before s t) first second after :=
  fun s t a s' ⟨holds, related⟩ returned => mirrors holds s t a s' related returned

theorem of_exists {ι : Type} {related : ι → S → S → Prop}
    (mirrors : ∀ i, Mirrors (related i) first second after) :
    Mirrors (fun s t => ∃ i, related i s t) first second after :=
  fun s t a s' ⟨i, relatedStates⟩ returned => mirrors i s t a s' relatedStates returned

theorem pure {a : α} {a' : α'} (related : ∀ {s t}, before s t → after a a' s t) :
    Mirrors before (pure a) (pure a') after := by
  intro s t b s' relatedStates returned
  rcases (returns_pure_iff a b s s').mp returned with ⟨rfl, rfl⟩
  exact ⟨a', t, (returns_pure_iff a' a' t t).mpr ⟨rfl, rfl⟩, related relatedStates⟩

theorem bind (mirrors : Mirrors before first second after)
    (further : ∀ a a', Mirrors (after a a') (next a) (next' a') final) :
    Mirrors before (first >>= next) (second >>= next') final := by
  intro s t b s' related returned
  obtain ⟨a, middle, returnedFirst, returnedNext⟩ := (returns_bind_iff _ _ _ _ _).mp returned
  obtain ⟨a', middle', returnedSecond, relatedMiddle⟩ := mirrors s t a middle related returnedFirst
  obtain ⟨b', t', returnedNext', relatedEnd⟩ :=
    further a a' middle middle' b s' relatedMiddle returnedNext
  exact ⟨b', t', (returns_bind_iff _ _ _ _ _).mpr ⟨a', middle', returnedSecond, returnedNext'⟩,
    relatedEnd⟩

theorem tell (lines lines' : List LogLine) :
    Mirrors before (tell lines) (tell lines') fun _ _ => before := by
  intro s t a s' related returned
  obtain rfl := (returns_tell_iff lines s s' a).mp returned
  exact ⟨(), t, (returns_tell_iff lines' t t ()).mpr rfl, related⟩

theorem cutOff : Mirrors before cutOff second after :=
  fun _ _ _ _ _ returned => absurd returned (not_returns_cutOff _ _ _)

theorem ensuring {cleanup cleanup' : Action S Unit}
    (mirrors : Mirrors before first second after)
    (further : ∀ a a', Mirrors (after a a') cleanup cleanup' fun _ _ => after' a a') :
    Mirrors before (first.ensuring cleanup) (second.ensuring cleanup') after' := by
  intro s t a s' related returned
  obtain ⟨middle, returnedFirst, cleaned⟩ := (returns_ensuring_iff _ _ _ _ _).mp returned
  obtain ⟨a', middle', returnedSecond, relatedMiddle⟩ := mirrors s t a middle related returnedFirst
  obtain ⟨_, t', cleaned', relatedEnd⟩ := further a a' middle middle' () s' relatedMiddle cleaned
  exact ⟨a', t', (returns_ensuring_iff _ _ _ _ _).mpr ⟨middle', returnedSecond, cleaned'⟩,
    relatedEnd⟩

/-- Actions on parts of the states, which the parts may be entered with and left with. -/
theorem within {inner : T → T → Prop} {leaves : α → α' → T → T → Prop} {look : S → T}
    {put : T → S → S} {action : Action T α} {action' : Action T α'}
    (mirrors : Mirrors inner action action' leaves)
    (enter : ∀ {s t}, before s t → inner (look s) (look t))
    (leave : ∀ {s t a a' u v}, before s t → leaves a a' u v → after a a' (put u s) (put v t)) :
    Mirrors before (action.within look put) (action'.within look put) after := by
  intro s t a s' related returned
  rcases (returns_within_iff _ _ _ _ _ _).mp returned with ⟨u, returnedInner, rfl⟩
  obtain ⟨a', v, returnedInner', relatedInner⟩ := mirrors _ _ a u (enter related) returnedInner
  exact ⟨a', put v t, (returns_within_iff _ _ _ _ _ _).mpr ⟨v, returnedInner', rfl⟩,
    leave related relatedInner⟩

/-! ## Procedures -/

theorem run_bind {p : Proc S α} {q : Proc S α'} {f : α → Proc S β} {g : α' → Proc S β'}
    (mirrors : Mirrors before p.run q.run after)
    (further : ∀ a a', Mirrors (after a a') (f a).run (g a').run final) :
    Mirrors before (p >>= f).run (q >>= g).run final := by
  have runEq : ∀ {γ δ : Type} (p : Proc S γ) (f : γ → Proc S δ),
      (p >>= f).run = p.run >>= fun a => (f a).run := Proc.run_bind
  rw [runEq, runEq]
  exact mirrors.bind further

theorem run_pure {a : α} {a' : α'} (related : ∀ {s t}, before s t → after a a' s t) :
    Mirrors before (Pure.pure a : Proc S α).run (Pure.pure a' : Proc S α').run after :=
  pure related

theorem run_get : Mirrors before (Proc.get : Proc S S).run (Proc.get : Proc S S).run
    fun a a' s t => a = s ∧ a' = t ∧ before s t := by
  rintro s t a s' related ⟨⟨⟩, rfl⟩
  exact ⟨t, t, ⟨rfl, rfl⟩, rfl, rfl, related⟩

theorem run_modify {change change' : S → S} {after : S → S → Prop}
    (related : ∀ {s t}, before s t → after (change s) (change' t)) :
    Mirrors before (Proc.modify change).run (Proc.modify change').run fun _ _ => after := by
  rintro s t a s' relatedStates ⟨⟨⟩, rfl⟩
  exact ⟨(), change' t, ⟨rfl, rfl⟩, related relatedStates⟩

theorem run_tell (line line' : LogLine) :
    Mirrors before (Proc.tell line).run (Proc.tell line').run fun _ _ => before := by
  rintro s t a s' related ⟨⟨⟩, rfl⟩
  exact ⟨(), t, ⟨rfl, rfl⟩, related⟩

theorem run_within {inner : T → T → Prop} {leaves : α → α' → T → T → Prop} {look : S → T}
    {put : T → S → S} (part : IsPart look put) {p : Proc T α} {q : Proc T α'}
    (mirrors : Mirrors inner p.run q.run leaves)
    (enter : ∀ {s t}, before s t → inner (look s) (look t))
    (leave : ∀ {s t a a' u v}, before s t → leaves a a' u v → after a a' (put u s) (put v t)) :
    Mirrors before (p.within look put).run (q.within look put).run after := by
  intro s t a s' related returned
  rcases (Proc.returns_run_within_iff part _ _ _ _).mp returned with ⟨u, returnedInner, rfl⟩
  obtain ⟨a', v, returnedInner', relatedInner⟩ := mirrors _ _ a u (enter related) returnedInner
  exact ⟨a', put v t, (Proc.returns_run_within_iff part _ _ _ _).mpr ⟨v, returnedInner', rfl⟩,
    leave related relatedInner⟩

end Mirrors

end Courier.Action
