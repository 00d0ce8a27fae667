import Courier.Action

/-!
# Actions that match

Two actions match along a relation between their states if they end in the same
way wherever they start on related states, with related values, and leave related
states again.  What they write to the log is not compared.
-/

namespace Courier

variable {α α' β β' : Type}

/-- Two actions end in the same way, and `value` relates what they return. -/
inductive Outcome.Matches (value : α → β → Prop) : Outcome α → Outcome β → Prop
  | returned {a : α} {b : β} : value a b → Matches value (.returned a) (.returned b)
  | crashed (text : String) : Matches value (.crashed text) (.crashed text)
  | unfinished : Matches value .unfinished .unfinished

/-- Outcomes that match in their values are equal. -/
@[simp]
theorem Outcome.matches_eq_iff (o o' : Outcome α) : o.Matches Eq o' ↔ o = o' := by
  constructor
  · rintro (⟨rfl⟩ | _ | _) <;> rfl
  · rintro rfl
    cases o with
    | returned a => exact .returned rfl
    | crashed text => exact .crashed text
    | unfinished => exact .unfinished

namespace Action

variable {S T : Type} {state : S → T → Prop} {value : α → β → Prop} {value' : α' → β' → Prop}

/-- On related states the actions end in the same way, with related values and
related states. -/
def Matches (state : S → T → Prop) (value : α → β → Prop) (first : Action S α)
    (second : Action T β) : Prop :=
  ∀ ⦃s t⦄, state s t →
    (first s).outcome.Matches value (second t).outcome ∧ state (first s).state (second t).state

namespace Matches

/-- Every action matches itself. -/
theorem refl (action : Action S α) : Matches Eq Eq action action := by
  rintro s _ rfl
  exact ⟨(Outcome.matches_eq_iff _ _).mpr rfl, rfl⟩

theorem pure {a : α} {b : β} (related : value a b) :
    Matches state value (pure a : Action S α) (pure b : Action T β) := by
  intro s t start
  exact ⟨.returned related, start⟩

theorem crash (text : String) :
    Matches state value (crash text : Action S α) (crash text : Action T β) := by
  intro s t start
  exact ⟨.crashed text, start⟩

theorem cutOff : Matches state value (cutOff : Action S α) (cutOff : Action T β) := by
  intro s t start
  exact ⟨.unfinished, start⟩

theorem get : Matches state state (get : Action S S) (get : Action T T) := by
  intro s t start
  exact ⟨.returned start, start⟩

theorem modify {change : S → S} {change' : T → T}
    (changed : ∀ s t, state s t → state (change s) (change' t)) :
    Matches state (fun _ _ => True) (modify change) (modify change') := by
  intro s t start
  exact ⟨.returned trivial, changed s t start⟩

/-- Actions on parts of the state match on the whole if they match on the parts. -/
theorem within {S' T' : Type} {part : S' → T' → Prop} {look : S → S'} {put : S' → S → S}
    {look' : T → T'} {put' : T' → T → T} {first : Action S' α} {second : Action T' β}
    (matched : Matches part value first second)
    (looked : ∀ s t, state s t → part (look s) (look' t))
    (putBack : ∀ s t u v, state s t → part u v → state (put u s) (put' v t)) :
    Matches state value (first.within look put) (second.within look' put') := by
  intro s t start
  obtain ⟨outcomes, parts⟩ := matched (looked s t start)
  exact ⟨outcomes, putBack s t _ _ start parts⟩

/-- Repairs that match may follow a crash. -/
theorem onCrash {first : Action S α} {second : Action T β}
    (matched : Matches state value first second)
    {repair : S → S} {repair' : T → T}
    (repaired : ∀ s t, state s t → state (repair s) (repair' t)) :
    Matches state value (first.onCrash repair) (second.onCrash repair') := by
  intro s t start
  have ended := matched start
  unfold Action.onCrash
  revert ended
  rcases first s with ⟨outcome, s', log⟩
  rcases second t with ⟨outcome', t', log'⟩
  rintro ⟨outcomes, states⟩
  cases outcomes with
  | returned related => exact ⟨.returned related, states⟩
  | crashed text => exact ⟨.crashed text, repaired _ _ states⟩
  | unfinished => exact ⟨.unfinished, states⟩

/-- Actions that follow each other match if each matches its counterpart. -/
theorem bind {first : Action S α} {second : Action T β} {next : α → Action S α'}
    {next' : β → Action T β'} (heads : Matches state value first second)
    (tails : ∀ a b, value a b → Matches state value' (next a) (next' b)) :
    Matches state value' (first >>= next) (second >>= next') := by
  intro s t start
  show ((first.bind next s).outcome.Matches value' (second.bind next' t).outcome) ∧
    state (first.bind next s).state (second.bind next' t).state
  simp only [Action.bind]
  have matched := heads start
  revert matched
  rcases first s with ⟨outcome, s', log⟩
  rcases second t with ⟨outcome', t', log'⟩
  rintro ⟨outcomes, states⟩
  cases outcomes with
  | returned related => exact tails _ _ related states
  | crashed text => exact ⟨.crashed text, states⟩
  | unfinished => exact ⟨.unfinished, states⟩

/-- An action is not changed by what is logged before it. -/
theorem tell_bind (lines : List LogLine) {next : Unit → Action S α} {second : Action T β}
    (rest : Matches state value (next ()) second) :
    Matches state value (Action.tell lines >>= next) second := by
  intro s t start
  exact rest start

theorem bind_tell (lines : List LogLine) {first : Action S α} {next : Unit → Action T β}
    (rest : Matches state value first (next ())) :
    Matches state value first (Action.tell lines >>= next) := by
  intro s t start
  exact rest start

/-- Where states and values are the same, so are outcome and final state. -/
theorem eq {first second : Action S α} (alike : Matches Eq Eq first second) (s : S) :
    (first s).outcome = (second s).outcome ∧ (first s).state = (second s).state := by
  obtain ⟨outcomes, states⟩ := alike (Eq.refl s)
  exact ⟨(Outcome.matches_eq_iff _ _).mp outcomes, states⟩

end Matches

end Action

end Courier
