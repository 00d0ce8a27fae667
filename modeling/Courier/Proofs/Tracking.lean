import Courier.Proofs.Matching

/-!
# Actions that track each other

An action tracks another one if it ends in the same way wherever they start on related states.
The states that they leave are related again where they return, and by a relation of their own
where they crash: what holds at a crash may be less than what holds between actions.
-/

namespace Courier

variable {S T α β α' β' : Type}

/-- Two runs have ended in the same way, with related values, and have left related states. -/
structure Run.Tracks (kept broken : S → T → Prop) (value : α → β → Prop) (first : Run S α)
    (second : Run T β) : Prop where
  outcome : first.outcome.Matches value second.outcome
  returned : ∀ a, first.outcome = .returned a → kept first.state second.state
  crashed : ∀ text, first.outcome = .crashed text → broken first.state second.state

namespace Action

variable {kept broken : S → T → Prop} {value : α → β → Prop} {value' : α' → β' → Prop}

/-- On related states the first action ends as the second does. -/
def Tracks (kept broken : S → T → Prop) (value : α → β → Prop) (first : Action S α)
    (second : Action T β) : Prop :=
  ∀ ⦃s t⦄, kept s t → (first s).Tracks kept broken value (second t)

namespace Tracks

theorem pure {a : α} {b : β} (related : value a b) :
    Tracks kept broken value (pure a : Action S α) (pure b : Action T β) := by
  intro s t start
  exact ⟨.returned related, fun _ _ => start, by rintro _ ⟨⟩⟩

theorem tell (lines lines' : List LogLine) :
    Tracks kept broken (fun _ _ => True) (tell lines : Action S Unit)
      (tell lines' : Action T Unit) := by
  intro s t start
  exact ⟨.returned trivial, fun _ _ => start, by rintro _ ⟨⟩⟩

theorem cutOff : Tracks kept broken value (cutOff : Action S α) (cutOff : Action T β) := by
  intro s t start
  exact ⟨.unfinished, by rintro _ ⟨⟩, by rintro _ ⟨⟩⟩

/-- Actions that follow each other track those that follow each other. -/
theorem bind {first : Action S α} {second : Action T β} {next : α → Action S α'}
    {next' : β → Action T β'} (heads : Tracks kept broken value first second)
    (tails : ∀ a b, value a b → Tracks kept broken value' (next a) (next' b)) :
    Tracks kept broken value' (first >>= next) (second >>= next') := by
  intro s t start
  show (first.bind next s).Tracks kept broken value' (second.bind next' t)
  simp only [Action.bind]
  have tracked := heads start
  revert tracked
  rcases first s with ⟨outcome, s', log⟩
  rcases second t with ⟨outcome', t', log'⟩
  rintro ⟨outcomes, returned, crashed⟩
  cases outcomes with
  | returned related =>
      have continued := tails _ _ related (returned _ rfl)
      exact ⟨continued.outcome, continued.returned, continued.crashed⟩
  | crashed text =>
      exact ⟨.crashed text, by rintro _ ⟨⟩, fun _ _ => crashed text rfl⟩
  | unfinished =>
      exact ⟨.unfinished, by rintro _ ⟨⟩, by rintro _ ⟨⟩⟩

/-- What is logged before two actions makes no difference. -/
theorem tell_bind (lines lines' : List LogLine) {next : Unit → Action S α}
    {next' : Unit → Action T β} (rest : Tracks kept broken value (next ()) (next' ())) :
    Tracks kept broken value (Action.tell lines >>= next) (Action.tell lines' >>= next') :=
  (tell lines lines').bind fun _ _ _ => rest

end Tracks

end Action

end Courier
