import Courier.Bus.Progress
import Courier.Proofs.Returns

/-!
# Handlers in turn

The plainest way for a list of handlers to have a message: one after the other,
each to its end, and each on the world that the one before it has left.
-/

namespace Courier

/-- The handlers that are registered for the type of a message, in registration
order; a type without registration has none. -/
def Registry.registered {η : Type} (r : Registry η) : Message → List η
  | .event e => (r.eventHandlers? e.type).getD []
  | .command c => (r.commandHandler? c.type).toList

namespace Handler

variable {σ ω : Type}

/-- The handlers have the message in turn; the list holds their invocations, each
with the name of its handler. -/
inductive InTurn (x : Extra) (m : Message) :
    List (Handler σ ω) → World σ ω → List (String × Invocation) → World σ ω → Prop
  | nobody {w : World σ ω} : InTurn x m [] w [] w
  | next {h : Handler σ ω} {rest : List (Handler σ ω)} {w middle w' : World σ ω}
      {invocation : Invocation} {invocations : List (String × Invocation)} :
      (h.invoke m x).Returns w invocation middle → InTurn x m rest middle invocations w' →
      InTurn x m (h :: rest) w ((h.name, invocation) :: invocations) w'

@[simp]
theorem inTurn_nil_iff (x : Extra) (m : Message) (w w' : World σ ω)
    (invocations : List (String × Invocation)) :
    InTurn x m [] w invocations w' ↔ invocations = [] ∧ w = w' := by
  constructor
  · rintro ⟨⟩
    exact ⟨rfl, rfl⟩
  · rintro ⟨rfl, rfl⟩
    exact .nobody

theorem inTurn_cons_iff (x : Extra) (m : Message) (h : Handler σ ω) (rest : List (Handler σ ω))
    (w w' : World σ ω) (invocations : List (String × Invocation)) :
    InTurn x m (h :: rest) w invocations w' ↔
      ∃ invocation middle others, (h.invoke m x).Returns w invocation middle ∧
        InTurn x m rest middle others w' ∧ invocations = (h.name, invocation) :: others := by
  constructor
  · rintro (_ | ⟨invoked, served⟩)
    exact ⟨_, _, _, invoked, served, rfl⟩
  · rintro ⟨_, _, _, invoked, served, rfl⟩
    exact .next invoked served

/-- A single handler has the message alone. -/
theorem inTurn_singleton_iff (x : Extra) (m : Message) (h : Handler σ ω) (w w' : World σ ω)
    (invocations : List (String × Invocation)) :
    InTurn x m [h] w invocations w' ↔
      ∃ invocation, (h.invoke m x).Returns w invocation w' ∧
        invocations = [(h.name, invocation)] := by
  rw [inTurn_cons_iff]
  constructor
  · rintro ⟨invocation, _, _, invoked, served, rfl⟩
    rcases (inTurn_nil_iff x m _ w' _).mp served with ⟨rfl, rfl⟩
    exact ⟨invocation, invoked, rfl⟩
  · rintro ⟨invocation, invoked, rfl⟩
    exact ⟨invocation, w', [], invoked, .nobody, rfl⟩

/-- Every handler is invoked once, in the order of the list. -/
theorem InTurn.names {x : Extra} {m : Message} {handlers : List (Handler σ ω)}
    {w w' : World σ ω} {invocations : List (String × Invocation)}
    (served : InTurn x m handlers w invocations w') :
    invocations.map (·.1) = handlers.map (·.name) := by
  induction served with
  | nobody => rfl
  | next _ _ ih => simp [ih]

/-- Every invocation is one of a handler of the list. -/
theorem InTurn.invoked {x : Extra} {m : Message} {handlers : List (Handler σ ω)}
    {w w' : World σ ω} {invocations : List (String × Invocation)}
    (served : InTurn x m handlers w invocations w') :
    ∀ entry ∈ invocations, ∃ h ∈ handlers, ∃ middle middle',
      (h.invoke m x).Returns middle entry.2 middle' := by
  induction served with
  | nobody => simp
  | next invoked _ ih =>
      intro entry mem
      rcases List.mem_cons.mp mem with rfl | mem
      · exact ⟨_, List.mem_cons_self, _, _, invoked⟩
      · obtain ⟨h, memHandlers, invokedAs⟩ := ih entry mem
        exact ⟨h, List.mem_cons_of_mem _ memHandlers, invokedAs⟩

/-- Handlers that have a message in turn do so in one way only. -/
theorem InTurn.unique {x : Extra} {m : Message} {handlers : List (Handler σ ω)}
    {w first second : World σ ω} {invocations others : List (String × Invocation)}
    (served : InTurn x m handlers w invocations first)
    (servedToo : InTurn x m handlers w others second) :
    invocations = others ∧ first = second := by
  induction served generalizing others with
  | nobody => exact (inTurn_nil_iff x m _ second others).mp servedToo |>.imp_left Eq.symm
  | next invoked _ ih =>
      cases servedToo with
      | next invokedToo servedRest =>
          rcases invoked.unique invokedToo with ⟨rfl, rfl⟩
          rcases ih servedRest with ⟨rfl, rfl⟩
          exact ⟨rfl, rfl⟩

/-- Handlers that return have their turn. -/
theorem exists_inTurn {x : Extra} {m : Message} {handlers : List (Handler σ ω)}
    (returns : ∀ h ∈ handlers, ∀ w, ∃ invocation w', (h.invoke m x).Returns w invocation w')
    (w : World σ ω) : ∃ invocations w', InTurn x m handlers w invocations w' := by
  induction handlers generalizing w with
  | nil => exact ⟨[], w, .nobody⟩
  | cons h rest ih =>
      obtain ⟨invocation, middle, invoked⟩ := returns h List.mem_cons_self w
      obtain ⟨invocations, w', served⟩ :=
        ih (fun h mem => returns h (List.mem_cons_of_mem _ mem)) middle
      exact ⟨_, w', .next invoked served⟩

end Handler

end Courier
