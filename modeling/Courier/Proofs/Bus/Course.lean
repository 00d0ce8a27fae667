import Courier.Proofs.Bus.Drain

/-!
# The course of a call

A call takes turn after turn from the front of its queue, and what a turn emits
joins the end.  `Progress.Takes` says just that, without the results and errors of
the call.  The call goes on after every turn of an event, and after that of a
command whose handler has succeeded; any other turn of a command ends it.

The main statements are `drains_ok_iff` and `drains_error_iff`: the loop of a call
comes to its results when the turns leave nothing in the queue, and to an error when
they leave in front a command whose turn ends the call.
-/

namespace Courier

namespace Turn

/-- A turn after which the call goes on. -/
inductive Continues : Turn → Prop
  | event (e : Event) (invocations : List (String × Invocation)) :
      Continues ⟨.event e, invocations⟩
  | command (c : Command) (handler : String) (output : Value) (emitted : List Message)
      (others : List (String × Invocation)) :
      Continues ⟨.command c, (handler, ⟨.ok output, emitted⟩) :: others⟩

/-- A turn that ends the call with an error. -/
inductive Aborts : Turn → DispatchError → Prop
  | missing (c : Command) : Aborts ⟨.command c, []⟩ (.commandHandlerMissing c.type.name)
  | failed (c : Command) (handler : String) (source : HandlerError) (emitted : List Message)
      (others : List (String × Invocation)) :
      Aborts ⟨.command c, (handler, ⟨.error source, emitted⟩) :: others⟩
        (.commandFailed c.type.name handler source)

theorem settle_eq_ok_iff (turn : Turn) (p next : Progress) :
    turn.settle p = .ok next ↔ turn.Continues ∧ p.after turn = next := by
  constructor
  · intro settled
    refine ⟨?_, (settle_eq_ok settled).symm⟩
    rcases turn with ⟨m, invocations⟩
    cases m with
    | event e => exact .event e invocations
    | command c =>
        rcases invocations with _ | ⟨⟨handler, ⟨result, emitted⟩⟩, others⟩
        · cases settled
        · cases result with
          | ok output => exact .command c handler output emitted others
          | error source => cases settled
  · rintro ⟨continues, rfl⟩
    cases continues <;> rfl

theorem settle_eq_error_iff (turn : Turn) (p : Progress) (e : DispatchError) :
    turn.settle p = .error e ↔ turn.Aborts e := by
  constructor
  · intro settled
    rcases turn with ⟨m, invocations⟩
    cases m with
    | event e => cases settled
    | command c =>
        rcases invocations with _ | ⟨⟨handler, ⟨result, emitted⟩⟩, others⟩
        · cases settled
          exact .missing c
        · cases result with
          | ok output => cases settled
          | error source =>
              cases settled
              exact .failed c handler source emitted others
  · intro aborts
    cases aborts <;> rfl

end Turn

namespace Progress

variable {S : Type}

/-- What the handlers of a message make of it. -/
abbrev Serving (S : Type) : Type :=
  Message → S → List (String × Invocation) → S → Prop

/-- Turns that are taken from a queue one after the other, with the queue that they
leave.  Each of them is that of the message in front. -/
inductive Takes (serving : Serving S) :
    List Message → S → List Turn → List Message → S → Prop
  | nothing {queue : List Message} {s : S} : Takes serving queue s [] queue s
  | turn {m : Message} {invocations : List (String × Invocation)} {rest left : List Message}
      {turns : List Turn} {s middle s' : S} :
      serving m s invocations middle → Turn.Continues ⟨m, invocations⟩ →
      Takes serving (rest ++ Turn.emitted ⟨m, invocations⟩) middle turns left s' →
      Takes serving (m :: rest) s (⟨m, invocations⟩ :: turns) left s'

/-- Turns may go on from the queue that others have left. -/
theorem Takes.append {serving : Serving S} {queue between left : List Message}
    {turns more : List Turn} {s middle s' : S} (takes : Takes serving queue s turns between middle)
    (takesMore : Takes serving between middle more left s') :
    Takes serving queue s (turns ++ more) left s' := by
  induction takes with
  | nothing => exact takesMore
  | turn served continues _ ih => exact .turn served continues (ih takesMore)

/-- Where handlers serve a message in one way only, turns that leave nothing in the queue begin
with any that are taken from it. -/
theorem Takes.prefix_of_drained {serving : Serving S} {queue left : List Message}
    {turns first : List Turn} {s s' s'' : S} (drained : Takes serving queue s turns [] s')
    (takes : Takes serving queue s first left s'')
    (unique : ∀ {m s invocations others s' s''}, serving m s invocations s' →
      serving m s others s'' → invocations = others ∧ s' = s'') : first <+: turns := by
  induction takes generalizing turns with
  | nothing => exact List.nil_prefix
  | turn served _ _ ih =>
      cases drained with
      | turn servedToo _ drainedRest =>
          obtain ⟨rfl, rfl⟩ := unique served servedToo
          exact List.cons_prefix_cons.mpr ⟨rfl, ih drainedRest⟩

variable {dispatching : Dispatching S} {serving : Serving S}

/-- The loop comes to its results with the turn that leaves nothing in the queue. -/
theorem drains_ok_iff
    (turned : ∀ m p s s' r, dispatching m p s r s' ↔
      ∃ invocations, serving m s invocations s' ∧ Turn.settle ⟨m, invocations⟩ p = r)
    (p : Progress) (s s' : S) (taken : List Message) (results : List Dispatched) :
    Drains dispatching p s taken (.ok results) s' ↔
      ∃ turns, Takes serving p.queue s turns [] s' ∧ taken = turns.map (·.message) ∧
        results = p.results ++ turns.flatMap Turn.results := by
  constructor
  · intro drained
    generalize outcome : Except.ok results = r at drained
    induction drained with
    | emptied =>
        cases outcome
        exact ⟨[], .nothing, rfl, by simp⟩
    | failed _ => cases outcome
    | took dispatched _ ih =>
        obtain ⟨invocations, served, settled⟩ := (turned _ _ _ _ _).mp dispatched
        rcases (Turn.settle_eq_ok_iff _ _ _).mp settled with ⟨continues, rfl⟩
        obtain ⟨turns, takes, rfl, rfl⟩ := ih outcome
        exact ⟨⟨_, invocations⟩ :: turns, .turn served continues takes, rfl, by simp [after]⟩
  · rintro ⟨turns, takes, rfl, rfl⟩
    rcases p with ⟨queue, results⟩
    simp only at takes ⊢
    generalize empty : ([] : List Message) = left at takes
    induction takes generalizing results with
    | nothing =>
        subst empty
        simpa using .emptied
    | @turn m invocations rest left turns s middle s' served continues _ ih =>
        have dispatched := (turned m ⟨rest, results⟩ s middle (.ok (after _ ⟨m, invocations⟩))).mpr
          ⟨invocations, served, (Turn.settle_eq_ok_iff _ _ _).mpr ⟨continues, rfl⟩⟩
        simpa using Drains.took dispatched (ih (results ++ Turn.results ⟨m, invocations⟩) empty)

/-- The loop comes to an error with the first turn that ends the call. -/
theorem drains_error_iff
    (turned : ∀ m p s s' r, dispatching m p s r s' ↔
      ∃ invocations, serving m s invocations s' ∧ Turn.settle ⟨m, invocations⟩ p = r)
    (p : Progress) (s s' : S) (taken : List Message) (e : DispatchError) :
    Drains dispatching p s taken (.error e) s' ↔
      ∃ turns m behind middle invocations, Takes serving p.queue s turns (m :: behind) middle ∧
        serving m middle invocations s' ∧ Turn.Aborts ⟨m, invocations⟩ e ∧
        taken = turns.map (·.message) ++ [m] := by
  constructor
  · intro drained
    generalize outcome : Except.error e = r at drained
    induction drained with
    | emptied => cases outcome
    | @failed m rest results s s' _ dispatched =>
        cases outcome
        obtain ⟨invocations, served, settled⟩ := (turned _ _ _ _ _).mp dispatched
        exact ⟨[], m, rest, s, invocations, .nothing, served,
          (Turn.settle_eq_error_iff _ _ _).mp settled, rfl⟩
    | took dispatched _ ih =>
        obtain ⟨invocations, served, settled⟩ := (turned _ _ _ _ _).mp dispatched
        rcases (Turn.settle_eq_ok_iff _ _ _).mp settled with ⟨continues, rfl⟩
        obtain ⟨turns, m, behind, middle, last, takes, servedLast, aborts, rfl⟩ := ih outcome
        exact ⟨⟨_, invocations⟩ :: turns, m, behind, middle, last,
          .turn served continues takes, servedLast, aborts, rfl⟩
  · rintro ⟨turns, m, behind, middle, last, takes, served, aborts, rfl⟩
    rcases p with ⟨queue, results⟩
    simp only at takes
    generalize front : m :: behind = left at takes
    induction takes generalizing results with
    | nothing =>
        subst front
        have settled := (Turn.settle_eq_error_iff _ ⟨behind, results⟩ e).mpr aborts
        exact .failed ((turned _ _ _ _ _).mpr ⟨last, served, settled⟩)
    | @turn m' invocations rest left turns s between _ servedFirst continues _ ih =>
        have dispatched :=
          (turned m' ⟨rest, results⟩ s between (.ok (after _ ⟨m', invocations⟩))).mpr
            ⟨invocations, servedFirst, (Turn.settle_eq_ok_iff _ _ _).mpr ⟨continues, rfl⟩⟩
        exact .took dispatched (ih served _ front)

end Progress

end Courier
