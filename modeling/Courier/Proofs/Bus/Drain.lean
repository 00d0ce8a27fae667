import Courier.Proofs.Bus.Turn

/-!
# Draining the queue

The loop of a call takes one message after the other from the front of its
queue.  `Progress.Drains` is that loop as a relation, with the messages in the
order in which they were taken; the number of steps that `Progress.drain` is
allowed only decides whether it gets to the end.

The main statement is `Progress.Drains.fifo`: what has been taken is what was
queued at first, and behind it what the turns have emitted, turn by turn.
-/

namespace Courier.Progress

variable {S S' : Type}

/-- What becomes of the progress of a call and of a state when a message that
has been taken from the queue is handled. -/
abbrev Dispatching (S : Type) : Type :=
  Message → Progress → S → Except DispatchError Progress → S → Prop

/-- The loop of a call, from a progress and a state to the result of the call and
the state it leaves.  The list holds the messages that were taken from the queue,
in this order. -/
inductive Drains (dispatching : Dispatching S) :
    Progress → S → List Message → CallResult → S → Prop
  | emptied {results : List Dispatched} {s : S} :
      Drains dispatching ⟨[], results⟩ s [] (.ok results) s
  | failed {m : Message} {rest : List Message} {results : List Dispatched} {s s' : S}
      {e : DispatchError} :
      dispatching m ⟨rest, results⟩ s (.error e) s' →
      Drains dispatching ⟨m :: rest, results⟩ s [m] (.error e) s'
  | took {m : Message} {rest taken : List Message} {results : List Dispatched}
      {s middle s' : S} {next : Progress} {r : CallResult} :
      dispatching m ⟨rest, results⟩ s (.ok next) middle →
      Drains dispatching next middle taken r s' →
      Drains dispatching ⟨m :: rest, results⟩ s (m :: taken) r s'

/-- The loop returns exactly when it comes to its end within the steps that it is
allowed. -/
theorem drain_returns_iff (dispatch : Message → Progress → Action S (Except DispatchError Progress))
    (budget : Nat) (p : Progress) (s s' : S) (r : CallResult) :
    (drain dispatch budget p).Returns s r s' ↔
      ∃ taken, taken.length ≤ budget ∧
        Drains (fun m p => (dispatch m p).Returns) p s taken r s' := by
  induction budget generalizing p s with
  | zero =>
      rcases p with ⟨queue, results⟩
      cases queue with
      | nil =>
          simp only [drain, List.isEmpty_nil, if_true, Action.returns_pure_iff]
          constructor
          · rintro ⟨rfl, rfl⟩
            exact ⟨[], Nat.le_refl 0, .emptied⟩
          · rintro ⟨_, _, drained⟩
            cases drained
            exact ⟨rfl, rfl⟩
      | cons m rest =>
          simp only [drain, List.isEmpty_cons, Bool.false_eq_true, if_false,
            Action.not_returns_cutOff, false_iff]
          rintro ⟨taken, bound, drained⟩
          cases drained <;> simp at bound
  | succ budget ih =>
      rcases p with ⟨queue, results⟩
      cases queue with
      | nil =>
          simp only [drain, Action.returns_pure_iff]
          constructor
          · rintro ⟨rfl, rfl⟩
            exact ⟨[], Nat.zero_le _, .emptied⟩
          · rintro ⟨_, _, drained⟩
            cases drained
            exact ⟨rfl, rfl⟩
      | cons m rest =>
          simp only [drain, Action.returns_bind_iff]
          constructor
          · rintro ⟨outcome, middle, dispatched, continued⟩
            cases outcome with
            | error e =>
                simp only [Action.returns_pure_iff] at continued
                rcases continued with ⟨rfl, rfl⟩
                exact ⟨[m], by simp, .failed dispatched⟩
            | ok next =>
                rcases (ih next middle).mp continued with ⟨taken, bound, drained⟩
                exact ⟨m :: taken, by simpa using bound, .took dispatched drained⟩
          · rintro ⟨_, bound, drained⟩
            cases drained with
            | failed dispatched => exact ⟨_, _, dispatched, by simp⟩
            | took dispatched drained =>
                exact ⟨_, _, dispatched, (ih _ _).mpr ⟨_, by simpa using bound, drained⟩⟩

/-- Two ways of handling messages that agree, state by state along `related`,
drain a queue alike. -/
theorem Drains.transport {first : Dispatching S} {second : Dispatching S'} {p : Progress}
    {s s' : S} {t : S'} {taken : List Message} {r : CallResult}
    (drained : Drains first p s taken r s') (related : S → S' → Prop) (start : related s t)
    (agree : ∀ {m p s r s' t}, related s t → first m p s r s' →
      ∃ t', related s' t' ∧ second m p t r t') :
    ∃ t', related s' t' ∧ Drains second p t taken r t' := by
  induction drained generalizing t with
  | emptied => exact ⟨t, start, .emptied⟩
  | failed dispatched =>
      obtain ⟨t', finish, dispatched⟩ := agree start dispatched
      exact ⟨t', finish, .failed dispatched⟩
  | took dispatched _ ih =>
      obtain ⟨middle, reached, dispatched⟩ := agree start dispatched
      obtain ⟨t', finish, drained⟩ := ih reached
      exact ⟨t', finish, .took dispatched drained⟩

theorem Drains.mono {first second : Dispatching S}
    (implies : ∀ {m p s r s'}, first m p s r s' → second m p s r s')
    {p : Progress} {s s' : S} {taken : List Message} {r : CallResult}
    (drained : Drains first p s taken r s') : Drains second p s taken r s' := by
  induction drained with
  | emptied => exact .emptied
  | failed dispatched => exact .failed (implies dispatched)
  | took dispatched _ ih => exact .took (implies dispatched) ih

/-- Where the handling of every message comes out in one way only, so does the
draining of a queue. -/
theorem Drains.unique {dispatching : Dispatching S}
    (single : ∀ {m p s r r' s' s''}, dispatching m p s r s' → dispatching m p s r' s'' →
      r = r' ∧ s' = s'')
    {p : Progress} {s first second : S} {taken others : List Message} {r r' : CallResult}
    (drained : Drains dispatching p s taken r first)
    (drainedToo : Drains dispatching p s others r' second) :
    taken = others ∧ r = r' ∧ first = second := by
  induction drained generalizing others r' second with
  | emptied =>
      cases drainedToo
      exact ⟨rfl, rfl, rfl⟩
  | failed dispatched =>
      cases drainedToo with
      | failed dispatchedToo =>
          obtain ⟨errorEq, rfl⟩ := single dispatched dispatchedToo
          cases errorEq
          exact ⟨rfl, rfl, rfl⟩
      | took dispatchedToo _ =>
          obtain ⟨outcomeEq, _⟩ := single dispatched dispatchedToo
          contradiction
  | took dispatched _ ih =>
      cases drainedToo with
      | failed dispatchedToo =>
          obtain ⟨outcomeEq, _⟩ := single dispatched dispatchedToo
          contradiction
      | took dispatchedToo drainedToo =>
          obtain ⟨progressEq, rfl⟩ := single dispatched dispatchedToo
          cases progressEq
          obtain ⟨rfl, rfl, rfl⟩ := ih drainedToo
          exact ⟨rfl, rfl, rfl⟩

/-! ## Turn by turn -/

/-- Turns one after the other; `serving` tells what the handlers of a message
make of it. -/
inductive Performs (serving : Message → S → List (String × Invocation) → S → Prop) :
    S → List Turn → S → Prop
  | nothing {s : S} : Performs serving s [] s
  | turn {t : Turn} {turns : List Turn} {s middle s' : S} :
      serving t.message s t.invocations middle → Performs serving middle turns s' →
      Performs serving s (t :: turns) s'

/-- What is true of every turn that may be performed is true of all that are. -/
theorem Performs.forall {serving : Message → S → List (String × Invocation) → S → Prop}
    {P : Turn → Prop}
    (each : ∀ {m s invocations s'}, serving m s invocations s' → P ⟨m, invocations⟩)
    {s s' : S} {turns : List Turn} (performed : Performs serving s turns s') :
    ∀ turn ∈ turns, P turn := by
  induction performed with
  | nothing => simp
  | turn served _ ih =>
      rw [List.forall_mem_cons]
      exact ⟨each served, ih⟩

/-- The messages come out of the queue in the order in which they went in: first
those that were queued from the beginning, then what each turn has emitted. -/
theorem Drains.fifo {dispatching : Dispatching S}
    {serving : Message → S → List (String × Invocation) → S → Prop}
    (turned : ∀ {m p s r s'}, dispatching m p s r s' →
      ∃ invocations, serving m s invocations s' ∧ Turn.settle ⟨m, invocations⟩ p = r)
    {p : Progress} {s s' : S} {taken : List Message} {r : CallResult}
    (drained : Drains dispatching p s taken r s') :
    ∃ turns : List Turn,
      taken = turns.map (·.message) ∧ Performs serving s turns s' ∧
        taken <+: p.queue ++ turns.flatMap Turn.emitted ∧
        ∀ results, r = .ok results →
          taken = p.queue ++ turns.flatMap Turn.emitted ∧
            results = p.results ++ turns.flatMap Turn.results := by
  induction drained with
  | emptied =>
      refine ⟨[], rfl, .nothing, by simp, ?_⟩
      rintro results ⟨⟩
      simp
  | failed dispatched =>
      obtain ⟨invocations, served, _⟩ := turned dispatched
      exact ⟨[⟨_, invocations⟩], rfl, .turn served .nothing, by simp, by simp⟩
  | @took m rest taken results s middle s' next r dispatched _ ih =>
      obtain ⟨invocations, served, settled⟩ := turned dispatched
      obtain rfl := Turn.settle_eq_ok settled
      rcases ih with ⟨turns, rfl, performed, front, complete⟩
      refine ⟨⟨m, invocations⟩ :: turns, rfl, .turn served performed, ?_, ?_⟩
      · simpa [after] using front
      · intro final returned
        obtain ⟨takenEq, resultsEq⟩ := complete final returned
        simp only [after] at takenEq resultsEq
        simp [takenEq, resultsEq]

end Courier.Progress
