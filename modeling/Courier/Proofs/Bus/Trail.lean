import Courier.Proofs.Bus.Unlocked
import Courier.Proofs.Bus.Routing

/-!
# The trail of a call

A call on either kind of bus is an action on the world, which finds and leaves no instance locked.
Its trail holds the messages that it takes from its queue, in this order.  A call that crashes has a
trail as well, with the message that it has crashed at behind all others.

The main statements are `BusKind.ends_iff_call`, that a call which returns is one in the sense of
`BusKind.Call`, and `BusKind.Ends.mem_taken_iff`: what is on the trail of a call that comes to an
end is what comes to its turn in it.
-/

namespace Courier

open Courier.Action Courier.Progress

variable {σ ω S : Type}

/-! ## The loop -/

namespace Progress

/-- The messages that the loop takes from its queue within its budget, in this order. -/
def trail (dispatch : Message → Progress → Action S (Except DispatchError Progress)) :
    (budget : Nat) → Progress → S → List Message
  | 0, _, _ => []
  | budget + 1, p, s =>
      match p.queue with
      | [] => []
      | m :: rest =>
          m ::
            match dispatch m { p with queue := rest } s with
            | ⟨.returned (.ok next), s', _⟩ => trail dispatch budget next s'
            | _ => []

section Loop

variable {dispatch dispatch' : Message → Progress → Action S (Except DispatchError Progress)}

theorem trail_nil (budget : Nat) (results : List Dispatched) (s : S) :
    trail dispatch budget ⟨[], results⟩ s = [] := by
  cases budget <;> rfl

/-- After a message that has been taken in, the loop goes on from what it has left. -/
theorem trail_of_ok {budget : Nat} {m : Message} {rest : List Message} {results : List Dispatched}
    {s s' : S} {next : Progress}
    (dispatched : (dispatch m ⟨rest, results⟩).Returns s (.ok next) s') :
    trail dispatch (budget + 1) ⟨m :: rest, results⟩ s = m :: trail dispatch budget next s' := by
  rcases dispatched with ⟨outcomeEq, rfl⟩
  rcases runEq : dispatch m ⟨rest, results⟩ s with ⟨outcome, s', log⟩
  rw [runEq] at outcomeEq
  obtain rfl : outcome = .returned (.ok next) := outcomeEq
  simp only [trail, runEq]

/-- The loop ends with a message that has not been taken in. -/
theorem trail_of_not_ok {budget : Nat} {m : Message} {rest : List Message}
    {results : List Dispatched} {s : S}
    (stopped : ∀ next s', ¬ (dispatch m ⟨rest, results⟩).Returns s (.ok next) s') :
    trail dispatch (budget + 1) ⟨m :: rest, results⟩ s = [m] := by
  rcases runEq : dispatch m ⟨rest, results⟩ s with ⟨outcome, s', log⟩
  have isStopped : ∀ next, outcome ≠ .returned (.ok next) := by
    rintro next rfl
    exact stopped next s' (by simp [Returns, runEq])
  simp only [trail, runEq]
  split
  · rename_i same
    cases same
    exact absurd rfl (isStopped _)
  · rfl

/-- The trail goes on behind a message that has been taken in, and ends with any other. -/
theorem trail_cons_cases (budget : Nat) (m : Message) (rest : List Message)
    (results : List Dispatched) (s : S) :
    (∃ next s', (dispatch m ⟨rest, results⟩).Returns s (.ok next) s' ∧
      trail dispatch (budget + 1) ⟨m :: rest, results⟩ s = m :: trail dispatch budget next s') ∨
      (∀ next s', ¬ (dispatch m ⟨rest, results⟩).Returns s (.ok next) s') ∧
        trail dispatch (budget + 1) ⟨m :: rest, results⟩ s = [m] := by
  by_cases goesOn : ∃ next s', (dispatch m ⟨rest, results⟩).Returns s (.ok next) s'
  · rcases goesOn with ⟨next, s', dispatched⟩
    exact .inl ⟨next, s', dispatched, trail_of_ok dispatched⟩
  · have stopped : ∀ next s', ¬ (dispatch m ⟨rest, results⟩).Returns s (.ok next) s' :=
      fun next s' dispatched => goesOn ⟨next, s', dispatched⟩
    exact .inr ⟨stopped, trail_of_not_ok stopped⟩

/-- A loop that takes the messages has them on its trail. -/
theorem Drains.trail_eq {p : Progress} {s s' : S} {taken : List Message} {r : CallResult}
    (drained : Drains (fun m p => (dispatch m p).Returns) p s taken r s') {budget : Nat}
    (le : taken.length ≤ budget) : trail dispatch budget p s = taken := by
  induction drained generalizing budget with
  | emptied => exact trail_nil _ _ _
  | failed dispatched =>
      obtain ⟨budget, rfl⟩ := Nat.exists_eq_add_of_le' le
      apply trail_of_not_ok
      intro next s' dispatchedToo
      cases (dispatched.unique dispatchedToo).1
  | @took m rest taken _ _ _ _ _ _ dispatched _ ih =>
      obtain ⟨budget, rfl⟩ := Nat.exists_eq_add_of_le' (Nat.le_trans (Nat.le_add_left 1 _) le)
      have leRest : taken.length ≤ budget := by simpa using le
      rw [trail_of_ok dispatched, ih leRest]

/-- A way of handling messages that does the same with those on the trail has the same trail, and
the loop runs as before. -/
theorem drain_congr {budget : Nat} {p : Progress} {s : S}
    (same : ∀ m ∈ trail dispatch budget p s, ∀ p, dispatch' m p = dispatch m p) :
    drain dispatch' budget p s = drain dispatch budget p s ∧
      trail dispatch' budget p s = trail dispatch budget p s := by
  induction budget generalizing p s with
  | zero => exact ⟨rfl, rfl⟩
  | succ budget ih =>
      rcases p with ⟨queue, results⟩
      cases queue with
      | nil => exact ⟨rfl, rfl⟩
      | cons m rest =>
          have front := same m List.mem_cons_self ⟨rest, results⟩
          simp only [trail] at same
          simp only [drain, trail]
          show Action.bind _ _ s = Action.bind _ _ s ∧ _
          simp only [Action.bind, front]
          rcases runEq : dispatch m ⟨rest, results⟩ s with ⟨outcome, s', log⟩
          rw [runEq] at same
          rcases outcome with (e | next) | text | _
          · exact ⟨rfl, rfl⟩
          · obtain ⟨drainEq, trailEq⟩ := ih fun m mem => same m (List.mem_cons_of_mem _ mem)
            simp only
            rw [drainEq, trailEq]
            exact ⟨rfl, rfl⟩
          · exact ⟨rfl, rfl⟩
          · exact ⟨rfl, rfl⟩

/-- A loop that comes to its end has the same trail with a larger budget. -/
theorem trail_eq_of_approximates (grows : ∀ m p, (dispatch m p).Approximates (dispatch' m p))
    {budget larger : Nat} (le : budget ≤ larger) {p : Progress} {s : S}
    (ended : (drain dispatch budget p s).outcome ≠ .unfinished) :
    trail dispatch' larger p s = trail dispatch budget p s := by
  induction budget generalizing larger p s with
  | zero =>
      rcases p with ⟨_ | ⟨m, rest⟩, results⟩
      · rw [trail_nil, trail_nil]
      · exact absurd rfl ended
  | succ budget ih =>
      obtain ⟨larger, rfl⟩ := Nat.exists_eq_add_of_le' (Nat.le_trans (Nat.le_add_left 1 _) le)
      rcases p with ⟨_ | ⟨m, rest⟩, results⟩
      · rfl
      · simp only [drain] at ended
        have same := grows m ⟨rest, results⟩ s (ne_unfinished_of_bind ended)
        rcases trail_cons_cases budget m rest results s with
          ⟨next, s', dispatched, trailEq⟩ | ⟨stopped, trailEq⟩
        · rw [trailEq, trail_of_ok ((grows m _).returns dispatched),
            ih (by omega) (dispatched.next_ne_unfinished ended)]
        · have stoppedToo : ∀ next s', ¬ (dispatch' m ⟨rest, results⟩).Returns s (.ok next) s' := by
            simpa only [Returns, same] using stopped
          rw [trailEq, trail_of_not_ok stoppedToo]

variable {serving : Serving S}

/-- What is on the trail comes to its turn. -/
theorem exists_takes_of_mem_trail
    (turned : ∀ {m p s r s'}, (dispatch m p).Returns s r s' →
      ∃ invocations, serving m s invocations s' ∧ Turn.settle ⟨m, invocations⟩ p = r)
    {budget : Nat} {p : Progress} {s : S} {m : Message} (mem : m ∈ trail dispatch budget p s) :
    ∃ turns behind middle, Takes serving p.queue s turns (m :: behind) middle := by
  induction budget generalizing p s with
  | zero => cases mem
  | succ budget ih =>
      rcases p with ⟨_ | ⟨front, rest⟩, results⟩
      · cases mem
      · rcases trail_cons_cases budget front rest results s with
          ⟨next, s', dispatched, trailEq⟩ | ⟨_, trailEq⟩
        · rw [trailEq] at mem
          rcases List.mem_cons.mp mem with rfl | mem
          · exact ⟨[], rest, s, .nothing⟩
          · rcases turned dispatched with ⟨invocations, served, settled⟩
            rcases (Turn.settle_eq_ok_iff _ _ _).mp settled with ⟨continues, rfl⟩
            rcases ih mem with ⟨turns, behind, middle, takes⟩
            exact ⟨_, behind, middle, .turn served continues takes⟩
        · rw [trailEq, List.mem_singleton] at mem
          subst mem
          exact ⟨[], rest, s, .nothing⟩

/-- In a loop that is not cut off, whatever comes to its turn is on the trail. -/
theorem mem_trail_of_takes
    (served : ∀ {m p s invocations s'}, (dispatch m p s).outcome ≠ .unfinished →
      serving m s invocations s' →
      (dispatch m p).Returns s (Turn.settle ⟨m, invocations⟩ p) s')
    {budget : Nat} {p : Progress} {s middle : S} {turns : List Turn} {m : Message}
    {behind : List Message} (ended : (drain dispatch budget p s).outcome ≠ .unfinished)
    (takes : Takes serving p.queue s turns (m :: behind) middle) :
    m ∈ trail dispatch budget p s := by
  rcases p with ⟨queue, results⟩
  simp only at takes
  generalize frontEq : m :: behind = left at takes
  induction takes generalizing budget results with
  | nothing =>
      subst frontEq
      cases budget with
      | zero => exact absurd rfl ended
      | succ budget => exact List.mem_cons_self
  | @turn first invocations rest _ _ s _ _ serves continues _ ih =>
      cases budget with
      | zero => exact absurd rfl ended
      | succ budget =>
          simp only [drain] at ended
          have dispatched := served (ne_unfinished_of_bind ended) serves
          rw [(Turn.settle_eq_ok_iff _ _ _).mpr ⟨continues, rfl⟩] at dispatched
          rw [trail_of_ok dispatched]
          exact List.mem_cons_of_mem _ (ih _ (dispatched.next_ne_unfinished ended) frontEq)

end Loop

end Progress

/-! ## Calls -/

namespace BusKind

/-- The messages that a call takes from its queue within its budget, in this order. -/
def trail (kind : BusKind) (handlers : Handlers σ ω) (budget : Nat) (m : Message) (x : Extra)
    (w : World σ ω) : List Message :=
  Progress.trail (kind.dispatch handlers budget x) budget ⟨[m], []⟩ w

/-- A call comes to an end: it returns or crashes, and `run` is all that there is to see of it.
The messages that it takes from its queue are `taken`, in this order. -/
def Ends (kind : BusKind) (handlers : Handlers σ ω) (m : Message) (x : Extra) (w : World σ ω)
    (taken : List Message) (run : Run (World σ ω) CallResult) : Prop :=
  run.outcome ≠ .unfinished ∧ ∃ budget,
    kind.handle handlers budget m x w = run ∧ kind.trail handlers budget m x w = taken

/-- In the course of a call a message comes to its turn.  How the call goes on from there, and
whether it ends at all, is left open. -/
def HasTurn (kind : BusKind) (handlers : Handlers σ ω) (m : Message) (x : Extra) (w : World σ ω)
    (reached : Message) : Prop :=
  ∃ turns behind middle, Takes (kind.Serves handlers x) [m] w turns (reached :: behind) middle

variable {kind : BusKind} {handlers : Handlers σ ω} {m : Message} {x : Extra} {w : World σ ω}
  {taken : List Message} {run : Run (World σ ω) CallResult}

theorem ends_of_handle {budget : Nat} (runEq : kind.handle handlers budget m x w = run)
    (ended : run.outcome ≠ .unfinished) (trailEq : kind.trail handlers budget m x w = taken) :
    kind.Ends handlers m x w taken run :=
  ⟨ended, budget, runEq, trailEq⟩

/-- The call is its loop, but for a line of the log. -/
theorem handle_ne_unfinished_iff (budget : Nat) :
    (kind.handle handlers budget m x w).outcome ≠ .unfinished ↔
      (drain (kind.dispatch handlers budget x) budget ⟨[m], []⟩ w).outcome ≠ .unfinished := by
  rw [handle_eq]
  rfl

theorem handle_returns_iff (budget : Nat) (r : CallResult) (w' : World σ ω) :
    (kind.handle handlers budget m x).Returns w r w' ↔
      (drain (kind.dispatch handlers budget x) budget ⟨[m], []⟩).Returns w r w' := by
  rw [handle_eq]
  rfl

/-- A call that ends with a budget does so with a larger one, on the same trail. -/
theorem trail_eq_of_le {budget larger : Nat} (le : budget ≤ larger)
    (ended : (kind.handle handlers budget m x w).outcome ≠ .unfinished) :
    kind.trail handlers larger m x w = kind.trail handlers budget m x w :=
  trail_eq_of_approximates (kind.dispatch_approximates handlers le x) le
    ((handle_ne_unfinished_iff budget).mp ended)

/-- A call that comes to an end comes to one only. -/
theorem Ends.unique {others : List Message} {run' : Run (World σ ω) CallResult}
    (ends : kind.Ends handlers m x w taken run) (endsToo : kind.Ends handlers m x w others run') :
    taken = others ∧ run = run' := by
  obtain ⟨ended, budget, rfl, rfl⟩ := ends
  obtain ⟨endedToo, larger, rfl, rfl⟩ := endsToo
  have first := Nat.le_max_left budget larger
  have second := Nat.le_max_right budget larger
  constructor
  · rw [← trail_eq_of_le first ended, ← trail_eq_of_le second endedToo]
  · rw [← kind.handle_approximates handlers first m x w ended,
      ← kind.handle_approximates handlers second m x w endedToo]

theorem call_iff_drains {r : CallResult} {w' : World σ ω} :
    kind.Call handlers m x w taken r w' ↔
      Drains (fun m p w r w' => ∃ budget, (kind.dispatch handlers budget x m p).Returns w r w')
        ⟨[m], []⟩ w taken r w' := by
  rw [call_iff_course]
  exact (drains_iff_endsWith (kind.exists_dispatch_returns_iff handlers x)
    (kind.serves_command_iff handlers x) m w w' taken r).symm

/-- A call that returns is one that comes to its end. -/
theorem ends_iff_call (taken : List Message) (r : CallResult) (w' : World σ ω) :
    (∃ log, kind.Ends handlers m x w taken ⟨.returned r, w', log⟩) ↔
      kind.Call handlers m x w taken r w' := by
  rw [call_iff_drains]
  constructor
  · rintro ⟨log, _, budget, runEq, rfl⟩
    have returned : (kind.handle handlers budget m x).Returns w r w' := by
      rw [Returns, runEq]
      exact ⟨rfl, rfl⟩
    rw [handle_returns_iff, drain_returns_iff] at returned
    obtain ⟨taken, le, drained⟩ := returned
    rw [trail, drained.trail_eq le]
    exact drained.mono fun returned => ⟨budget, returned⟩
  · intro drained
    obtain ⟨enough, drains⟩ :=
      drained.exists_budget fun le => kind.dispatch_approximates handlers le x
    obtain ⟨budget, enoughLe, le⟩ : ∃ budget, enough ≤ budget ∧ taken.length ≤ budget :=
      ⟨_, Nat.le_max_left _ _, Nat.le_max_right _ _⟩
    have drained := drains budget enoughLe
    have returned : (kind.handle handlers budget m x).Returns w r w' := by
      rw [handle_returns_iff, drain_returns_iff]
      exact ⟨taken, le, drained⟩
    rcases runEq : kind.handle handlers budget m x w with ⟨outcome, state, log⟩
    rw [Returns, runEq] at returned
    obtain ⟨rfl, rfl⟩ := returned
    exact ⟨log, by simp, budget, runEq, drained.trail_eq le⟩

/-- What a call takes from its queue is what comes to its turn in it. -/
theorem Ends.mem_taken_iff (ends : kind.Ends handlers m x w taken run) (reached : Message) :
    reached ∈ taken ↔ kind.HasTurn handlers m x w reached := by
  obtain ⟨ended, budget, rfl, rfl⟩ := ends
  constructor
  · intro mem
    exact exists_takes_of_mem_trail (fun returned =>
      (kind.exists_dispatch_returns_iff handlers x _ _ _ _ _).mp ⟨budget, returned⟩) mem
  · rintro ⟨turns, behind, middle, takes⟩
    exact mem_trail_of_takes (fun ended served => served.dispatch_returns ended)
      ((handle_ne_unfinished_iff budget).mp ended) takes

end BusKind

end Courier
