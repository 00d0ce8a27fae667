import Courier.Proofs.Audit.Twins
import Courier.Proofs.Bus.Sync

/-!
# Calls that repeat themselves

If every handler repeats itself in related worlds, so does a call: it returns with the same budget,
with the same results but for the numbers of rows, or with the same error.  Taking in the
invocations of a turn does not look at the numbers (`Turn.settle_unnumbered`), so this goes from
invocations to turns, and from one turn to the next by induction on the budget.
-/

namespace Courier

open Courier.Action

variable {σ ω : Type} {R : World σ ω → World σ ω → Prop}

/-! ## Results without numbers -/

/-- The result, with no number of a row told. -/
def Dispatched.unnumbered (d : Dispatched) : Dispatched :=
  { d with output := d.output.unnumbered }

/-- The same results but for the numbers of rows, or the same error. -/
def SameResults {ε : Type} (r r' : Except ε (List Dispatched)) : Prop :=
  r.map (List.map Dispatched.unnumbered) = r'.map (List.map Dispatched.unnumbered)

/-- The progress of a call, with no number of a row told. -/
def Progress.unnumbered (p : Progress) : Progress :=
  { p with results := p.results.map Dispatched.unnumbered }

theorem Progress.unnumbered_eq_iff (p p' : Progress) :
    p.unnumbered = p'.unnumbered ↔ p.queue = p'.queue ∧
      p.results.map Dispatched.unnumbered = p'.results.map Dispatched.unnumbered := by
  simp [unnumbered]

/-- The turn, with no number of a row told. -/
def Turn.unnumbered (turn : Turn) : Turn :=
  { turn with invocations := turn.invocations.map fun entry => (entry.1, entry.2.unnumbered) }

theorem Invocation.accepted_unnumbered (i : Invocation) : i.unnumbered.accepted = i.accepted := by
  rcases i with ⟨result, emitted⟩
  cases result <;> rfl

theorem Invocation.dispatched?_unnumbered (i : Invocation) (m : Message) (handler : String) :
    i.unnumbered.dispatched? m handler = (i.dispatched? m handler).map Dispatched.unnumbered := by
  rcases i with ⟨result, emitted⟩
  cases result <;> rfl

namespace Turn

theorem emitted_unnumbered (turn : Turn) : turn.unnumbered.emitted = turn.emitted := by
  simp only [emitted, unnumbered, List.flatMap_map, Invocation.accepted_unnumbered]

theorem results_unnumbered (turn : Turn) :
    turn.unnumbered.results = turn.results.map Dispatched.unnumbered := by
  simp only [results, unnumbered, List.filterMap_map, List.map_filterMap, Function.comp_def,
    Invocation.dispatched?_unnumbered]

/-- What a turn adds to the progress of a call, and whether it ends the call, does not depend on the
numbers of rows. -/
theorem settle_unnumbered (turn : Turn) (p : Progress) :
    (turn.settle p).map Progress.unnumbered = turn.unnumbered.settle p.unnumbered := by
  have after_unnumbered : (p.after turn).unnumbered = p.unnumbered.after turn.unnumbered := by
    simp only [Progress.unnumbered, Progress.after, emitted_unnumbered, results_unnumbered,
      List.map_append]
  rcases turn with ⟨m, invocations⟩
  cases m with
  | event e => exact congrArg Except.ok after_unnumbered
  | command c =>
      cases invocations with
      | nil => rfl
      | cons entry rest =>
          rcases entry with ⟨handler, ⟨result, emitted⟩⟩
          cases result with
          | error e => rfl
          | ok output => exact congrArg Except.ok after_unnumbered

end Turn

/-! ## Turns and calls -/

/-- Outcomes that look the same under a map are the same error, or values that look the same. -/
theorem map_eq_map_cases {ε α β : Type} {f : α → β} {r r' : Except ε α}
    (same : r.map f = r'.map f) :
    (∃ e, r = .error e ∧ r' = .error e) ∨ ∃ a a', r = .ok a ∧ r' = .ok a' ∧ f a = f a' := by
  cases r with
  | error e =>
      cases r' with
      | error e' => exact .inl ⟨e, rfl, congrArg Except.error (Except.error.inj same).symm⟩
      | ok a' => cases same
  | ok a =>
      cases r' with
      | error e' => cases same
      | ok a' => exact .inr ⟨a, a', rfl, rfl, Except.ok.inj same⟩

/-- Every handler repeats itself. -/
def Handlers.Repeat (R : World σ ω → World σ ω → Prop) (handlers : Handlers σ ω) : Prop :=
  ∀ m, ∀ h ∈ handlers.registered m, h.Repeats R

/-- Handlers that have a message in turn repeat themselves. -/
theorem Handler.InTurn.repeats {x : Extra} {m : Message} {hs : List (Handler σ ω)}
    (repeats : ∀ h ∈ hs, h.Repeats R) {w u w' : World σ ω}
    {invocations : List (String × Invocation)} (served : InTurn x m hs w invocations w')
    (related : R w u) :
    ∃ invocations' u', InTurn x m hs u invocations' u' ∧
      Turn.unnumbered ⟨m, invocations⟩ = Turn.unnumbered ⟨m, invocations'⟩ ∧ R w' u' := by
  induction served generalizing u with
  | nobody => exact ⟨[], u, .nobody, rfl, related⟩
  | @next h rest w middle w' invocation invocations invoked _ ih =>
      rw [List.forall_mem_cons] at repeats
      obtain ⟨invocation', middle', invokedToo, same, relatedMiddle⟩ :=
        repeats.1 m x w u invocation middle related invoked
      obtain ⟨invocations', u', servedToo, sameRest, relatedEnd⟩ := ih repeats.2 relatedMiddle
      refine ⟨_, u', .next invokedToo servedToo, ?_, relatedEnd⟩
      simp only [Turn.unnumbered, Turn.mk.injEq, true_and, List.map_cons] at sameRest ⊢
      rw [same, sameRest]

namespace SyncBus

variable {handlers : Handlers σ ω} (repeats : handlers.Repeat R)

include repeats

theorem dispatch_mirrors (x : Extra) (m : Message) {p p' : Progress}
    (same : p.unnumbered = p'.unnumbered) :
    Mirrors R (dispatch handlers x m p) (dispatch handlers x m p') fun r r' w u =>
      r.map Progress.unnumbered = r'.map Progress.unnumbered ∧ R w u := by
  intro w u r w' related returned
  obtain ⟨invocations, served, rfl⟩ := (dispatch_returns_iff handlers x m p w w' r).mp returned
  obtain ⟨invocations', u', servedToo, sameTurn, relatedEnd⟩ := served.repeats (repeats m) related
  refine ⟨_, u', (dispatch_returns_iff handlers x m p' u u' _).mpr ⟨invocations', servedToo, rfl⟩,
    ?_, relatedEnd⟩
  rw [Turn.settle_unnumbered, Turn.settle_unnumbered, sameTurn, same]

theorem drain_mirrors (x : Extra) (budget : Nat) {p p' : Progress}
    (same : p.unnumbered = p'.unnumbered) :
    Mirrors R (Progress.drain (dispatch handlers x) budget p)
      (Progress.drain (dispatch handlers x) budget p')
      fun r r' w u => SameResults r r' ∧ R w u := by
  induction budget generalizing p p' with
  | zero =>
      obtain ⟨queueEq, resultsEq⟩ := (p.unnumbered_eq_iff p').mp same
      simp only [Progress.drain, queueEq]
      split
      · exact Mirrors.pure fun related => ⟨congrArg Except.ok resultsEq, related⟩
      · exact Mirrors.cutOff
  | succ budget ih =>
      obtain ⟨queueEq, resultsEq⟩ := (p.unnumbered_eq_iff p').mp same
      simp only [Progress.drain, queueEq]
      cases p'.queue with
      | nil => exact Mirrors.pure fun related => ⟨congrArg Except.ok resultsEq, related⟩
      | cons m rest =>
          have sameRest : Progress.unnumbered { p with queue := rest } =
              Progress.unnumbered { p' with queue := rest } :=
            (Progress.unnumbered_eq_iff _ _).mpr ⟨rfl, resultsEq⟩
          refine (dispatch_mirrors repeats x m sameRest).bind ?_
          intro r r'
          apply Mirrors.of_and
          intro sameOutcome
          rcases map_eq_map_cases sameOutcome with ⟨e, rfl, rfl⟩ | ⟨next, next', rfl, rfl, sameNext⟩
          · exact Mirrors.pure fun related => ⟨rfl, related⟩
          · exact ih sameNext

theorem handle_mirrors (budget : Nat) (m : Message) (x : Extra) :
    Mirrors R (handle handlers budget m x) (handle handlers budget m x)
      fun r r' w u => SameResults r r' ∧ R w u := by
  refine (Mirrors.tell _ _).bind ?_
  intro _ _
  exact drain_mirrors repeats x budget rfl

/-- One message alone has the same results, and the same emissions. -/
theorem handleStep_mirrors (m : Message) (x : Extra) :
    Mirrors R (handleStep handlers m x) (handleStep handlers m x) fun r r' w u =>
      (r.map fun step => (step.results.map Dispatched.unnumbered, step.emitted)) =
        (r'.map fun step => (step.results.map Dispatched.unnumbered, step.emitted)) ∧ R w u := by
  refine (Mirrors.tell _ _).bind ?_
  intro _ _
  refine (dispatch_mirrors repeats x m rfl).bind ?_
  intro r r'
  apply Mirrors.of_and
  intro sameOutcome
  rcases map_eq_map_cases sameOutcome with ⟨e, rfl, rfl⟩ | ⟨p, p', rfl, rfl, same⟩
  · exact Mirrors.pure fun related => ⟨rfl, related⟩
  · obtain ⟨queueEq, resultsEq⟩ := (p.unnumbered_eq_iff p').mp same
    exact Mirrors.pure fun related => ⟨by simp [Except.map, queueEq, resultsEq], related⟩

end SyncBus

end Courier
