import Courier.Proofs.Bus.Kind
import Courier.Proofs.Cohort.Omission

/-!
# Handlers that fail unnoticed

A handler that fails on every event it gets, does not suspend, and changes nothing but an
instance of its own may as well not be registered: calls take the same messages, end with the
same results or the same error, and leave the same context and the same other instances.

The main statement compares a bus with one on which any number of such handlers are left out,
in any lists (`Omission`).
-/

namespace Courier

open Courier.Action Courier.Progress

variable {σ ω κ α β : Type}

/-! ## Lists -/

/-- What nothing comes of may be left out. -/
theorem flatMap_kept {f : α → List β} {marked : List (α × Bool)}
    (nothing : ∀ a, (a, false) ∈ marked → f a = []) :
    (kept marked).flatMap f = (marked.map (·.1)).flatMap f := by
  induction marked with
  | nil => rfl
  | cons entry marked ih =>
      rcases entry with ⟨a, mark⟩
      have nothingRest : ∀ a, (a, false) ∈ marked → f a = [] :=
        fun b mem => nothing b (List.mem_cons_of_mem _ mem)
      cases mark with
      | true => simp [ih nothingRest]
      | false => simp [ih nothingRest, nothing a List.mem_cons_self]

/-! ## Handlers -/

namespace Handler

/-- The instance of a stateful handler. -/
def owner? (h : Handler σ ω) : Option InstanceId :=
  match h.behavior with
  | .stateful owner _ => some owner
  | .plain _ => none

/-- A handler works on its own instance only. -/
theorem owner?_of_program {h : Handler σ ω} {m : Message} {x : Extra} {i : InstanceId}
    (owned : (h.program m x).owner? = some i) : h.owner? = some i := by
  by_cases accepted : m.type ≠ h.accepts
  · rw [program_of_mismatch x accepted] at owned
    cases owned
  · cases behaviorEq : h.behavior with
    | stateful owner lifecycle =>
        rw [program_of_stateful x accepted behaviorEq] at owned
        rw [owner?, behaviorEq]
        exact owned
    | plain routine =>
        rw [program_of_plain x accepted behaviorEq] at owned
        cases owned

variable {apart : InstanceId → Prop} {g : ω → κ} {x : Extra} {m : Message} {w v w' : World σ ω}

/-- Handlers out of sight may be left out when the handlers have a message in turn. -/
theorem InTurn.omit {handlers : List (Handler σ ω × Bool)}
    {invocations : List (String × Invocation)}
    (inSight : ∀ h, (h, true) ∈ handlers → (h.program m x).InSight apart g)
    (outOfSight : ∀ h, (h, false) ∈ handlers → (h.program m x).OutOfSight apart g)
    (same : w.SameBut apart g v)
    (served : InTurn x m (handlers.map (·.1)) w invocations w') :
    ∃ v', InTurn x m (kept handlers) v (kept (invocations.zip (handlers.map (·.2)))) v' ∧
      w'.SameBut apart g v' := by
  induction handlers generalizing w v invocations with
  | nil =>
      obtain ⟨rfl, rfl⟩ := (inTurn_nil_iff x m w w' invocations).mp served
      exact ⟨v, .nobody, same⟩
  | cons entry handlers ih =>
      rcases entry with ⟨h, mark⟩
      obtain ⟨invocation, middle, others, invoked, servedRest, rfl⟩ :=
        (inTurn_cons_iff x m h _ w w' invocations).mp served
      rw [invoke_returns_iff] at invoked
      have inSightRest := fun h mem => inSight h (List.mem_cons_of_mem _ mem)
      have outOfSightRest := fun h mem => outOfSight h (List.mem_cons_of_mem _ mem)
      cases mark with
      | true =>
          obtain ⟨middle', invokedAlike, sameMiddle⟩ :=
            (inSight h List.mem_cons_self).run same invoked
          rw [← invoke_returns_iff] at invokedAlike
          obtain ⟨v', servedPart, sameEnd⟩ := ih inSightRest outOfSightRest sameMiddle servedRest
          exact ⟨v', .next invokedAlike servedPart, sameEnd⟩
      | false =>
          have sameMiddle := (outOfSight h List.mem_cons_self).run same invoked
          exact ih inSightRest outOfSightRest sameMiddle servedRest

/-- Handlers in sight have a message in turn alike. -/
theorem InTurn.inSight {handlers : List (Handler σ ω)} {invocations : List (String × Invocation)}
    (inSight : ∀ h ∈ handlers, (h.program m x).InSight apart g) (same : w.SameBut apart g v)
    (served : InTurn x m handlers w invocations w') :
    ∃ v', InTurn x m handlers v invocations v' ∧ w'.SameBut apart g v' := by
  induction served generalizing v with
  | nobody => exact ⟨v, .nobody, same⟩
  | next invoked _ ih =>
      rw [List.forall_mem_cons] at inSight
      rw [invoke_returns_iff] at invoked
      obtain ⟨middle', invokedAlike, sameMiddle⟩ := inSight.1.run same invoked
      rw [← invoke_returns_iff] at invokedAlike
      obtain ⟨v', servedAlike, sameEnd⟩ := ih inSight.2 sameMiddle
      exact ⟨v', .next invokedAlike servedAlike, sameEnd⟩

end Handler

/-- The names of the invocations of some handlers are those of these handlers. -/
theorem AsyncBus.named_kept {handlers : List (Handler σ ω × Bool)} {invocations : List Invocation} :
    named (kept handlers) (kept (invocations.zip (handlers.map (·.2)))) =
      kept ((named (handlers.map (·.1)) invocations).zip (handlers.map (·.2))) := by
  induction handlers generalizing invocations with
  | nil => rfl
  | cons entry handlers ih =>
      rcases entry with ⟨h, mark⟩
      cases invocations with
      | nil => simp [named]
      | cons invocation invocations =>
          cases mark with
          | true => exact congrArg ((h.name, invocation) :: ·) ih
          | false => exact ih

/-! ## Buses -/

/-- A bus that has the registrations of another but for some handlers of events: for each
type of event the handlers of `all` are listed, marked if they are handlers of `rest`. -/
structure Omission (all rest : Handlers σ ω) where
  listing : MessageType → List (Handler σ ω × Bool)
  all_events : ∀ e, all.registered (.event e) = (listing e.type).map (·.1)
  rest_events : ∀ e, rest.registered (.event e) = kept (listing e.type)
  commands : ∀ c, rest.registered (.command c) = all.registered (.command c)

namespace Omission

variable {all rest : Handlers σ ω} {g : ω → κ}

/-- A handler that is left out. -/
def Omits (omission : Omission all rest) (h : Handler σ ω) : Prop :=
  ∃ type, (h, false) ∈ omission.listing type

/-- The instances of the handlers that are left out. -/
def Apart (omission : Omission all rest) (i : InstanceId) : Prop :=
  ∃ h, omission.Omits h ∧ h.owner? = some i

/-- Who is left out does not suspend, leaves the context alone, and shares its instance with
nobody else; and of the outside it leaves alone what `g` shows, which is all that the others
need to know of it. -/
structure Discreet (omission : Omission all rest) (g : ω → κ) : Prop where
  unpaused : ∀ h, omission.Omits h → h.unpaused = h
  keeps : ∀ h, omission.Omits h → h.Keeps fun c c' => c'.map id g = c.map id g
  alone : ∀ m, ∀ h ∈ rest.registered m, ∀ i, h.owner? = some i → ¬ omission.Apart i
  depends : ∀ m, ∀ h ∈ rest.registered m, h.DependsOn g

/-- In this turn whoever is left out has failed. -/
def FailsIn (omission : Omission all rest) (turn : Turn) : Prop :=
  ∀ e, turn.message = .event e → ∀ entry,
    (entry, false) ∈ turn.invocations.zip ((omission.listing e.type).map (·.2)) →
    ∃ error, entry.2.result = .error error

variable {omission : Omission all rest} {kind : BusKind} {x : Extra} {w v w' : World σ ω}

/-! ## One message -/

theorem Discreet.inSight (discreet : omission.Discreet g) {m : Message} {h : Handler σ ω}
    (mem : h ∈ rest.registered m) : (h.program m x).InSight omission.Apart g where
  owner i owned := discreet.alone m h mem i (Handler.owner?_of_program owned)
  depends := (discreet.depends m h mem).program m x

theorem Discreet.outOfSight (discreet : omission.Discreet g) (m : Message) {h : Handler σ ω}
    (omits : omission.Omits h) : (h.program m x).OutOfSight omission.Apart g where
  owner i owned := ⟨h, omits, Handler.owner?_of_program owned⟩
  keeps := (discreet.keeps h omits).program m x
  unpaused := by rw [← h.program_unpaused, discreet.unpaused h omits]

/-- The handlers of a command are the same. -/
theorem Discreet.inTurn_command (discreet : omission.Discreet g)
    (same : w.SameBut omission.Apart g v) {c : Command} {invocations : List (String × Invocation)}
    (served : Handler.InTurn x (.command c) (all.registered (.command c)) w invocations w') :
    ∃ v', Handler.InTurn x (.command c) (rest.registered (.command c)) v invocations v' ∧
      w'.SameBut omission.Apart g v' := by
  rw [← omission.commands] at served
  exact served.inSight (fun h mem => discreet.inSight mem) same

/-- The handlers of an event that are left make the same of it. -/
theorem Discreet.serves_event (discreet : omission.Discreet g)
    (same : w.SameBut omission.Apart g v) {e : Event} {invocations : List (String × Invocation)}
    (served : kind.Serves all x (.event e) w invocations w') :
    ∃ v', kind.Serves rest x (.event e) v
        (kept (invocations.zip ((omission.listing e.type).map (·.2)))) v' ∧
      w'.SameBut omission.Apart g v' := by
  have inSight : ∀ h, (h, true) ∈ omission.listing e.type →
      (h.program (.event e) x).InSight omission.Apart g := by
    intro h mem
    apply discreet.inSight
    rw [omission.rest_events]
    exact (mem_kept_iff h _).mpr mem
  have outOfSight : ∀ h, (h, false) ∈ omission.listing e.type →
      (h.program (.event e) x).OutOfSight omission.Apart g :=
    fun h mem => discreet.outOfSight _ ⟨e.type, mem⟩
  cases kind with
  | blocking =>
      have served : Handler.InTurn x (.event e) (all.registered (.event e)) w invocations w' :=
        served
      rw [omission.all_events] at served
      obtain ⟨v', servedPart, sameEnd⟩ := served.omit inSight outOfSight same
      rw [← omission.rest_events] at servedPart
      exact ⟨v', servedPart, sameEnd⟩
  | suspending =>
      obtain ⟨budget, results, middle, ran, rfl, rfl⟩ := served
      rw [omission.all_events] at ran ⊢
      obtain ⟨s', ranPart, sameMiddle⟩ := Cohort.run_returns_kept inSight outOfSight same ran
      rw [← omission.rest_events] at ranPart
      have convenes := AsyncBus.convenes_of_run ranPart
      rw [omission.rest_events, AsyncBus.named_kept] at convenes
      refine ⟨_, convenes, ?_⟩
      constructor
      · exact congrArg Context.releaseScoped sameMiddle.context
      · exact sameMiddle.instances
      · exact sameMiddle.outside

/-- The turn of an event gains nothing by handlers that fail. -/
theorem FailsIn.turn_kept {e : Event} {invocations : List (String × Invocation)}
    (fails : omission.FailsIn ⟨.event e, invocations⟩)
    (served : kind.Serves all x (.event e) w invocations w') :
    let left := kept (invocations.zip ((omission.listing e.type).map (·.2)))
    Turn.emitted ⟨.event e, left⟩ = Turn.emitted ⟨.event e, invocations⟩ ∧
      Turn.results ⟨.event e, left⟩ = Turn.results ⟨.event e, invocations⟩ := by
  have lengthEq : invocations.length = (omission.listing e.type).length := by
    have namesEq := congrArg List.length (BusKind.names_of_serves served)
    rw [omission.all_events] at namesEq
    simpa using namesEq
  have allEq : (invocations.zip ((omission.listing e.type).map (·.2))).map (·.1) = invocations :=
    List.map_fst_zip (by simp [lengthEq])
  constructor
  · unfold Turn.emitted
    rw [flatMap_kept, allEq]
    intro entry mem
    obtain ⟨error, resultEq⟩ := fails e rfl entry mem
    rw [Invocation.accepted, resultEq]
  · unfold Turn.results
    rw [List.filterMap_eq_flatMap_toList, List.filterMap_eq_flatMap_toList, flatMap_kept, allEq]
    intro entry mem
    obtain ⟨error, resultEq⟩ := fails e rfl entry mem
    rw [Invocation.dispatched?, resultEq]
    rfl

/-! ## A whole call -/

/-- Turn by turn, nothing is gained by the handlers that are left out. -/
theorem Discreet.takes (discreet : omission.Discreet g) (same : w.SameBut omission.Apart g v)
    {queue left : List Message} {turns : List Turn}
    (fails : ∀ turn ∈ turns, omission.FailsIn turn)
    (takes : Takes (kind.Serves all x) queue w turns left w') :
    ∃ turns' v', Takes (kind.Serves rest x) queue v turns' left v' ∧
      turns'.map (·.message) = turns.map (·.message) ∧
      turns'.flatMap Turn.results = turns.flatMap Turn.results ∧
      w'.SameBut omission.Apart g v' := by
  induction takes generalizing v with
  | nothing => exact ⟨[], v, .nothing, rfl, rfl, same⟩
  | @turn m invocations queue left turns w middle w' served continues _ ih =>
      rw [List.forall_mem_cons] at fails
      obtain ⟨failsNow, failsLater⟩ := fails
      cases m with
      | event e =>
          obtain ⟨middle', servedPart, sameMiddle⟩ := discreet.serves_event same served
          obtain ⟨emittedEq, resultsEq⟩ := failsNow.turn_kept served
          obtain ⟨turns', v', takesPart, messagesEq, resultsEq', sameEnd⟩ :=
            ih sameMiddle failsLater
          rw [← emittedEq] at takesPart
          refine ⟨_, v', .turn servedPart (.event e _) takesPart, ?_, ?_, sameEnd⟩
          · rw [List.map_cons, List.map_cons, messagesEq]
          · rw [List.flatMap_cons, List.flatMap_cons, resultsEq, resultsEq']
      | command c =>
          rw [BusKind.serves_command_iff] at served
          obtain ⟨middle', servedPart, sameMiddle⟩ := discreet.inTurn_command same served
          obtain ⟨turns', v', takesPart, messagesEq, resultsEq, sameEnd⟩ :=
            ih sameMiddle failsLater
          rw [← BusKind.serves_command_iff kind] at servedPart
          refine ⟨_, v', .turn servedPart continues takesPart, ?_, ?_, sameEnd⟩
          · rw [List.map_cons, List.map_cons, messagesEq]
          · rw [List.flatMap_cons, List.flatMap_cons, resultsEq]

/-- A command ends the call alike. -/
theorem Discreet.aborts (discreet : omission.Discreet g) (same : w.SameBut omission.Apart g v)
    {c : Command} {e : DispatchError} (aborts : all.Aborts x c w e w') :
    ∃ v', rest.Aborts x c v e v' ∧ w'.SameBut omission.Apart g v' := by
  obtain ⟨invocations, served, aborted⟩ := (all.aborts_iff_inTurn x c w w' e).mp aborts
  obtain ⟨v', servedPart, sameEnd⟩ := discreet.inTurn_command same served
  exact ⟨v', (rest.aborts_iff_inTurn x c v v' e).mpr ⟨invocations, servedPart, aborted⟩, sameEnd⟩

end Omission

/-- Handlers of events that fail in every turn of a call may be left out, any number of them
and in any lists, as long as they do not suspend, leave the context alone, and share their
instances with nobody else.  The call takes the same messages, ends with the same results or
the same error, and leaves the same context and the same instances of all others; and it can
do nothing else.

The handlers may have to do with the outside as well.  Where `g` is injective the others may
see all of it, and where it is constant those that are left out may do with it what they
like. -/
theorem BusKind.call_omission {all rest : Handlers σ ω} (omission : Omission all rest)
    {g : ω → κ} (discreet : omission.Discreet g) {kind : BusKind} {m : Message} {x : Extra}
    {w w' : World σ ω} {taken : List Message} {r : CallResult}
    (fails : ∀ turns left middle, Takes (kind.Serves all x) [m] w turns left middle →
      ∀ turn ∈ turns, omission.FailsIn turn)
    (called : kind.Call all m x w taken r w') :
    (∃ v', kind.Call rest m x w taken r v') ∧
      ∀ others r' v', kind.Call rest m x w others r' v' →
        others = taken ∧ r' = r ∧ v'.context = w'.context ∧ g v'.outside = g w'.outside ∧
          ∀ i, ¬ omission.Apart i → v'.instances i = w'.instances i := by
  have alike : ∃ v', kind.Call rest m x w taken r v' ∧ w'.SameBut omission.Apart g v' := by
    rw [call_iff_course] at called
    simp only [call_iff_course]
    cases called with
    | @results turns _ takes =>
        obtain ⟨turns', v', takesPart, messagesEq, resultsEq, sameEnd⟩ :=
          discreet.takes (.refl w) (fails _ _ _ takes) takes
        rw [← messagesEq, ← resultsEq]
        exact ⟨v', .results takesPart, sameEnd⟩
    | @error turns c queue middle _ e takes aborts =>
        obtain ⟨turns', middle', takesPart, messagesEq, _, sameMiddle⟩ :=
          discreet.takes (.refl w) (fails _ _ _ takes) takes
        obtain ⟨v', abortsPart, sameEnd⟩ := discreet.aborts sameMiddle aborts
        rw [← messagesEq]
        exact ⟨v', .error takesPart abortsPart, sameEnd⟩
  obtain ⟨v', calledPart, sameEnd⟩ := alike
  refine ⟨⟨v', calledPart⟩, ?_⟩
  intro others r' v'' calledToo
  obtain ⟨rfl, rfl, rfl⟩ := call_unique calledPart calledToo
  exact ⟨rfl, rfl, sameEnd.context.symm, sameEnd.outside.symm,
    fun i notApart => (sameEnd.instances i notApart).symm⟩

end Courier

/-! ## A grumbler

Who grumbles counts, asks for the order to be packed, and fails.  Nobody but a grumbler is
there to pack anything. -/

namespace Courier.Shop

def grumbler (owner : InstanceId) (type : MessageType) : Handler Nat (List String) where
  name := "grumbler"
  accepts := type
  behavior := .stateful owner
    { before := .done (.ok ())
      core := fun _ _ => .step (fun v => { v with own := v.own + 1 })
        fun _ => .done ⟨.error (.failed "no"), [.event packed]⟩
      after := .done () }

def sales : Handler Nat (List String) :=
  clerk 1 { name := "sales", type := ordered.type, result := .ok .unit, emitted := [.event packed] }

def withGrumblers : Handlers Nat (List String) :=
  (Registry.empty.setEventHandlers ordered.type [grumbler 1 ordered.type, sales]).setEventHandlers
    packed.type [grumbler 2 packed.type]

def withoutGrumblers : Handlers Nat (List String) :=
  (withGrumblers.setEventHandlers ordered.type [sales]).setEventHandlers packed.type []

/-- What the handlers of a type are, and whether they are still there without grumblers. -/
def grumblerListing (type : MessageType) : List (Handler Nat (List String) × Bool) :=
  if type = packed.type then [(grumbler 2 packed.type, false)]
  else if type = ordered.type then [(grumbler 1 ordered.type, false), (sales, true)]
  else []

theorem withGrumblers_registered (e : Event) :
    withGrumblers.registered (.event e) = (grumblerListing e.type).map (·.1) := by
  simp only [withGrumblers, Registry.registered, Registry.eventHandlers?_setEventHandlers,
    grumblerListing]
  split
  · rfl
  · split <;> rfl

theorem withoutGrumblers_registered (e : Event) :
    withoutGrumblers.registered (.event e) = kept (grumblerListing e.type) := by
  simp only [withoutGrumblers, withGrumblers, Registry.registered,
    Registry.eventHandlers?_setEventHandlers, grumblerListing]
  split
  · rfl
  · split <;> rfl

def omitGrumblers : Omission withGrumblers withoutGrumblers where
  listing := grumblerListing
  all_events := withGrumblers_registered
  rest_events := withoutGrumblers_registered
  commands _ := rfl

theorem omitGrumblers_omits {h : Handler Nat (List String)} (omits : omitGrumblers.Omits h) :
    h = grumbler 1 ordered.type ∨ h = grumbler 2 packed.type := by
  obtain ⟨type, mem⟩ := omits
  have mem : (h, false) ∈ grumblerListing type := mem
  unfold grumblerListing at mem
  split at mem
  · simp_all
  · split at mem <;> simp_all

theorem withoutGrumblers_sales {m : Message} {h : Handler Nat (List String)}
    (mem : h ∈ withoutGrumblers.registered m) : h = sales := by
  cases m with
  | event e =>
      rw [withoutGrumblers_registered] at mem
      unfold grumblerListing at mem
      split at mem
      · simp at mem
      · split at mem <;> simp_all
  | command c => exact absurd mem List.not_mem_nil

theorem grumbler_keeps (owner : InstanceId) (type : MessageType) :
    (grumbler owner type).Keeps fun c c' => c'.map id id = c.map id id :=
  ⟨trivial, fun _ _ _ => ⟨rfl, trivial⟩, trivial⟩

theorem omitGrumblers_discreet : omitGrumblers.Discreet id where
  unpaused h omits := by
    obtain rfl | rfl := omitGrumblers_omits omits <;> rfl
  keeps h omits := by
    obtain rfl | rfl := omitGrumblers_omits omits
    · exact grumbler_keeps _ _
    · exact grumbler_keeps _ _
  alone m h mem i owned := by
    obtain rfl := withoutGrumblers_sales mem
    cases owned
    rintro ⟨h, omits, owned⟩
    obtain rfl | rfl := omitGrumblers_omits omits <;> cases owned
  depends m h mem := .of_injective Function.injective_id h

/-- What a grumbler makes of an event. -/
def grumble : Invocation :=
  ⟨.error (.failed "no"), [.event packed]⟩

def sale : Invocation :=
  ⟨.ok .unit, [.event packed]⟩

def grumblerTurns : List Turn :=
  [⟨.event ordered, [("grumbler", grumble), ("sales", sale)]⟩,
    ⟨.event packed, [("grumbler", grumble)]⟩]

/-- An order to a shop with grumblers. -/
theorem grumblers_take :
    ∃ w', Progress.Takes (BusKind.suspending.Serves withGrumblers ∅) [.event ordered] opening
        grumblerTurns [] w' ∧
      w'.instances 1 = 1 ∧ w'.instances 2 = 1 ∧ w'.outside = ["sales"] := by
  have ranOrder : (Cohort.run 2 (withGrumblers.registered (.event ordered)) (.event ordered)
      ∅).Returns ⟨opening, Locks.free⟩ [grumble, sale] _ := ⟨rfl, rfl⟩
  have ranPacking (w : World Nat (List String)) :
      (Cohort.run 1 (withGrumblers.registered (.event packed)) (.event packed) ∅).Returns
        ⟨w, Locks.free⟩ [grumble] _ := ⟨rfl, rfl⟩
  have takes : Progress.Takes (BusKind.suspending.Serves withGrumblers ∅) [.event ordered] opening
      grumblerTurns [] _ :=
    .turn (AsyncBus.convenes_of_run ranOrder) (.event ordered _)
      (.turn (AsyncBus.convenes_of_run (ranPacking _)) (.event packed _) .nothing)
  exact ⟨_, takes, rfl, rfl, rfl⟩

theorem grumblers_fail {turn : Turn} (mem : turn ∈ grumblerTurns) : omitGrumblers.FailsIn turn := by
  intro e messageEq entry entryMem
  suffices entry.2 = grumble from ⟨_, congrArg Invocation.result this⟩
  simp only [grumblerTurns, List.mem_cons, List.not_mem_nil, or_false] at mem
  obtain rfl | rfl := mem <;> cases messageEq
  · have entryMem : (entry, false) ∈ [(("grumbler", grumble), false), (("sales", sale), true)] :=
      entryMem
    simp_all
  · have entryMem : (entry, false) ∈ [(("grumbler", grumble), false)] := entryMem
    simp_all

end Courier.Shop

namespace Courier.BusKind

open Courier.Progress

/-- Only the sales have the order packed, once, and nobody but the grumblers remembers
them. -/
theorem call_omission_grumblers :
    ∃ w', BusKind.suspending.Call Shop.withGrumblers (.event Shop.ordered) ∅ Shop.opening
        [.event Shop.ordered, .event Shop.packed] (.ok [⟨.event Shop.ordered, "sales", .unit⟩]) w' ∧
      w'.instances 1 = 1 ∧ w'.instances 2 = 1 ∧
      ∃ v', BusKind.suspending.Call Shop.withoutGrumblers (.event Shop.ordered) ∅ Shop.opening
          [.event Shop.ordered, .event Shop.packed]
          (.ok [⟨.event Shop.ordered, "sales", .unit⟩]) v' ∧
        v'.instances 0 = w'.instances 0 ∧ v'.outside = ["sales"] := by
  obtain ⟨w', takes, first, second, outsideEq⟩ := Shop.grumblers_take
  have called : BusKind.suspending.Call Shop.withGrumblers (.event Shop.ordered) ∅ Shop.opening
      [.event Shop.ordered, .event Shop.packed] (.ok [⟨.event Shop.ordered, "sales", .unit⟩]) w' :=
    (call_iff_course _ _ _ _ _ _ _ _).mpr (.results takes)
  have fails : ∀ turns left middle, Takes (BusKind.suspending.Serves Shop.withGrumblers ∅)
      [.event Shop.ordered] Shop.opening turns left middle →
      ∀ turn ∈ turns, Shop.omitGrumblers.FailsIn turn := by
    intro turns left middle takesToo turn mem
    exact Shop.grumblers_fail ((takes.prefix_of_drained takesToo serves_unique).subset mem)
  obtain ⟨⟨v', calledPart⟩, same⟩ :=
    call_omission Shop.omitGrumblers Shop.omitGrumblers_discreet fails called
  obtain ⟨_, _, contextEq, sameOutside, sameInstances⟩ := same _ _ v' calledPart
  refine ⟨w', called, first, second, v', calledPart, ?_, sameOutside.trans outsideEq⟩
  apply sameInstances
  rintro ⟨h, omits, owned⟩
  obtain rfl | rfl := Shop.omitGrumblers_omits omits <;> cases owned

end Courier.BusKind
