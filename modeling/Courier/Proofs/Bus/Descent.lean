import Mathlib.Logic.Hydra
import Courier.Proofs.Bus.Trail

/-!
# Descending emissions

A turn takes one message out of the queue and may put any number of others there, so that the queue
of a call may grow without a bound known beforehand.  Where whatever is emitted is below what it is
emitted for, in a well-founded order, the call comes to its end nevertheless: each turn replaces a
message by messages below it, and as a multiset the queue descends.

The main statement is `BusKind.exists_ends_of_descends`.
-/

namespace Courier

open Courier.Action Courier.Progress Relation

variable {σ ω S : Type}

namespace Progress

/-- A loop comes to its end if the message in front is handled and the loop comes to its end from
there on, each with some budget. -/
theorem exists_drain_ends_of_next
    {dispatch : Nat → Message → Progress → Action S (Except DispatchError Progress)}
    (grows : ∀ {budget larger}, budget ≤ larger → ∀ m p,
      (dispatch budget m p).Approximates (dispatch larger m p))
    {enough : Nat} {front : Message} {rest : List Message} {results : List Dispatched} {s : S}
    (handled : (dispatch enough front ⟨rest, results⟩ s).outcome ≠ .unfinished)
    (onward : ∀ next s', (dispatch enough front ⟨rest, results⟩).Returns s (.ok next) s' →
      ∃ budget, (drain (dispatch budget) budget next s').outcome ≠ .unfinished) :
    ∃ budget, (drain (dispatch budget) budget ⟨front :: rest, results⟩ s).outcome ≠
      .unfinished := by
  -- The budgets for the front and for the rest have a common bound, and one more step is needed.
  have bounded : ∃ others, ∀ next s',
      (dispatch enough front ⟨rest, results⟩).Returns s (.ok next) s' →
      (drain (dispatch others) others next s').outcome ≠ .unfinished := by
    by_cases goesOn : ∃ next s', (dispatch enough front ⟨rest, results⟩).Returns s (.ok next) s'
    · obtain ⟨next, s', returned⟩ := goesOn
      obtain ⟨others, ended⟩ := onward next s' returned
      refine ⟨others, fun next' s'' returnedToo => ?_⟩
      obtain ⟨⟨⟩, rfl⟩ := returned.unique returnedToo
      exact ended
    · exact ⟨0, fun next s' returned => absurd ⟨next, s', returned⟩ goesOn⟩
  obtain ⟨others, ended⟩ := bounded
  have enoughLe : enough ≤ max enough others + 1 := by omega
  refine ⟨max enough others + 1, ?_⟩
  apply bind_ne_unfinished ((grows enoughLe front _).ne_unfinished handled)
  rintro (e | next) s' returned
  · exact pure_ne_unfinished _ _
  · rw [Returns, grows enoughLe front _ s handled] at returned
    exact (drain_approximates (fun m p => grows (by omega) m p) (Nat.le_max_right _ _)
      next).ne_unfinished (ended next s' returned)

end Progress

namespace BusKind

/-- In the turn of a message that the call has come to, a handler emits another one, and succeeds:
the other joins the queue. -/
def Emits (kind : BusKind) (handlers : Handlers σ ω) (m : Message) (x : Extra) (w : World σ ω)
    (reached next : Message) : Prop :=
  ∃ h invocation, kind.Makes handlers m x w reached h invocation ∧ next ∈ invocation.accepted

variable {kind : BusKind} {handlers : Handlers σ ω} {m reached : Message} {x : Extra}
  {w middle w' : World σ ω} {queue behind left : List Message} {turns more : List Turn}
  {invocations : List (String × Invocation)}

/-- What a turn puts into the queue has been emitted for its message. -/
theorem emits_of_mem_emitted
    (takes : Takes (kind.Serves handlers x) [m] w turns (reached :: behind) middle)
    (served : kind.Serves handlers x reached middle invocations w') :
    ∀ next ∈ Turn.emitted ⟨reached, invocations⟩, kind.Emits handlers m x w reached next := by
  intro next mem
  obtain ⟨entry, entryMem, accepted⟩ := List.mem_flatMap.mp mem
  obtain ⟨h, invoked⟩ := invoked_of_serves served entry entryMem
  exact ⟨h, entry.2, ⟨turns, behind, middle, takes, invoked⟩, accepted⟩

/-- Whatever waits in the queue descends from the first message. -/
theorem descended_of_takes (before : Takes (kind.Serves handlers x) [m] w turns queue middle)
    (descended : ∀ waiting ∈ queue, ReflTransGen (kind.Emits handlers m x w) m waiting)
    (takes : Takes (kind.Serves handlers x) queue middle more left w') :
    ∀ waiting ∈ left, ReflTransGen (kind.Emits handlers m x w) m waiting := by
  induction takes generalizing turns with
  | nothing => exact descended
  | @turn front _ _ _ _ _ _ _ served continues _ ih =>
      apply ih (before.append (.turn served continues .nothing))
      intro waiting mem
      rcases List.mem_append.mp mem with mem | mem
      · exact descended waiting (List.mem_cons_of_mem _ mem)
      · exact (descended front List.mem_cons_self).tail (emits_of_mem_emitted before served _ mem)

variable {less : Message → Message → Prop}

/-- From every turn on, the loop comes to its end with a budget that is large enough. -/
theorem exists_drain_ends (wellFounded : WellFounded less)
    (descends : ∀ reached next, kind.Emits handlers m x w reached next → less next reached)
    (before : Takes (kind.Serves handlers x) [m] w turns queue middle)
    (results : List Dispatched) :
    ∃ budget, (drain (kind.dispatch handlers budget x) budget ⟨queue, results⟩ middle).outcome ≠
      .unfinished := by
  generalize waitingEq : Multiset.ofList queue = waiting
  induction waiting using wellFounded.cutExpand.induction
    generalizing queue turns middle results with
  | _ waiting ih =>
      subst waitingEq
      cases queue with
      | nil => exact ⟨0, pure_ne_unfinished _ _⟩
      | cons front rest =>
          obtain ⟨enough, ended⟩ :=
            kind.exists_dispatch_ends handlers x front ⟨rest, results⟩ middle
          apply exists_drain_ends_of_next (fun le => kind.dispatch_approximates handlers le x) ended
          intro next w' returned
          obtain ⟨invocations, served, settled⟩ :=
            (kind.exists_dispatch_returns_iff handlers x _ _ _ _ _).mp ⟨enough, returned⟩
          obtain ⟨continues, rfl⟩ := (Turn.settle_eq_ok_iff _ _ _).mp settled
          refine ih _ ?_ (before.append (.turn served continues .nothing)) _ rfl
          -- The front is cut off, and what it emits grows in its place.
          refine ⟨Turn.emitted ⟨front, invocations⟩, front, ?_, ?_⟩
          · intro next mem
            exact descends front next (emits_of_mem_emitted before served next mem)
          · rw [← Multiset.coe_add, ← Multiset.cons_coe, ← Multiset.singleton_add]
            ac_rfl

/-- It is enough to look at what the handlers may end with. -/
theorem descends_of_endsIn (typed : handlers.Typed)
    (ends : ∀ reached, ∀ h ∈ handlers.registered reached,
      h.EndsIn (fun invocation => ∀ next ∈ invocation.accepted, less next reached) reached x) :
    ∀ reached next, kind.Emits handlers m x w reached next → less next reached := by
  rintro reached next ⟨h, invocation, ⟨_, _, _, _, invoked⟩, mem⟩
  have accepts := typed reached h invoked.mem_registered
  exact invoked.endsIn accepts (ends reached h invoked.mem_registered) next mem

/-- Where whatever is emitted in a call is below the message that it is emitted for, the call comes
to its end, and all that it takes from its queue descends from the first message.  Neither the queue
nor the number of emissions is bounded beforehand. -/
theorem exists_ends_of_descends (wellFounded : WellFounded less)
    (descends : ∀ reached next, kind.Emits handlers m x w reached next → less next reached) :
    ∃ taken run, kind.Ends handlers m x w taken run ∧
      ∀ reached ∈ taken, ReflTransGen (kind.Emits handlers m x w) m reached := by
  obtain ⟨budget, ended⟩ := exists_drain_ends wellFounded descends .nothing []
  have ends : kind.Ends handlers m x w _ _ :=
    ⟨(handle_ne_unfinished_iff budget).mpr ended, budget, rfl, rfl⟩
  refine ⟨_, _, ends, ?_⟩
  intro reached mem
  obtain ⟨turns, behind, middle, takes⟩ := (ends.mem_taken_iff reached).mp mem
  apply descended_of_takes .nothing _ takes _ List.mem_cons_self
  intro waiting mem
  rw [List.mem_singleton.mp mem]

end BusKind

/-! ## A depot

Crates come packed in crates. -/

namespace Depot

def crate : MessageType := ⟨"depot::Crate", "Crate"⟩

/-- What is in a crate, each in a message of its own. -/
def contents : Message → List Message
  | .event ⟨type, .ok (.array inside)⟩ => inside.map fun part => .event ⟨type, .ok part⟩
  | _ => []

/-- A handler that rests twice before it unpacks a crate. -/
def unpacker : Handler Nat (List String) where
  name := "unpacker"
  accepts := crate
  behavior := .stateful 0
    { before := .done (.ok ())
      core := fun m _ => (Proc.pauses 2).bind fun _ => .done ⟨.ok .unit, contents m⟩
      after := .done () }

def handlers : Handlers Nat (List String) :=
  Registry.empty.setEventHandlers crate [unpacker]

/-- The first message is less than the second. -/
def Lighter (first second : Message) : Prop :=
  sizeOf first < sizeOf second

theorem lighter_wellFounded : WellFounded Lighter :=
  InvImage.wf sizeOf Nat.lt_wfRel.wf

theorem lighter_of_mem_contents {m next : Message} (mem : next ∈ contents m) : Lighter next m := by
  unfold contents at mem
  split at mem
  · rename_i type inside
    obtain ⟨part, partMem, rfl⟩ := List.mem_map.mp mem
    have lt := List.sizeOf_lt_of_mem partMem
    simp only [Lighter, Message.event.sizeOf_spec, Event.mk.sizeOf_spec, Except.ok.sizeOf_spec,
      Json.array.sizeOf_spec]
    omega
  · cases mem

theorem registered_eq (m : Message) (h : Handler Nat (List String))
    (mem : h ∈ handlers.registered m) : h = unpacker ∧ m.type = crate := by
  cases m with
  | event e =>
      have found := Registry.eventHandlers?_setEventHandlers (.empty : Handlers Nat (List String))
        crate [unpacker] e.type
      rw [Registry.registered, handlers, found] at mem
      split at mem
      · rename_i typeEq
        exact ⟨List.mem_singleton.mp mem, typeEq⟩
      · cases mem
  | command c => cases mem

/-- A crate of two crates of which one is full, and their parts. -/
def delivery : Message :=
  .event ⟨crate, .ok (.array [.array [.null, .null], .array []])⟩

/-- All crates are unpacked, the empty ones as well. -/
theorem exists_ends_of_descends_crates :
    WellFounded Lighter ∧
      (∀ reached next, BusKind.suspending.Emits handlers delivery ∅ Shop.opening reached next →
        Lighter next reached) ∧
      ∃ taken run, BusKind.suspending.Ends handlers delivery ∅ Shop.opening taken run ∧
        (∀ reached ∈ taken, ReflTransGen
          (BusKind.suspending.Emits handlers delivery ∅ Shop.opening) delivery reached) ∧
        taken.length = 5 := by
  have descends : ∀ reached next,
      BusKind.suspending.Emits handlers delivery ∅ Shop.opening reached next →
        Lighter next reached := by
    apply BusKind.descends_of_endsIn
    · intro m h mem
      rcases registered_eq m h mem with ⟨rfl, typeEq⟩
      exact typeEq.symm
    · intro reached h mem
      rcases registered_eq reached h mem with ⟨rfl, _⟩
      exact fun next => lighter_of_mem_contents
  rcases BusKind.exists_ends_of_descends lighter_wellFounded descends with
    ⟨taken, run, ends, descended⟩
  have unpacked : (BusKind.suspending.handle handlers 5 delivery ∅ Shop.opening).outcome ≠
      .unfinished := by
    rintro ⟨⟩
  have length : taken.length = 5 := by
    rw [(ends.unique (BusKind.ends_of_handle rfl unpacked rfl)).1]
    rfl
  exact ⟨lighter_wellFounded, descends, taken, run, ends, descended, length⟩

end Depot

end Courier
