import Courier.Proofs.Bus.Course
import Courier.Proofs.Bus.Sync
import Mathlib.Data.List.Chain
import Mathlib.Data.List.Forall2
import Mathlib.Logic.Relation
import Mathlib.Order.Bounds.Basic

/-!
# Generations of a cascade

Where handlers make the same of an event in every world and emit nothing but events, a
cascade falls into generations: the events that start it, the events that their turns
emit, and so on.  `Handlers.Cascade` lists the turns generation by generation.

Such a cascade ends wherever no event leads on without end (`exists_cascade`).  It has as
many generations as the longest chain of its events has members (`Cascade.depth`), and a
queue of events takes it turn by turn, one generation after the other (`Cascade.takes`).
-/

namespace Courier

variable {σ ω : Type}

/-- The handler makes the same of the event in every world, and emits nothing but
events. -/
def Handler.Steady (h : Handler σ ω) (e : Event) : Prop :=
  ∃ (invocation : Invocation) (next : List Event), invocation.accepted = next.map .event ∧
    ∀ w, ∃ w', (h.invoke (.event e) ∅).Returns w invocation w'

namespace Handlers

/-- In some world the turn of one event emits another. -/
def Emits (handlers : Handlers σ ω) (e e' : Event) : Prop :=
  ∃ w invocations w',
    Handler.InTurn ∅ (.event e) (handlers.registered (.event e)) w invocations w' ∧
      .event e' ∈ Turn.emitted ⟨.event e, invocations⟩

/-- The event is one of those that start a cascade, or follows from one. -/
def Arises (handlers : Handlers σ ω) (es : List Event) (e : Event) : Prop :=
  ∃ first ∈ es, Relation.ReflTransGen handlers.Emits first e

/-- Every event that arises finds handlers that are steady. -/
def Steady (handlers : Handlers σ ω) (es : List Event) : Prop :=
  ∀ e, handlers.Arises es e → ∀ h ∈ handlers.registered (.event e), h.Steady e

/-- None of the events leads on without end. -/
def Ends (handlers : Handlers σ ω) (es : List Event) : Prop :=
  ∀ e ∈ es, Acc (fun e' e => handlers.Emits e e') e

/-- Events that lead on from one to the next, starting with one of a list. -/
structure Chain (handlers : Handlers σ ω) (es chain : List Event) : Prop where
  starts : ∀ e ∈ chain.head?, e ∈ es
  leadsOn : chain.IsChain handlers.Emits

/-- The number of events in the longest chain. -/
def Depth (handlers : Handlers σ ω) (es : List Event) (n : Nat) : Prop :=
  IsGreatest {n | ∃ chain, handlers.Chain es chain ∧ chain.length = n} n

/-- The turn is the one that the event has in every world. -/
structure Answers (handlers : Handlers σ ω) (e : Event) (turn : Turn) : Prop where
  message : turn.message = .event e
  serves : ∀ w, ∃ w', Handler.InTurn ∅ (.event e) (handlers.registered (.event e)) w
    turn.invocations w'

/-- A cascade, as the turns of its generations. -/
inductive Cascade (handlers : Handlers σ ω) : List Event → List (List Turn) → Prop
  | ended : Cascade handlers [] []
  | generation {es next : List Event} {turns : List Turn} {later : List (List Turn)} :
      es ≠ [] → List.Forall₂ handlers.Answers es turns →
      turns.flatMap Turn.emitted = next.map Message.event →
      Cascade handlers next later → Cascade handlers es (turns :: later)

variable {handlers : Handlers σ ω} {es next : List Event} {e e' : Event} {turn : Turn}
  {turns : List Turn} {generations : List (List Turn)}

/-! ## One generation -/

/-- Where an event has one turn in every world, that turn has all that it emits. -/
theorem Answers.emits_iff (answers : handlers.Answers e turn) (w : World σ ω) :
    handlers.Emits e e' ↔ .event e' ∈ turn.emitted := by
  rcases turn with ⟨m, invocations⟩
  obtain rfl : m = .event e := answers.message
  constructor
  · rintro ⟨middle, others, w', served, emitted⟩
    obtain ⟨_, servedToo⟩ := answers.serves middle
    obtain ⟨rfl, _⟩ := served.unique servedToo
    exact emitted
  · intro emitted
    obtain ⟨w', served⟩ := answers.serves w
    exact ⟨w, invocations, w', served, emitted⟩

/-- Steady handlers have the event in one way, whatever the world. -/
theorem exists_invocations_of_steady {hs : List (Handler σ ω)} (steady : ∀ h ∈ hs, h.Steady e) :
    ∃ (invocations : List (String × Invocation)) (next : List Event),
      Turn.emitted ⟨.event e, invocations⟩ = next.map .event ∧
        ∀ w, ∃ w', Handler.InTurn ∅ (.event e) hs w invocations w' := by
  induction hs with
  | nil => exact ⟨[], [], rfl, fun w => ⟨w, .nobody⟩⟩
  | cons h rest ih =>
      obtain ⟨invocation, next, acceptedEq, invokes⟩ := steady h List.mem_cons_self
      obtain ⟨invocations, others, emittedEq, serves⟩ :=
        ih fun h mem => steady h (List.mem_cons_of_mem _ mem)
      refine ⟨(h.name, invocation) :: invocations, next ++ others, ?_, ?_⟩
      · rw [List.map_append, ← acceptedEq, ← emittedEq]
        rfl
      · intro w
        obtain ⟨middle, invoked⟩ := invokes w
        obtain ⟨w', served⟩ := serves middle
        exact ⟨w', .next invoked served⟩

theorem exists_answers (steady : ∀ h ∈ handlers.registered (.event e), h.Steady e) :
    ∃ (turn : Turn) (next : List Event),
      handlers.Answers e turn ∧ turn.emitted = next.map .event := by
  obtain ⟨invocations, next, emittedEq, serves⟩ := exists_invocations_of_steady steady
  exact ⟨⟨.event e, invocations⟩, next, ⟨rfl, serves⟩, emittedEq⟩

/-- Each event of a generation has its turn. -/
theorem exists_generation
    (steady : ∀ e ∈ es, ∀ h ∈ handlers.registered (.event e), h.Steady e) :
    ∃ (turns : List Turn) (next : List Event), List.Forall₂ handlers.Answers es turns ∧
      turns.flatMap Turn.emitted = next.map .event := by
  induction es with
  | nil => exact ⟨[], [], .nil, rfl⟩
  | cons e rest ih =>
      obtain ⟨turn, next, answers, emittedEq⟩ := exists_answers (steady e List.mem_cons_self)
      obtain ⟨turns, others, answersRest, emittedEqRest⟩ :=
        ih fun e mem => steady e (List.mem_cons_of_mem _ mem)
      refine ⟨turn :: turns, next ++ others, .cons answers answersRest, ?_⟩
      rw [List.flatMap_cons, emittedEq, emittedEqRest, List.map_append]

/-- The turns of a generation emit what its events emit. -/
theorem mem_emitted_iff (answers : List.Forall₂ handlers.Answers es turns) (w : World σ ω) :
    .event e' ∈ turns.flatMap Turn.emitted ↔ ∃ e ∈ es, handlers.Emits e e' := by
  induction answers with
  | nil => simp
  | cons answersFirst _ ih => simp [ih, answersFirst.emits_iff w]

/-- The next generation has what the turns of one emit. -/
theorem mem_next_iff (answers : List.Forall₂ handlers.Answers es turns) (w : World σ ω)
    (emitted : turns.flatMap Turn.emitted = next.map .event) (e' : Event) :
    e' ∈ next ↔ ∃ e ∈ es, handlers.Emits e e' := by
  rw [← mem_emitted_iff answers w, emitted]
  simp

/-! ## Chains -/

/-- Behind its first event a chain goes on in the next generation. -/
theorem Chain.tail {chain : List Event} (leads : handlers.Chain es (e :: chain))
    (next_iff : ∀ e', e' ∈ next ↔ ∃ e ∈ es, handlers.Emits e e') : handlers.Chain next chain where
  starts := by
    intro e' mem
    rw [next_iff]
    exact ⟨e, leads.starts e rfl, (List.isChain_cons.mp leads.leadsOn).1 e' mem⟩
  leadsOn := (List.isChain_cons.mp leads.leadsOn).2

/-- In front of a chain there is an event of the generation before. -/
theorem Chain.exists_cons {chain : List Event} (leads : handlers.Chain next chain)
    (next_iff : ∀ e', e' ∈ next ↔ ∃ e ∈ es, handlers.Emits e e') (nonempty : es ≠ []) :
    ∃ e, handlers.Chain es (e :: chain) := by
  cases chain with
  | nil =>
      obtain ⟨e, mem⟩ := List.exists_mem_of_ne_nil es nonempty
      exact ⟨e, by simpa using mem, .singleton e⟩
  | cons e' rest =>
      obtain ⟨e, mem, emits⟩ := (next_iff e').mp (leads.starts e' rfl)
      refine ⟨e, by simpa using mem, List.isChain_cons.mpr ⟨?_, leads.leadsOn⟩⟩
      simpa using emits

theorem Chain.nil : handlers.Chain es [] where
  starts := by simp
  leadsOn := .nil

/-- A cascade has as many generations as its longest chain has events. -/
theorem Cascade.depth (cascade : handlers.Cascade es generations) (w : World σ ω) :
    handlers.Depth es generations.length := by
  induction cascade with
  | ended =>
      refine ⟨⟨[], .nil, rfl⟩, ?_⟩
      rintro _ ⟨chain, leads, rfl⟩
      cases chain with
      | nil => exact Nat.le_refl 0
      | cons e rest => simpa using leads.starts e rfl
  | generation nonempty answers emitted _ ih =>
      have next_iff := mem_next_iff answers w emitted
      rcases ih with ⟨⟨chain, leads, lengthEq⟩, greatest⟩
      constructor
      · obtain ⟨e, leadsFrom⟩ := leads.exists_cons next_iff nonempty
        exact ⟨e :: chain, leadsFrom, by rw [List.length_cons, lengthEq, List.length_cons]⟩
      · rintro _ ⟨chain, leads, rfl⟩
        cases chain with
        | nil => exact Nat.zero_le _
        | cons e rest => exact Nat.succ_le_succ (greatest ⟨rest, leads.tail next_iff, rfl⟩)

/-! ## Cascades that end -/

theorem Steady.here (steady : handlers.Steady es) :
    ∀ e ∈ es, ∀ h ∈ handlers.registered (.event e), h.Steady e :=
  fun e mem => steady e ⟨e, mem, .refl⟩

/-- What follows from the next generation follows from the one before it. -/
theorem Arises.ofNext (next_iff : ∀ e', e' ∈ next ↔ ∃ e ∈ es, handlers.Emits e e')
    (arises : handlers.Arises next e) : handlers.Arises es e := by
  obtain ⟨e', mem, follows⟩ := arises
  obtain ⟨first, memFirst, emits⟩ := (next_iff e').mp mem
  exact ⟨first, memFirst, .head emits follows⟩

theorem Steady.ofNext (steady : handlers.Steady es)
    (next_iff : ∀ e', e' ∈ next ↔ ∃ e ∈ es, handlers.Emits e e') : handlers.Steady next :=
  fun e arises => steady e (arises.ofNext next_iff)

theorem Steady.ofMem (steady : handlers.Steady es) (mem : e ∈ es) : handlers.Steady [e] := by
  rintro e' ⟨first, memFirst, follows⟩
  obtain rfl := List.mem_singleton.mp memFirst
  exact steady e' ⟨first, mem, follows⟩

/-- No chain from the events is longer. -/
def ChainsWithin (handlers : Handlers σ ω) (es : List Event) (n : Nat) : Prop :=
  ∀ chain, handlers.Chain es chain → chain.length ≤ n

theorem chainsWithin_succ_iff {n : Nat} (nonempty : es ≠ [])
    (next_iff : ∀ e', e' ∈ next ↔ ∃ e ∈ es, handlers.Emits e e') :
    handlers.ChainsWithin es (n + 1) ↔ handlers.ChainsWithin next n := by
  constructor
  · intro within chain leads
    obtain ⟨e, leadsFrom⟩ := leads.exists_cons next_iff nonempty
    exact Nat.le_of_succ_le_succ (within _ leadsFrom)
  · intro within chain leads
    cases chain with
    | nil => exact Nat.zero_le _
    | cons e rest => exact Nat.succ_le_succ (within rest (leads.tail next_iff))

/-- A bound for each of the events gives one for all of them. -/
theorem exists_chainsWithin_of_forall (each : ∀ e ∈ es, ∃ n, handlers.ChainsWithin [e] n) :
    ∃ n, handlers.ChainsWithin es n := by
  induction es with
  | nil =>
      refine ⟨0, ?_⟩
      intro chain leads
      cases chain with
      | nil => exact Nat.le_refl 0
      | cons e rest => simpa using leads.starts e rfl
  | cons e rest ih =>
      obtain ⟨m, withinFirst⟩ := each e List.mem_cons_self
      obtain ⟨n, withinRest⟩ := ih fun e mem => each e (List.mem_cons_of_mem _ mem)
      refine ⟨max m n, ?_⟩
      intro chain leads
      cases chain with
      | nil => exact Nat.zero_le _
      | cons first others =>
          rcases List.mem_cons.mp (leads.starts first rfl) with rfl | mem
          · have bound := withinFirst (first :: others) ⟨by simp, leads.leadsOn⟩
            exact Nat.le_trans bound (Nat.le_max_left m n)
          · have bound := withinRest (first :: others) ⟨by simpa using mem, leads.leadsOn⟩
            exact Nat.le_trans bound (Nat.le_max_right m n)

/-- Where an event does not lead on without end, there is a longest chain from it. -/
theorem exists_chainsWithin_of_acc (w : World σ ω)
    (ends : Acc (fun e' e => handlers.Emits e e') e) (steady : handlers.Steady [e]) :
    ∃ n, handlers.ChainsWithin [e] n := by
  induction ends with
  | intro e _ ih =>
      obtain ⟨turn, next, answers, emitted⟩ := exists_answers (steady.here e List.mem_cons_self)
      have next_iff : ∀ e', e' ∈ next ↔ ∃ first ∈ [e], handlers.Emits first e' :=
        mem_next_iff (.cons answers .nil) w (by simpa using emitted)
      have each : ∀ e' ∈ next, ∃ n, handlers.ChainsWithin [e'] n := by
        intro e' mem
        have emits : handlers.Emits e e' := by simpa using (next_iff e').mp mem
        exact ih e' emits ((steady.ofNext next_iff).ofMem mem)
      obtain ⟨n, within⟩ := exists_chainsWithin_of_forall each
      exact ⟨n + 1, (chainsWithin_succ_iff (List.cons_ne_nil e []) next_iff).mpr within⟩

/-- Where no event leads on without end, the cascade ends. -/
theorem exists_cascade (w : World σ ω) (steady : handlers.Steady es)
    (ends : handlers.Ends es) :
    ∃ generations, handlers.Cascade es generations := by
  obtain ⟨n, within⟩ := exists_chainsWithin_of_forall fun e mem =>
    exists_chainsWithin_of_acc w (ends e mem) (steady.ofMem mem)
  clear ends
  induction n generalizing es with
  | zero =>
      cases es with
      | nil => exact ⟨[], .ended⟩
      | cons e rest => exact absurd (within [e] ⟨by simp, .singleton e⟩) (by simp)
  | succ n ih =>
      by_cases nonempty : es = []
      · subst nonempty
        exact ⟨[], .ended⟩
      · obtain ⟨turns, next, answers, emitted⟩ := exists_generation steady.here
        have next_iff := mem_next_iff answers w emitted
        obtain ⟨later, cascade⟩ :=
          ih (steady.ofNext next_iff) ((chainsWithin_succ_iff nonempty next_iff).mp within)
        exact ⟨turns :: later, .generation nonempty answers emitted cascade⟩

/-! ## On a bus -/

open Progress

/-- A queue takes a generation turn by turn, and the next one joins it behind. -/
theorem takes_generation (answers : List.Forall₂ handlers.Answers es turns) (behind : List Message)
    (w : World σ ω) :
    ∃ w', Takes (fun m => Handler.InTurn ∅ m (handlers.registered m)) (es.map .event ++ behind) w
      turns (behind ++ turns.flatMap Turn.emitted) w' := by
  induction answers generalizing behind w with
  | nil => exact ⟨w, by simpa using .nothing⟩
  | @cons e turn es turns answersFirst _ ih =>
      rcases turn with ⟨m, invocations⟩
      obtain rfl : m = .event e := answersFirst.message
      obtain ⟨middle, served⟩ := answersFirst.serves w
      obtain ⟨w', takes⟩ := ih (behind ++ Turn.emitted ⟨.event e, invocations⟩) middle
      refine ⟨w', .turn served (.event e invocations) ?_⟩
      simpa using takes

/-- A queue takes the cascade generation by generation. -/
theorem Cascade.takes (cascade : handlers.Cascade es generations) (w : World σ ω) :
    ∃ w', Takes (fun m => Handler.InTurn ∅ m (handlers.registered m)) (es.map .event) w
      generations.flatten [] w' := by
  induction cascade generalizing w with
  | ended => exact ⟨w, .nothing⟩
  | generation _ answers emitted _ ih =>
      obtain ⟨middle, takes⟩ := takes_generation answers [] w
      obtain ⟨w', takesLater⟩ := ih middle
      rw [List.append_nil, List.nil_append, emitted] at takes
      exact ⟨w', takes.append takesLater⟩

end Handlers

end Courier
