import Courier.Proofs.Bus.Async
import Courier.Proofs.Bus.Sync

/-!
# What the two buses agree on

The suspending bus does what the blocking bus does with the same handlers when
none of them suspends.  It does so wherever they suspend, as far as is seen, when
the handlers of events leave alone what is seen of what all handlers share.  Only
the call-scoped entries of the context make a difference: the suspending bus
releases them after every event, and the blocking bus never does.
-/

namespace Courier

variable {σ ω κ : Type}

/-- No entry of the context is call-scoped. -/
def Context.Unscoped (c : Context) : Prop :=
  c.scopedKeys = []

/-- Where nothing is call-scoped nothing is released. -/
theorem Context.Unscoped.releaseScoped_eq {c : Context} (unscoped : c.Unscoped) :
    c.releaseScoped = c := by
  have noneScoped : (c.entries.filter fun _ entry => entry.callScoped).entries = [] :=
    List.map_eq_nil_iff.mp unscoped
  have filterEq : (c.entries.filter fun _ entry => !entry.callScoped) = c.entries := by
    apply Dict.ext
    apply List.filter_eq_self.mpr
    intro entry mem
    have notScoped := List.filter_eq_nil_iff.mp noneScoped entry mem
    simpa using notScoped
  exact congrArg Context.mk filterEq

theorem World.afterTurn_of_unscoped {w : World σ ω} (unscoped : w.context.Unscoped)
    (m : Message) : w.afterTurn m = w := by
  cases m with
  | event e =>
      show { w with context := w.context.releaseScoped } = w
      rw [unscoped.releaseScoped_eq]
  | command c => rfl

namespace Handlers

/-- No handler puts a call-scoped entry into a context that has none. -/
def KeepUnscoped (handlers : Handlers σ ω) : Prop :=
  ∀ m, ∀ h ∈ handlers.registered m, h.Keeps fun c c' => c.1.Unscoped → c'.1.Unscoped

/-- No handler of a command does. -/
def CommandsKeepUnscoped (handlers : Handlers σ ω) : Prop :=
  ∀ c, ∀ h ∈ handlers.registered (.command c),
    h.Keeps fun c c' => c.1.Unscoped → c'.1.Unscoped

/-- No handler suspends. -/
def Unpaused (handlers : Handlers σ ω) : Prop :=
  ∀ m, ∀ h ∈ handlers.registered m, h.unpaused = h

/-- The handlers of events may read the context and what is seen of the outside, but
they change neither. -/
def EventsQuiet (g : ω → κ) (handlers : Handlers σ ω) : Prop :=
  ∀ e, ∀ h ∈ handlers.registered (.event e), h.Keeps fun c c' => c'.map id g = c.map id g

/-- No handler needs to know more of the outside than is seen. -/
def DependOn (g : ω → κ) (handlers : Handlers σ ω) : Prop :=
  ∀ m, ∀ h ∈ handlers.registered m, h.DependsOn g

theorem Unpaused.orderless {handlers : Handlers σ ω} (unpaused : handlers.Unpaused) (x : Extra) :
    handlers.Orderless id x := by
  intro m w
  apply Cohort.orderless_of_unpaused
  · intro p mem
    rcases List.mem_map.mp mem with ⟨h, _, rfl⟩
    exact (Handler.DependsOn.of_injective Function.injective_id h).program m x
  · intro p mem
    rcases List.mem_map.mp mem with ⟨h, handlerMem, rfl⟩
    rw [← h.program_unpaused, unpaused m h handlerMem]

/-- The handlers of an event are quiet, and a command has one handler at most. -/
theorem EventsQuiet.orderless {g : ω → κ} {handlers : Handlers σ ω}
    (quiet : handlers.EventsQuiet g) (depend : handlers.DependOn g) (x : Extra) :
    handlers.Orderless g x := by
  intro m w
  cases m with
  | event e =>
      apply Cohort.orderless_of_quiet
      intro p mem
      rcases List.mem_map.mp mem with ⟨h, handlerMem, rfl⟩
      exact ⟨(quiet e h handlerMem).program _ x, (depend _ h handlerMem).program _ x⟩
  | command c =>
      apply Cohort.orderless_of_length_le_one
      · intro p mem
        rcases List.mem_map.mp mem with ⟨h, handlerMem, rfl⟩
        exact (depend _ h handlerMem).program _ x
      · rw [List.length_map]
        exact Option.length_toList_le

theorem EventsQuiet.keepUnscoped {g : ω → κ} {handlers : Handlers σ ω}
    (quiet : handlers.EventsQuiet g) (kept : handlers.CommandsKeepUnscoped) :
    handlers.KeepUnscoped := by
  intro m h mem
  cases m with
  | event e =>
      apply (quiet e h mem).mono
      intro c c' same unscoped
      have contextEq : c'.1 = c.1 := (Prod.mk.inj same).1
      rw [contextEq]
      exact unscoped
  | command c => exact kept c h mem

theorem SameSteps.eventsQuiet {g : ω → κ} {first second : Handlers σ ω}
    (same : first.SameSteps second) (quiet : first.EventsQuiet g) : second.EventsQuiet g :=
  fun e => same.keeps (quiet e)

end Handlers

/-! ## The shop, where no clerk touches the context -/

namespace Shop

theorem clerk_unpaused (pauses : Nat) (post : Post) :
    (clerk pauses post).unpaused = clerk 0 post := by
  have pausesEq : ∀ n, (Proc.pauses n : Proc (View Nat (List String)) Unit).unpaused =
      .done () := by
    intro n
    induction n with
    | zero => rfl
    | succ n ih => exact ih
  simp only [Handler.unpaused, clerk, Lifecycle.unpaused, Proc.unpaused, Proc.unpaused_bind,
    pausesEq]
  rfl

/-- A clerk leaves the context as it is. -/
theorem clerk_keeps {R : Context × List String → Context × List String → Prop}
    (reads : ∀ context book book', R (context, book) (context, book')) (pauses : Nat)
    (post : Post) : (clerk pauses post).Keeps R := by
  have pausesKeep : ∀ n, (Proc.pauses n : Proc (View Nat (List String)) Unit).Keeps
      fun v v' => R v.shared v'.shared := by
    intro n
    induction n with
    | zero => trivial
    | succ n ih => exact ih
  constructor
  · trivial
  · constructor
    · intro _ _ v
      exact ⟨reads _ _ _, (pausesKeep pauses).bind fun _ => trivial⟩
    · trivial

/-- A clerk does not look into the book. -/
theorem clerk_dependsOn (pauses : Nat) (post : Post) :
    (clerk pauses post).DependsOn fun _ => () := by
  have pausesDepend : ∀ n, (Proc.pauses n : Proc (View Nat (List String)) Unit).DependsOn
      (View.seen fun _ => ()) := by
    intro n
    induction n with
    | zero => trivial
    | succ n ih => exact ih
  constructor
  · trivial
  · constructor
    · intro _ _
      constructor
      · intro v u same
        obtain ⟨ownEq, contextEq, _⟩ := View.mk.inj same
        constructor
        · simp only [View.seen, Post.sign, ownEq, contextEq]
        · rfl
      · exact fun _ => (pausesDepend pauses).bind fun _ => trivial
    · trivial

/-- Which posts there are for a message does not depend on how often a clerk
suspends. -/
theorem exists_registered (m : Message) :
    ∃ posts : List Post, ∀ pauses, (handlers pauses).registered m = posts.map (clerk pauses) := by
  cases m with
  | event e =>
      have eventHandlersEq : ∀ pauses, (handlers pauses).eventHandlers? e.type =
          if e.type = packed.type then some [clerk pauses packedPost]
          else if e.type = ordered.type then some (orderPosts.map (clerk pauses)) else none := by
        intro pauses
        exact (Registry.eventHandlers?_setEventHandlers _ _ _ _).trans
          (congrArg _ (Registry.eventHandlers?_setEventHandlers _ _ _ _))
      by_cases isPacked : e.type = packed.type
      · refine ⟨[packedPost], fun pauses => ?_⟩
        rw [Registry.registered, eventHandlersEq, if_pos isPacked]
        rfl
      · by_cases isOrdered : e.type = ordered.type
        · refine ⟨orderPosts, fun pauses => ?_⟩
          rw [Registry.registered, eventHandlersEq, if_neg isPacked, if_pos isOrdered]
          rfl
        · refine ⟨[], fun pauses => ?_⟩
          rw [Registry.registered, eventHandlersEq, if_neg isPacked, if_neg isOrdered]
          rfl
  | command c =>
      have commandHandlerEq : ∀ pauses, (handlers pauses).commandHandler? c.type =
          if c.type = charge.type then some (clerk pauses till) else none := by
        intro pauses
        exact Registry.commandHandler?_setCommandHandler _ _ _ _
      by_cases isCharge : c.type = charge.type
      · refine ⟨[till], fun pauses => ?_⟩
        rw [Registry.registered, commandHandlerEq, if_pos isCharge]
        rfl
      · refine ⟨[], fun pauses => ?_⟩
        rw [Registry.registered, commandHandlerEq, if_neg isCharge]
        rfl

theorem sameSteps (pauses others : Nat) : (handlers pauses).SameSteps (handlers others) := by
  intro m
  obtain ⟨posts, registeredEq⟩ := exists_registered m
  simp [registeredEq, Function.comp_def, clerk_unpaused]

/-- What is true of every clerk is true of all handlers. -/
theorem forall_registered {P : Handler Nat (List String) → Prop} {pauses : Nat}
    (clerks : ∀ post, P (clerk pauses post)) (m : Message) :
    ∀ h ∈ (handlers pauses).registered m, P h := by
  obtain ⟨posts, registeredEq⟩ := exists_registered m
  rw [registeredEq]
  intro h mem
  rcases List.mem_map.mp mem with ⟨post, _, rfl⟩
  exact clerks post

theorem unpaused : (handlers 0).Unpaused :=
  forall_registered (clerk_unpaused 0)

theorem keepUnscoped (pauses : Nat) : (handlers pauses).KeepUnscoped :=
  forall_registered (clerk_keeps (fun _ _ _ => id) pauses)

theorem eventsQuiet (pauses : Nat) : (handlers pauses).EventsQuiet fun _ => () :=
  fun e => forall_registered (clerk_keeps (fun _ _ _ => rfl) pauses) (.event e)

theorem dependOn (pauses : Nat) : (handlers pauses).DependOn fun _ => () :=
  forall_registered (clerk_dependsOn pauses)

/-- No clerk is there. -/
def closed : Handlers Nat (List String) := Registry.empty

/-- The world with an entry that is there for one call only. -/
def visited : World Nat (List String) :=
  { opening with context := Context.empty.put "visitor" .unit true }

end Shop

/-- On the blocking bus a call may take these messages and end with `r`, and this is
seen of the world that it leaves then. -/
def SyncBus.Leaves (g : ω → κ) (handlers : Handlers σ ω) (m : Message) (x : Extra)
    (w : World σ ω) (taken : List Message) (r : CallResult) (seen : World σ κ) : Prop :=
  ∃ w', SyncBus.Call handlers m x w taken r w' ∧ w'.seen g = seen

namespace AsyncBus

open Courier.Progress

variable {g : ω → κ} {sync async : Handlers σ ω} {x : Extra}

theorem unscoped_of_inTurn (kept : sync.KeepUnscoped) {m : Message} {w w' : World σ ω}
    {entries : List (String × Invocation)} (unscoped : w.context.Unscoped)
    (served : Handler.InTurn x m (sync.registered m) w entries w') : w'.context.Unscoped :=
  Handler.InTurn.keeps (kept m) (fun _ => id) (fun first second => second ∘ first) served unscoped

/-- Where nothing is call-scoped a turn is the same on both buses. -/
theorem takesTurn_iff_dispatch (same : sync.SameSteps async) (kept : sync.KeepUnscoped)
    {m : Message} {p : Progress} {w w' : World σ ω} {r : Except DispatchError Progress}
    (unscoped : w.context.Unscoped) :
    TakesTurn async x m p w r w' ↔
      w'.context.Unscoped ∧ (SyncBus.dispatch sync x m p).Returns w r w' := by
  simp only [TakesTurn, Serves, ← same.inTurn_iff, SyncBus.dispatch_returns_iff]
  constructor
  · rintro ⟨invocations, ⟨w', served, rfl⟩, settled⟩
    have unscoped' := unscoped_of_inTurn kept unscoped served
    rw [World.afterTurn_of_unscoped unscoped']
    exact ⟨unscoped', invocations, served, settled⟩
  · rintro ⟨unscoped', invocations, served, settled⟩
    exact ⟨invocations, ⟨w', served, (World.afterTurn_of_unscoped unscoped' m).symm⟩, settled⟩

/-- Where nothing is call-scoped the turns of a call are the same on both buses. -/
theorem turns_iff_sync_call (same : sync.SameSteps async) (kept : sync.KeepUnscoped) (m : Message)
    {w : World σ ω} (unscoped : w.context.Unscoped) (w' : World σ ω) (taken : List Message)
    (r : CallResult) :
    Drains (TakesTurn async x) ⟨[m], []⟩ w taken r w' ↔ SyncBus.Call sync m x w taken r w' := by
  rw [SyncBus.call_iff_drains]
  -- Both loops go through the same worlds, and none of them has a call-scoped entry.
  let together (w v : World σ ω) : Prop := w = v ∧ w.context.Unscoped
  have start : together w w := ⟨rfl, unscoped⟩
  constructor
  · intro drained
    have alike : ∃ v', together w' v' ∧
        Drains (fun m p => (SyncBus.dispatch sync x m p).Returns) ⟨[m], []⟩ w taken r v' := by
      apply drained.transport together start
      rintro m p w r w' _ ⟨rfl, unscoped⟩ turned
      rcases (takesTurn_iff_dispatch same kept unscoped).mp turned with ⟨unscoped', dispatched⟩
      exact ⟨w', ⟨rfl, unscoped'⟩, dispatched⟩
    rcases alike with ⟨_, ⟨rfl, _⟩, drainedAlike⟩
    exact drainedAlike
  · intro drained
    have alike : ∃ v', together w' v' ∧ Drains (TakesTurn async x) ⟨[m], []⟩ w taken r v' := by
      apply drained.transport together start
      rintro m p w r w' _ ⟨rfl, unscoped⟩ dispatched
      have unscoped' : w'.context.Unscoped := by
        rcases (SyncBus.dispatch_returns_iff sync x m p w w' r).mp dispatched with ⟨_, served, _⟩
        exact unscoped_of_inTurn kept unscoped served
      exact ⟨w', ⟨rfl, unscoped'⟩,
        (takesTurn_iff_dispatch same kept unscoped).mpr ⟨unscoped', dispatched⟩⟩
    rcases alike with ⟨_, ⟨rfl, _⟩, drainedAlike⟩
    exact drainedAlike

/-- When no handler suspends and nothing is call-scoped, the suspending bus does
what the blocking bus does with the same handlers: a call ends on the one if and
only if it ends on the other, with the same result, having taken the same messages
in the same order, and it leaves the same world.  What lies outside the bus may be
any record that the handlers keep, so that their effects come in the same order. -/
theorem call_iff_sync_call_of_unpaused (same : sync.SameSteps async) (unpaused : async.Unpaused)
    (kept : sync.KeepUnscoped) (m : Message) (x : Extra) {w : World σ ω}
    (unscoped : w.context.Unscoped) (s' : SharedWorld σ ω) (taken : List Message)
    (r : CallResult) :
    Call async m x ⟨w, Locks.free⟩ taken r s' ↔
      ∃ w', s' = ⟨w', Locks.free⟩ ∧ SyncBus.Call sync m x w taken r w' := by
  have orderless := unpaused.orderless x
  constructor
  · intro called
    obtain ⟨w', shows, turned⟩ := turns_of_call orderless called
    exact ⟨w', (s'.shows_id_iff w').mp shows,
      (turns_iff_sync_call same kept m unscoped w' taken r).mp turned⟩
  · rintro ⟨w', rfl, called⟩
    obtain ⟨s', shows, alike⟩ := call_of_turns orderless
      ((turns_iff_sync_call same kept m unscoped w' taken r).mpr called)
    rw [(s'.shows_id_iff w').mp shows] at alike
    exact alike

/-- The shop sells alike on both buses. -/
theorem call_iff_sync_call_shop :
    (∃ taken s', Call (Shop.handlers 0) (.event Shop.ordered) ∅ ⟨Shop.opening, Locks.free⟩ taken
      (.ok Shop.sold) s') ∧
    ∀ s' taken r,
      Call (Shop.handlers 0) (.event Shop.ordered) ∅ ⟨Shop.opening, Locks.free⟩ taken r s' ↔
        ∃ w', s' = ⟨w', Locks.free⟩ ∧
          SyncBus.Call (Shop.handlers 2) (.event Shop.ordered) ∅ Shop.opening taken r w' := by
  constructor
  · have returned : (handle (Shop.handlers 0) 3 (.event Shop.ordered) ∅).Returns
        ⟨Shop.opening, Locks.free⟩ (.ok Shop.sold) _ := ⟨rfl, rfl⟩
    rcases (handle_returns_iff _ _ _ _ _ _ _).mp returned with ⟨taken, _, drained⟩
    exact ⟨taken, _, 3, returned, drained⟩
  · exact call_iff_sync_call_of_unpaused (Shop.sameSteps 2 0) Shop.unpaused
      (Shop.keepUnscoped 2) (.event Shop.ordered) ∅ rfl

/-- Where a call takes one turn after the other, every message has its turn, every
registered handler its invocation in the order of registration, and what the
invocations emit is queued in this order. -/
theorem performs_of_call {handlers : Handlers σ ω} (orderless : handlers.Orderless g x)
    {m : Message} {w : World σ ω} {s' : SharedWorld σ ω} {taken : List Message} {r : CallResult}
    (called : Call handlers m x ⟨w, Locks.free⟩ taken r s') :
    s'.locks = Locks.free ∧ ∃ (turns : List Turn) (w' : World σ ω),
      s'.world.seen g = w'.seen g ∧ taken = turns.map (·.message) ∧
      Performs (Serves handlers x) w turns w' ∧
      (∀ turn ∈ turns, turn.invocations.map (·.1) =
        (handlers.registered turn.message).map (·.name)) ∧
      taken <+: m :: turns.flatMap Turn.emitted ∧
      ∀ results, r = .ok results →
        taken = m :: turns.flatMap Turn.emitted ∧ results = turns.flatMap Turn.results := by
  obtain ⟨w', ⟨locksEq, seenEq⟩, turned⟩ := turns_of_call orderless called
  obtain ⟨turns, takenEq, performed, front, complete⟩ := turned.fifo id
  have names := Performs.forall (P := fun turn => turn.invocations.map (·.1) =
      (handlers.registered turn.message).map (·.name))
    (fun ⟨_, served, _⟩ => served.names) performed
  exact ⟨locksEq, turns, w', seenEq, takenEq, performed, names, front, by simpa using complete⟩

/-- When the handlers of events change neither the context nor what any handler
needs to know of the outside, it does not matter where handlers suspend: a call
ends with the same result, has taken the same messages in the same order, and
leaves the same context and the same instances.  It takes turn after turn, and
what a turn emits is queued in registration order, whoever ends first.  If nothing
is call-scoped, all this is what the blocking bus makes of it. -/
theorem leaves_iff_of_eventsQuiet {first second : Handlers σ ω} (same : first.SameSteps second)
    (quiet : first.EventsQuiet g) (depend : first.DependOn g) (dependToo : second.DependOn g)
    (m : Message) (x : Extra) (w : World σ ω) (taken : List Message) (r : CallResult)
    (seen : World σ κ) :
    (Leaves g first m x w taken r seen ↔ Leaves g second m x w taken r seen) ∧
    (∀ s', Call first m x ⟨w, Locks.free⟩ taken r s' →
      s'.locks = Locks.free ∧ ∃ (turns : List Turn) (w' : World σ ω),
        s'.world.seen g = w'.seen g ∧ taken = turns.map (·.message) ∧
        Performs (Serves first x) w turns w' ∧
        (∀ turn ∈ turns, turn.invocations.map (·.1) =
          (first.registered turn.message).map (·.name)) ∧
        taken <+: m :: turns.flatMap Turn.emitted ∧
        ∀ results, r = .ok results →
          taken = m :: turns.flatMap Turn.emitted ∧ results = turns.flatMap Turn.results) ∧
    (w.context.Unscoped → first.CommandsKeepUnscoped →
      (Leaves g first m x w taken r seen ↔ SyncBus.Leaves g second m x w taken r seen)) := by
  have orderless := quiet.orderless depend x
  have orderlessToo := (same.eventsQuiet quiet).orderless dependToo x
  have sameTurns : ∀ {m p w r w'}, TakesTurn first x m p w r w' ↔
      TakesTurn second x m p w r w' := by
    intro m p w r w'
    simp only [TakesTurn, Serves, same.inTurn_iff]
  refine ⟨?_, fun s' => performs_of_call orderless, ?_⟩
  · rw [leaves_iff_turns orderless, leaves_iff_turns orderlessToo]
    constructor
    · rintro ⟨w', turned, seenEq⟩
      exact ⟨w', turned.mono sameTurns.mp, seenEq⟩
    · rintro ⟨w', turned, seenEq⟩
      exact ⟨w', turned.mono sameTurns.mpr, seenEq⟩
  · intro unscoped kept
    have keptToo : second.KeepUnscoped := fun m => same.keeps (quiet.keepUnscoped kept m)
    rw [leaves_iff_turns orderless]
    simp only [turns_iff_sync_call same.symm keptToo m unscoped]
    rfl

/-- The shop sells alike wherever its clerks suspend, and none of them looks into
the book. -/
theorem leaves_iff_of_eventsQuiet_shop :
    (∃ taken seen, Leaves (fun _ => ()) (Shop.handlers 1) (.event Shop.ordered) ∅ Shop.opening
      taken (.ok Shop.sold) seen) ∧
    ∀ taken r seen,
      (Leaves (fun _ => ()) (Shop.handlers 1) (.event Shop.ordered) ∅ Shop.opening taken r seen ↔
        Leaves (fun _ => ()) (Shop.handlers 2) (.event Shop.ordered) ∅ Shop.opening taken r
          seen) ∧
      (Leaves (fun _ => ()) (Shop.handlers 1) (.event Shop.ordered) ∅ Shop.opening taken r seen ↔
        SyncBus.Leaves (fun _ => ()) (Shop.handlers 2) (.event Shop.ordered) ∅ Shop.opening taken
          r seen) := by
  constructor
  · have returned : (handle (Shop.handlers 1) 5 (.event Shop.ordered) ∅).Returns
        ⟨Shop.opening, Locks.free⟩ (.ok Shop.sold) _ := ⟨rfl, rfl⟩
    rcases (handle_returns_iff _ _ _ _ _ _ _).mp returned with ⟨taken, _, drained⟩
    exact ⟨taken, _, _, ⟨5, returned, drained⟩, rfl⟩
  · intro taken r seen
    obtain ⟨anyPlace, _, asSync⟩ := leaves_iff_of_eventsQuiet (Shop.sameSteps 1 2)
      (Shop.eventsQuiet 1) (Shop.dependOn 1) (Shop.dependOn 2) (.event Shop.ordered) ∅
      Shop.opening taken r seen
    exact ⟨anyPlace, asSync rfl fun c => Shop.keepUnscoped 1 (.command c)⟩

/-- A call-scoped entry makes a difference: after an event that nobody handles it is
gone on the suspending bus, and still there on the blocking bus. -/
theorem scoped_entry_differs :
    (Shop.closed.EventsQuiet fun _ => ()) ∧ (Shop.closed.DependOn fun _ => ()) ∧
      Shop.closed.CommandsKeepUnscoped ∧
      ∃ s' w', Call Shop.closed (.event Shop.ordered) ∅ ⟨Shop.visited, Locks.free⟩
          [.event Shop.ordered] (.ok []) s' ∧
        SyncBus.Call Shop.closed (.event Shop.ordered) ∅ Shop.visited
          [.event Shop.ordered] (.ok []) w' ∧
        s'.world.context.contains "visitor" = false ∧ w'.context.contains "visitor" = true := by
  refine ⟨?_, ?_, ?_, _, _, ⟨1, ⟨rfl, rfl⟩, ?_⟩, ⟨1, ⟨rfl, rfl⟩, ?_⟩, rfl, rfl⟩
  · exact fun e h mem => absurd mem List.not_mem_nil
  · intro m h mem
    cases m <;> exact absurd mem List.not_mem_nil
  · exact fun c h mem => absurd mem List.not_mem_nil
  · exact .took ⟨rfl, rfl⟩ .emptied
  · exact .took ⟨rfl, rfl⟩ .emptied

end AsyncBus

end Courier
