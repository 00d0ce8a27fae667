import Courier.Proofs.Bus.Kind
import Courier.Proofs.Handler.ContextUse

/-!
# Release points

The suspending bus releases the call-scoped entries of the context after every event, and at
no other time.  So what is call-scoped when a call returns comes from the commands behind
its last event, or, if it had no event, was there when it started.

The main statement speaks of accounts: lists of what the commands in question have done to
the context.
-/

namespace Courier

open Courier.Action Courier.Progress Courier.ContextOp

variable {σ ω : Type}

/-- The last of these turns is that of an event. -/
def EndsWithEvent (turns : List Turn) : Prop :=
  ∃ earlier e invocations, turns = earlier ++ [⟨.event e, invocations⟩]

/-- Turns are divided by the last event among them. -/
theorem exists_lastEvent (turns : List Turn) :
    ∃ upTo behind, turns = upTo ++ behind ∧ (upTo = [] ∨ EndsWithEvent upTo) ∧
      ∀ turn ∈ behind, ∃ c, turn.message = .command c := by
  induction turns using List.reverseRecOn with
  | nil => exact ⟨[], [], rfl, .inl rfl, by simp⟩
  | append_singleton turns turn ih =>
      obtain ⟨upTo, behind, rfl, ending, commands⟩ := ih
      rcases turn with ⟨m, invocations⟩
      cases m with
      | event e =>
          exact ⟨upTo ++ behind ++ [⟨.event e, invocations⟩], [], by simp, .inr ⟨_, _, _, rfl⟩,
            by simp⟩
      | command c =>
          refine ⟨upTo, behind ++ [⟨.command c, invocations⟩], by simp, ending, ?_⟩
          intro turn mem
          rcases List.mem_append.mp mem with mem | mem
          · exact commands turn mem
          · rw [List.mem_singleton.mp mem]
            exact ⟨c, rfl⟩

theorem Progress.takes_nil_iff {S : Type} {serving : Serving S} {queue left : List Message}
    {s s' : S} : Takes serving queue s [] left s' ↔ queue = left ∧ s = s' := by
  constructor
  · rintro ⟨⟩
    exact ⟨rfl, rfl⟩
  · rintro ⟨rfl, rfl⟩
    exact .nothing

/-- Turns that follow each other may be parted anywhere. -/
theorem Progress.takes_append_iff {S : Type} {serving : Serving S} {queue left : List Message}
    {first second : List Turn} {s s' : S} :
    Takes serving queue s (first ++ second) left s' ↔
      ∃ between middle, Takes serving queue s first between middle ∧
        Takes serving between middle second left s' := by
  constructor
  · intro takes
    induction first generalizing queue s with
    | nil => exact ⟨queue, s, .nothing, takes⟩
    | cons turn rest ih =>
        cases takes with
        | turn served continues takesRest =>
            obtain ⟨between, middle, takesFirst, takesSecond⟩ := ih takesRest
            exact ⟨between, middle, .turn served continues takesFirst, takesSecond⟩
  · rintro ⟨between, middle, takesFirst, takesSecond⟩
    exact takesFirst.append takesSecond

namespace Handlers

/-- An account of commands that have their turns one after the other: what their handlers
have done to the context.  A command without handler does nothing. -/
inductive CommandsUse (handlers : Handlers σ ω) (x : Extra) :
    World σ ω → List Command → List ContextOp → World σ ω → Prop
  | nothing {w : World σ ω} : CommandsUse handlers x w [] [] w
  | handled {c : Command} {commands : List Command} {h : Handler σ ω} {ops more : List ContextOp}
      {invocation : Invocation} {w middle w' : World σ ω} :
      handlers.commandHandler? c.type = some h →
      (h.program (.command c) x).Uses w ops invocation middle →
      CommandsUse handlers x middle commands more w' →
      CommandsUse handlers x w (c :: commands) (ops ++ more) w'
  | unhandled {c : Command} {commands : List Command} {ops : List ContextOp} {w w' : World σ ω} :
      handlers.commandHandler? c.type = none → CommandsUse handlers x w commands ops w' →
      CommandsUse handlers x w (c :: commands) ops w'

variable {handlers : Handlers σ ω} {x : Extra} {w middle w' : World σ ω}

theorem CommandsUse.performAll_eq {commands : List Command} {ops : List ContextOp}
    (uses : handlers.CommandsUse x w commands ops w') : w.context.performAll ops = w'.context := by
  induction uses with
  | nothing => rfl
  | handled _ used _ ih => rw [Context.performAll_append, used.performAll_eq, ih]
  | unhandled _ _ ih => exact ih

theorem CommandsUse.append {first second : List Command} {ops more : List ContextOp}
    (uses : handlers.CommandsUse x w first ops middle)
    (usesMore : handlers.CommandsUse x middle second more w') :
    handlers.CommandsUse x w (first ++ second) (ops ++ more) w' := by
  induction uses with
  | nothing => exact usesMore
  | handled registered used _ ih =>
      rw [List.cons_append, List.append_assoc]
      exact .handled registered used (ih usesMore)
  | unhandled unregistered _ ih => exact .unhandled unregistered (ih usesMore)

/-- The turn of a command has an account. -/
theorem exists_commandsUse_of_inTurn {c : Command} {invocations : List (String × Invocation)}
    (served : Handler.InTurn x (.command c) (handlers.registered (.command c)) w invocations w') :
    ∃ ops, handlers.CommandsUse x w [c] ops w' := by
  simp only [Registry.registered] at served
  cases registered : handlers.commandHandler? c.type with
  | none =>
      rw [registered, Option.toList_none, Handler.inTurn_nil_iff] at served
      rcases served with ⟨rfl, rfl⟩
      exact ⟨[], .unhandled registered .nothing⟩
  | some h =>
      rw [registered, Option.toList_some, Handler.inTurn_singleton_iff] at served
      rcases served with ⟨invocation, invoked, rfl⟩
      rw [Handler.invoke_returns_iff, ← Program.exists_uses_iff] at invoked
      rcases invoked with ⟨ops, uses⟩
      exact ⟨ops ++ [], .handled registered uses .nothing⟩

end Handlers

namespace AsyncBus

variable {handlers : Handlers σ ω} {x : Extra} {w w' : World σ ω}

/-- The turns of commands have an account. -/
theorem exists_commandsUse_of_takes {queue left : List Message} {turns : List Turn}
    (commandsOnly : ∀ turn ∈ turns, ∃ c, turn.message = .command c)
    (takes : Takes (Convenes handlers x) queue w turns left w') :
    ∃ commands ops, turns.map (·.message) = commands.map .command ∧
      handlers.CommandsUse x w commands ops w' := by
  induction takes with
  | nothing => exact ⟨[], [], rfl, .nothing⟩
  | turn served _ _ ih =>
      rw [List.forall_mem_cons] at commandsOnly
      obtain ⟨⟨c, rfl⟩, commandsRest⟩ := commandsOnly
      rw [convenes_command_iff] at served
      obtain ⟨ops, uses⟩ := Handlers.exists_commandsUse_of_inTurn served
      obtain ⟨commands, more, messagesEq, usesRest⟩ := ih commandsRest
      refine ⟨c :: commands, ops ++ more, ?_, uses.append usesRest⟩
      rw [List.map_cons, messagesEq, List.map_cons]

/-- The release after an event takes away what is call-scoped, and nothing else. -/
theorem released_of_takes {m : Message} {turns : List Turn} {e : Event}
    {invocations : List (String × Invocation)} {left : List Message}
    (takes : Takes (Convenes handlers x) [m] w (turns ++ [⟨.event e, invocations⟩]) left w') :
    ∃ behind before served budget results,
      Takes (Convenes handlers x) [m] w turns (.event e :: behind) before ∧
      (Cohort.run budget (handlers.registered (.event e)) (.event e) x).Returns
        ⟨before, Locks.free⟩ results ⟨served, Locks.free⟩ ∧
      ∀ key entry, w'.context.at? key = some entry ↔
        served.context.at? key = some entry ∧ entry.callScoped = false := by
  obtain ⟨between, before, takesBefore, takesLast⟩ := takes_append_iff.mp takes
  cases takesLast with
  | turn convenes _ takesNone =>
      obtain ⟨_, rfl⟩ := takes_nil_iff.mp takesNone
      obtain ⟨budget, results, served, ran, _, rfl⟩ := convenes
      refine ⟨_, before, served, budget, results, takesBefore, ran, ?_⟩
      intro key entry
      show served.context.releaseScoped.at? key = some entry ↔ _
      rw [Context.at?_releaseScoped, Option.filter_eq_some_iff, Bool.not_eq_true']

theorem unscoped_of_takes {m : Message} {turns : List Turn} (ending : EndsWithEvent turns)
    {left : List Message} (takes : Takes (Convenes handlers x) [m] w turns left w') :
    ∀ key entry, w'.context.at? key = some entry → entry.callScoped = false := by
  rcases ending with ⟨earlier, e, invocations, rfl⟩
  obtain ⟨_, _, _, _, _, _, _, released⟩ := released_of_takes takes
  intro key entry there
  exact ((released key entry).mp there).2

/-- Turns go up to the last event among them, and the commands behind it have an account. -/
theorem exists_lastEvent_of_takes {m : Message} {turns : List Turn} {left : List Message}
    (takes : Takes (Convenes handlers x) [m] w turns left w') :
    ∃ upTo between start commands ops,
      turns.map (·.message) = upTo.map (·.message) ++ commands.map .command ∧
      Takes (Convenes handlers x) [m] w upTo between start ∧ (upTo = [] ∨ EndsWithEvent upTo) ∧
      handlers.CommandsUse x start commands ops w' := by
  obtain ⟨upTo, behind, rfl, ending, commandsOnly⟩ := exists_lastEvent turns
  obtain ⟨between, start, takesUpTo, takesBehind⟩ := takes_append_iff.mp takes
  obtain ⟨commands, ops, messagesEq, uses⟩ := exists_commandsUse_of_takes commandsOnly takesBehind
  refine ⟨upTo, between, start, commands, ops, ?_, takesUpTo, ending, uses⟩
  rw [List.map_append, messagesEq]

/-- The messages of a call are the turns up to its last event and the commands behind. -/
theorem exists_lastEvent_of_call {m : Message} {taken : List Message} {r : CallResult}
    (called : BusKind.suspending.Call handlers m x w taken r w') :
    ∃ turns left start commands, taken = turns.map (·.message) ++ commands.map .command ∧
      Takes (Convenes handlers x) [m] w turns left start ∧ (turns = [] ∨ EndsWithEvent turns) ∧
      ∃ ops, handlers.CommandsUse x start commands ops w' := by
  rw [BusKind.call_iff_course] at called
  cases called with
  | results takes =>
      obtain ⟨turns, left, start, commands, ops, messagesEq, takesUpTo, ending, uses⟩ :=
        exists_lastEvent_of_takes takes
      exact ⟨turns, left, start, commands, messagesEq, takesUpTo, ending, ops, uses⟩
  | @error _ c _ middle _ e takes aborts =>
      obtain ⟨turns, left, start, commands, ops, messagesEq, takesUpTo, ending, uses⟩ :=
        exists_lastEvent_of_takes takes
      -- The command that has ended the call is one more behind the last event.
      obtain ⟨invocations, served, _⟩ := (handlers.aborts_iff_inTurn x c middle w' e).mp aborts
      obtain ⟨last, usesLast⟩ := Handlers.exists_commandsUse_of_inTurn served
      refine ⟨turns, left, start, commands ++ [c], ?_, takesUpTo, ending, ops ++ last,
        uses.append usesLast⟩
      rw [messagesEq, List.map_append, List.map_singleton, List.append_assoc]

/-- When a message is taken right after an event, the context has no call-scoped entry, and
what was not call-scoped is as the handlers of the event have left it.  When a call returns,
with results or an error, exactly those entries are call-scoped that a command behind the last
event has put there so, and no operation behind that concerns; or, if there was no event, that
were there when the call started, and no operation concerns.  So a call whose last message is
an event leaves none. -/
theorem scoped_entries (handlers : Handlers σ ω) (m : Message) (x : Extra) (w : World σ ω) :
    (∀ turns e invocations left w',
      Takes (Convenes handlers x) [m] w (turns ++ [⟨.event e, invocations⟩]) left w' →
      ∃ behind before served budget results,
        Takes (Convenes handlers x) [m] w turns (.event e :: behind) before ∧
        (Cohort.run budget (handlers.registered (.event e)) (.event e) x).Returns
          ⟨before, Locks.free⟩ results ⟨served, Locks.free⟩ ∧
        ∀ key entry, w'.context.at? key = some entry ↔
          served.context.at? key = some entry ∧ entry.callScoped = false) ∧
    ∀ taken r s', Call handlers m x ⟨w, Locks.free⟩ taken r s' →
      ∃ turns left start commands w', s' = ⟨w', Locks.free⟩ ∧
        taken = turns.map (·.message) ++ commands.map .command ∧
        Takes (Convenes handlers x) [m] w turns left start ∧ (turns = [] ∨ EndsWithEvent turns) ∧
        (∃ ops, handlers.CommandsUse x start commands ops w') ∧
        (∀ ops, handlers.CommandsUse x start commands ops w' → ∀ key value,
          w'.context.at? key = some ⟨value, true⟩ ↔
            LastPuts ops key value ∨
              (turns = [] ∧ Untouched ops key ∧ w.context.at? key = some ⟨value, true⟩)) ∧
        ((∃ e, taken.getLast? = some (.event e)) →
          ∀ key entry, w'.context.at? key = some entry → entry.callScoped = false) := by
  refine ⟨fun turns e invocations left w' takes => released_of_takes takes, ?_⟩
  rintro taken r ⟨w', locks⟩ called
  obtain ⟨_, ⟨⟩, _⟩ := (call_iff_convenes handlers m x w _ taken r).mp called
  have called : BusKind.suspending.Call handlers m x w taken r w' := called
  obtain ⟨turns, left, start, commands, takenEq, takes, ending, account⟩ :=
    exists_lastEvent_of_call called
  refine ⟨turns, left, start, commands, w', rfl, takenEq, takes, ending, account, ?_, ?_⟩
  · intro ops uses key value
    rw [← uses.performAll_eq, Context.at?_performAll_iff]
    rcases ending with rfl | ending
    · obtain ⟨_, rfl⟩ := takes_nil_iff.mp takes
      simp
    · have unscoped : start.context.at? key ≠ some ⟨value, true⟩ := fun there =>
        absurd (unscoped_of_takes ending takes key _ there) Bool.noConfusion
      have some_turn : turns ≠ [] := by
        rcases ending with ⟨earlier, e, invocations, rfl⟩
        simp
      simp [unscoped, some_turn]
  · rintro ⟨e, lastEq⟩
    rcases List.eq_nil_or_concat commands with rfl | ⟨others, c, rfl⟩
    · obtain ⟨_, ⟨⟩⟩ := account
      rcases ending with rfl | ending
      · rw [takenEq] at lastEq
        cases lastEq
      · exact unscoped_of_takes ending takes
    · rw [takenEq] at lastEq
      simp at lastEq

end AsyncBus

end Courier

/-! ## A stall

Whoever takes an order hands out a ticket for this order and has it charged.  The till
hands out a receipt. -/

namespace Courier.Shop

def waiter : Handler Nat (List String) where
  name := "waiter"
  accepts := ordered.type
  behavior := .stateful 0
    { before := .done (.ok ())
      core := fun _ _ => .step
        (fun v => { v with context := v.context.put "ticket" .unit true })
        fun _ => .done ⟨.ok .unit, [.command charge]⟩
      after := .done () }

def cashier : Handler Nat (List String) where
  name := "cashier"
  accepts := charge.type
  behavior := .plain fun _ _ => .step
    (fun v => { v with context := v.context.put "receipt" .unit true })
    fun _ => .done (.ok .unit)

def stall : Handlers Nat (List String) :=
  (Registry.empty.setEventHandlers ordered.type [waiter]).setCommandHandler charge.type cashier

end Courier.Shop

namespace Courier.AsyncBus

open Courier.Progress

/-- The receipt is left, since the till has put it there behind the last event; the ticket is
not. -/
theorem scoped_entries_stall :
    ∃ s', Call Shop.stall (.event Shop.ordered) ∅ ⟨Shop.opening, Locks.free⟩
        [.event Shop.ordered, .command Shop.charge]
        (.ok [⟨.event Shop.ordered, "waiter", .unit⟩,
          ⟨.command Shop.charge, "cashier", .unit⟩]) s' ∧
      s'.world.context.at? "ticket" = none ∧
      s'.world.context.at? "receipt" = some ⟨.unit, true⟩ ∧
      ∃ start commands w' ops, s' = ⟨w', Locks.free⟩ ∧
        Shop.stall.CommandsUse ∅ start commands ops w' ∧
          ContextOp.LastPuts ops "receipt" .unit := by
  have called : Call Shop.stall (.event Shop.ordered) ∅ ⟨Shop.opening, Locks.free⟩
      [.event Shop.ordered, .command Shop.charge]
      (.ok [⟨.event Shop.ordered, "waiter", .unit⟩, ⟨.command Shop.charge, "cashier", .unit⟩]) _ :=
    ⟨2, ⟨rfl, rfl⟩, .took ⟨rfl, rfl⟩ (.took ⟨rfl, rfl⟩ .emptied)⟩
  obtain ⟨turns, _, start, commands, w', worldEq, takenEq, _, _, ⟨ops, uses⟩, entries, _⟩ :=
    (scoped_entries Shop.stall (.event Shop.ordered) ∅ Shop.opening).2 _ _ _ called
  refine ⟨_, called, rfl, rfl, start, commands, w', ops, worldEq, uses, ?_⟩
  have there : w'.context.at? "receipt" = some ⟨.unit, true⟩ :=
    (congrArg (fun s => s.world.context.at? "receipt") worldEq).symm
  rcases (entries ops uses "receipt" .unit).mp there with puts | ⟨rfl, _, before⟩
  · exact puts
  · cases before

end Courier.AsyncBus
