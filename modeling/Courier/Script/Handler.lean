import Courier.Handler.Holdings
import Courier.Script.Surroundings

/-!
# Scripted handlers

Handlers that follow a list of instructions, so that the behaviour of a bus can
be tried out without writing handlers for it.  What they see they say into the
trace.
-/

namespace Courier

/-- One instruction of a script. -/
inductive Instruction where
  | say (text : String)
  /-- Say the number and the tag of the message. -/
  | see
  | emit (m : Message)
  /-- Emit a message with the next number and a longer tag, up to a limit. -/
  | next (limit : Int) (more : String) (make : Int → String → Option Message)
  /-- Say what is in the outbox. -/
  | outbox
  /-- Empty the outbox. -/
  | drain
  | fail (e : HandlerError)
  | crash (text : String)
  | put (key : String) (supply : Supply) (callScoped : Bool)
  | require (key : String) (type : TypeName)
  | get (key : String) (type : TypeName)
  | has (key : String)
  | remove (key : String)
  | release
  /-- Say what the data of the call holds under a key. -/
  | extra (key : String)
  /-- Count the invocations of the instance. -/
  | count
  | suspend (times : Nat)

/-- An instruction that may be meant for messages with one number only. -/
structure ScriptLine where
  instruction : Instruction
  onlyFor : Option Int := none

namespace Script

/-- The number that a message carries. -/
def numberOf (m : Message) : Int :=
  match m.body?.bind fun a => (a.field? "n").bind Json.int? with
  | some n => if n < 9223372036854775808 then n else 0
  | none => 0

/-- The tag that a message carries: its field of that name, or else its id. -/
def tagOf (m : Message) : String :=
  match m.body? with
  | none => ""
  | some a =>
      let given :=
        match a.field? "tag" with
        | some tag => some tag
        | none => a.field? "id"
      (given.bind Json.string?).getD ""

/-- What a script works with. -/
structure Stage (S : Type) where
  /-- The name of the handler. -/
  name : String
  /-- The message, which hooks do not see. -/
  message : Option Message := none
  /-- The data of the call, if the handler sees it. -/
  extra : Option Extra := none
  /-- Count one more invocation. -/
  tally : Proc S Int

/-- The messages that wait to be emitted, for a handler that can emit. -/
abbrev Outbox : Type :=
  Option (List Message)

variable {σ : Type}

/-- The view of a scripted handler. -/
abbrev ScriptView (σ : Type) : Type :=
  View σ Surroundings

/-- Say something under the name of the handler. -/
def speak (stage : Stage (ScriptView σ)) (text : String) : Proc (ScriptView σ) Unit :=
  Proc.modify fun v => { v with outside := v.outside.say (stage.name ++ ":" ++ text) }

/-- A boolean as text. -/
def boolText (b : Bool) : String :=
  if b then "true" else "false"

/-- Change the context. -/
def setContext (context : Context) : Proc (ScriptView σ) Unit :=
  Proc.modify fun v => { v with context }

/-- Follow one instruction; the result is the outbox, and an error if the
instruction fails. -/
def follow (stage : Stage (ScriptView σ)) (box : Outbox) :
    Instruction → Proc (ScriptView σ) (Outbox × Except HandlerError Unit)
  | .say text => do
      speak stage text
      return (box, .ok ())
  | .see => do
      speak stage <|
        match stage.message with
        | some m => "n=" ++ toString (numberOf m) ++ " tag=" ++ tagOf m
        | none => "no message"
      return (box, .ok ())
  | .emit m => do
      match box with
      | some messages => return (some (messages ++ [m]), .ok ())
      | none => do
          speak stage "no outbox"
          return (box, .ok ())
  | .next limit more make =>
      match stage.message, box with
      | some m, some messages =>
          if numberOf m < limit then
            .done (some (messages ++ (make (numberOf m + 1) (tagOf m ++ more)).toList), .ok ())
          else .done (box, .ok ())
      | _, _ => .done (box, .ok ())
  | .outbox => do
      speak stage <|
        match box with
        | some messages =>
            "len=" ++ toString messages.length ++ " empty=" ++ boolText messages.isEmpty ++ " [" ++
              ",".intercalate (messages.map (·.label)) ++ "]"
        | none => "no outbox"
      return (box, .ok ())
  | .drain => do
      speak stage ("drained " ++ toString (box.getD []).length)
      return (box.map fun _ => [], .ok ())
  | .fail e => .done (box, .error e)
  | .crash text => .crash text
  | .put key supply callScoped => do
      let v ← Proc.get
      let (value, outside) := supply.make key v.outside
      Proc.modify fun v =>
        { v with outside, context := v.context.put key value callScoped }
      speak stage ("put " ++ key ++ " " ++ boolText (v.context.contains key))
      return (box, .ok ())
  | .require key type => do
      match (← Proc.get).context.require key type with
      | .ok value => do
          speak stage (key ++ "=" ++ value.shown.text)
          return (box, .ok ())
      | .error e => return (box, .error (.context e))
  | .get key type => do
      let found := (← Proc.get).context.get? key type
      speak stage (key ++ "=" ++ ((found.map Value.shown).getD Json.null).text)
      return (box, .ok ())
  | .has key => do
      speak stage ("has " ++ key ++ " " ++ boolText ((← Proc.get).context.contains key))
      return (box, .ok ())
  | .remove key => do
      let context := (← Proc.get).context
      setContext (context.remove key)
      speak stage ("del " ++ key ++ " " ++ boolText (context.contains key))
      return (box, .ok ())
  | .release => do
      let context := (← Proc.get).context
      setContext context.releaseScoped
      speak stage ("released " ++ ",".intercalate context.scopedKeys)
      return (box, .ok ())
  | .extra key => do
      speak stage <|
        match stage.extra with
        | some x => "extra " ++ key ++ "=" ++ (x.getText? key).getD "<none>"
        | none => "no extra"
      return (box, .ok ())
  | .count => do
      let n ← stage.tally
      speak stage ("count=" ++ toString n)
      return (box, .ok ())
  | .suspend times => do
      Proc.pauses times
      return (box, .ok ())

/-- Whether an instruction is meant for the message at hand. -/
def applies (stage : Stage (ScriptView σ)) (line : ScriptLine) : Bool :=
  match line.onlyFor, stage.message with
  | none, _ => true
  | some n, some m => numberOf m == n
  | some _, none => false

/-- Follow a script up to its end or its first failing instruction. -/
def perform (stage : Stage (ScriptView σ)) :
    Outbox → List ScriptLine → Proc (ScriptView σ) (Outbox × Except HandlerError Unit)
  | box, [] => .done (box, .ok ())
  | box, line :: rest =>
      if applies stage line then do
        match ← follow stage box line.instruction with
        | (box, .ok ()) => perform stage box rest
        | (box, .error e) => return (box, .error e)
      else perform stage box rest

/-- What a scripted handler returns. -/
inductive Returns where
  | unit
  | number
  | tag
  | both
deriving DecidableEq, Repr

/-- The result of a scripted handler. -/
def Returns.value (r : Returns) (m : Message) : Value :=
  match r with
  | .unit => .unit
  | .number => ⟨TypeName.i64, .int (numberOf m)⟩
  | .tag => ⟨TypeName.text, .text (tagOf m)⟩
  | .both =>
      ⟨TypeName.json,
        .json (.ofFields [("n", .int (numberOf m)), ("tag", .string (tagOf m))])⟩

end Script

/-- A handler that follows scripts. -/
structure Script where
  name : String
  before : List ScriptLine := []
  core : List ScriptLine := []
  after : List ScriptLine := []
  returns : Script.Returns := .unit
  /-- Whether the handler sees the data of the call. -/
  seesExtra : Bool := false

namespace Script

/-- Count in the memory of an instance. -/
def tallyOwn : Proc (ScriptView (Holdings Int)) Int := do
  let n := (← Proc.get).own.memory + 1
  Proc.modify fun v => { v with own := { v.own with memory := n } }
  return n

/-- Count outside the bus, under the number of a plain handler. -/
def tallyOutside (number : Nat) : Proc (ScriptView Unit) Int := do
  let n := ((← Proc.get).outside.tallies.get? number).getD 0 + 1
  Proc.modify fun v =>
    { v with outside := { v.outside with tallies := v.outside.tallies.insert number n } }
  return n

/-- Perform the core of a script. -/
def invoke {σ : Type} (s : Script) (tally : Proc (ScriptView σ) Int) (box : Outbox) (m : Message)
    (x : Extra) : Proc (ScriptView σ) Invocation := do
  let stage : Stage (ScriptView σ) := ⟨s.name, some m, if s.seesExtra then some x else none, tally⟩
  let (box, result) ← perform stage box s.core
  match result with
  | .ok () => return ⟨.ok (s.returns.value m), box.getD []⟩
  | .error e => return ⟨.error e, box.getD []⟩

/-- A stateful handler that follows the scripts. -/
def stateful (s : Script) (owner : InstanceId) (accepts : MessageType) :
    Handler (Holdings Int) Surroundings where
  name := s.name
  accepts := accepts
  behavior :=
    .stateful owner
      { before := do return (← perform ⟨s.name, none, none, tallyOwn⟩ none s.before).2
        core := fun m x => s.invoke tallyOwn (some []) m x
        after := do let _ ← perform ⟨s.name, none, none, tallyOwn⟩ none s.after }

/-- A plain handler that follows the core script. -/
def plain (s : Script) (number : Nat) (accepts : MessageType) :
    Handler (Holdings Int) Surroundings where
  name := s.name
  accepts := accepts
  behavior :=
    .plain fun m x => do return (← s.invoke (tallyOutside number) none m x).result

end Script

end Courier
