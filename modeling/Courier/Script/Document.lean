import Courier.Audit.Logger
import Courier.Bus.Progress
import Courier.Script.Handler
import Courier.Script.Samples

/-!
# Scripts as documents

Scripted handlers, what they put into a context, and the registrations of a bus
can be described by documents.  A list of handlers may name an earlier one of
its members again, which registers the same instance once more.
-/

namespace Courier

namespace Supply

/-- The type that is called by a word. -/
def typeNamed (word : String) : TypeName :=
  match word with
  | "u32" => TypeName.u32
  | "i64" => TypeName.i64
  | "bool" => TypeName.bool
  | "string" => TypeName.text
  | "list" => TypeName.ints
  | "log_mailer" => TypeName.logMailer
  | "mailer" => TypeName.mailer
  | "store" => TypeName.store
  | _ => "driver::view::Probe"

/-- The type that a document asks for. -/
def typeOf (a : Json) : TypeName :=
  typeNamed (a.textAt "type")

/-- What a document puts into a context. -/
def ofDocument (a : Json) : Supply :=
  let type := typeOf a
  match a.textAt "type" with
  | "store" => .newStore
  | "probe" => .newObject type
  | "bool" => .given ⟨type, .bool (a.flagAt "value")⟩
  | "string" => .given ⟨type, .text (a.textAt "value")⟩
  | "list" => .given ⟨type, .ints ((a.itemsAt "value").filterMap Json.int?)⟩
  | "mailer" | "log_mailer" => .given ⟨type, .mailer Surroundings.loggingMailer⟩
  | _ => .given ⟨type, .int (a.intAt "value")⟩

/-- Whether a document puts it there for one call only. -/
def isCallScoped (a : Json) : Bool :=
  a.textAt "how" == "scoped"

end Supply

namespace PlannedStore

/-- The store whose refusals a document lists. -/
def ofDocument (a : Json) : PlannedStore where
  refusedAdds := (a.itemsAt "fail_add").filterMap fun k => k.int?.map Int.toNat
  refusedCommits := (a.itemsAt "fail_commit").filterMap fun k => k.int?.map Int.toNat

end PlannedStore

/-- The message that a document describes; one that describes none stands for a
command of no type. -/
def Samples.readD (a : Json) : Message :=
  match read a with
  | .ok m => m
  | .error _ => .command ⟨default, .null⟩

namespace Script

/-- The error that a failing instruction describes. -/
def errorOf (a : Json) : HandlerError :=
  let text := a.textAt "text"
  match a.textAt "kind" with
  | "rejected" => .rejected text
  | "other" => .other ("custom<" ++ text ++ ">") []
  | "codec" => .codec (.unknownEvent text)
  | "context" => .context (.missing text)
  | _ => .failed text

/-- The message of a described type with a number and a tag. -/
def nextMessage (a : Json) (n : Int) (tag : String) : Option Message :=
  (Samples.make a (some (.ofFields [("n", .int n), ("tag", .string tag)]))).toOption

/-- The instruction that a document describes. -/
def instructionOf (a : Json) : Instruction :=
  let key := a.textAt "key"
  match a.textAt "a" with
  | "see" => .see
  | "emit" | "emit_typed" => .emit (Samples.readD (a.fieldD "m"))
  | "next" => .next (a.intAt "limit") (a.textAt "suffix") (nextMessage (a.fieldD "m"))
  | "outbox" => .outbox
  | "drain" => .drain
  | "fail" => .fail (errorOf a)
  | "panic" => .crash (a.textAt "text")
  | "put" => .put key (Supply.ofDocument a) (Supply.isCallScoped a)
  | "require" => .require key (Supply.typeOf a)
  | "get" => .get key (Supply.typeOf a)
  | "has" => .has key
  | "del" => .remove key
  | "release" => .release
  | "extra" => .extra key
  | "count" => .count
  | "yield" => .suspend ((a.intAt? "times").getD 1).toNat
  | _ => .say (a.textAt "text")

/-- The lines of a script under a key. -/
def linesAt (a : Json) (key : String) : List ScriptLine :=
  (a.itemsAt key).map fun line => ⟨instructionOf line, line.intAt? "if_n"⟩

/-- What a handler is to return. -/
def returnsNamed (word : String) : Returns :=
  match word with
  | "i64" => .number
  | "string" => .tag
  | "json" => .both
  | _ => .unit

/-- The script that a document describes.  Only two of the five kinds of handler
have hooks, and only two see the data of the call. -/
def ofDocument (a : Json) : Script :=
  let kind := a.textAt "kind"
  let hooks := kind == "hooked" || kind == "full"
  { name := a.textAt "name"
    before := if hooks then linesAt a "before" else []
    core := linesAt a "do"
    after := if hooks then linesAt a "after" else []
    returns := returnsNamed (a.textAt "returns")
    seesExtra := kind == "full" || kind == "plain_extra" }

/-- The handlers of scripts. -/
abbrev ScriptHandler : Type :=
  Handler (Holdings Int) Surroundings

/-- The handler that a document describes; `number` is an instance that is not
used yet.  Beside scripts there are audit loggers, which block or suspend as
their bus does. -/
def handlerOf (suspends : Bool) (accepts : MessageType) (number : Nat) (a : Json) :
    ScriptHandler :=
  match a.textAt "kind" with
  | "audit" =>
      let redacted := a.textsAt "fields"
      if suspends then
        AuditLogger.handler "herald_runtime::event_log::AsyncEventsLogger" TypeName.asyncStore
          number redacted accepts
      else
        AuditLogger.handler "herald_runtime::event_log::EventsLogger" TypeName.store
          number redacted accepts
  | "plain" | "plain_extra" => (ofDocument a).plain number accepts
  | _ => (ofDocument a).stateful number accepts

/-- The handlers of a list after those made so far, and the next instance that is
not used. -/
def handlersOf (suspends : Bool) (accepts : MessageType) :
    (made : List ScriptHandler) → (number : Nat) → List Json → List ScriptHandler × Nat
  | made, number, [] => (made, number)
  | made, number, a :: rest =>
      match a.intAt? "same" with
      | some i => handlersOf suspends accepts (made ++ (made[i.toNat]?).toList) number rest
      | none =>
          let handler := handlerOf suspends accepts number a
          handlersOf suspends accepts (made ++ [handler]) (number + 1) rest

/-- Handlers that are registered, and the next instance that is not used. -/
abbrev Registered : Type :=
  Handlers (Holdings Int) Surroundings × Nat

/-- Register the handlers of an event type under the type `slot`. -/
def registerEvent (suspends : Bool) (slot : MessageType) (a : Json) (r : Registered) :
    Registered :=
  let (made, number) :=
    handlersOf suspends (Samples.eventType (a.textAt "type")) [] r.2 (a.itemsAt "handlers")
  (r.1.setEventHandlers slot made, number)

/-- Register the handler of a command type under the type `slot`. -/
def registerCommand (suspends : Bool) (slot : MessageType) (a : Json) (r : Registered) :
    Registered :=
  let made := handlerOf suspends (Samples.commandType (a.textAt "type")) r.2 (a.fieldD "handler")
  (r.1.setCommandHandler slot made, r.2 + 1)

/-- Register the handlers that a document lists, each under its own type. -/
def register (suspends : Bool) (a : Json) (r : Registered) : Registered :=
  let events := (a.itemsAt "events").foldl
    (fun r a => registerEvent suspends (Samples.eventType (a.textAt "type")) a r) r
  (a.itemsAt "commands").foldl
    (fun r a => registerCommand suspends (Samples.commandType (a.textAt "type")) a r) events

end Script

end Courier
