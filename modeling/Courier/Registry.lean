import Courier.Error
import Courier.Message
import Courier.Table

/-!
# The registry

Which handlers are registered for which type of message: a list for each event
type, which may be empty, and one handler for each command type.
-/

namespace Courier

universe u

/-- The registered handlers. -/
structure Registry (η : Type u) where
  events : Table MessageType (List η) := .empty
  commands : Table MessageType η := .empty

namespace Registry

variable {η : Type u}

instance : Inhabited (Registry η) := ⟨{}⟩

/-- Register a list of handlers for an event type, in the place of the one that
was there. -/
def setEventHandlers (r : Registry η) (type : MessageType) (handlers : List η) : Registry η :=
  { r with events := r.events.insert type handlers }

/-- Register the handler of a command type, in the place of the one that was
there. -/
def setCommandHandler (r : Registry η) (type : MessageType) (handler : η) : Registry η :=
  { r with commands := r.commands.insert type handler }

/-- The handlers of an event type, in registration order. -/
def eventHandlers? (r : Registry η) (type : MessageType) : Option (List η) :=
  r.events.get? type

/-- The handler of a command type. -/
def commandHandler? (r : Registry η) (type : MessageType) : Option η :=
  r.commands.get? type

/-- The handlers of an event type, or the reason why there are none. -/
def eventHandlers (r : Registry η) (type : MessageType) : Except RegistryError (List η) :=
  match r.eventHandlers? type with
  | some handlers => .ok handlers
  | none => .error (.eventHandlersMissing type.name)

/-- The handler of a command type, or the reason why there is none. -/
def commandHandler (r : Registry η) (type : MessageType) : Except RegistryError η :=
  match r.commandHandler? type with
  | some handler => .ok handler
  | none => .error (.commandHandlerMissing type.name)

/-- The handlers of the type of a message, or the reason why there are none. -/
def find (r : Registry η) : Message → Except RegistryError (List η)
  | .event e => r.eventHandlers e.type
  | .command c => (r.commandHandler c.type).map fun handler => [handler]

/-- Forget the handlers of an event type. -/
def removeEventHandlers (r : Registry η) (type : MessageType) : Registry η :=
  { r with events := r.events.erase type }

/-- Forget the handler of a command type. -/
def removeCommandHandler (r : Registry η) (type : MessageType) : Registry η :=
  { r with commands := r.commands.erase type }

/-- The registry without registrations. -/
def empty : Registry η := {}

/-- Names in order. -/
def sortedNames (names : List String) : List String :=
  names.mergeSort fun a b => decide (a ≤ b)

/-- The names of the event types with a registration, in order, one for each
type. -/
def eventNames (r : Registry η) : List String :=
  sortedNames (r.events.entries.map fun entry => entry.1.name)

/-- The names of the command types with a registration, in order, one for each
type. -/
def commandNames (r : Registry η) : List String :=
  sortedNames (r.commands.entries.map fun entry => entry.1.name)

/-- Whether nothing is registered. -/
def isEmpty (r : Registry η) : Bool :=
  r.events.isEmpty && r.commands.isEmpty

/-- Registering a list changes what is found for its type only. -/
theorem eventHandlers?_setEventHandlers (r : Registry η) (type : MessageType)
    (handlers : List η) (other : MessageType) :
    (r.setEventHandlers type handlers).eventHandlers? other =
      if other = type then some handlers else r.eventHandlers? other :=
  r.events.get?_insert type handlers other

/-- Registering a handler changes what is found for its type only. -/
theorem commandHandler?_setCommandHandler (r : Registry η) (type : MessageType) (handler : η)
    (other : MessageType) :
    (r.setCommandHandler type handler).commandHandler? other =
      if other = type then some handler else r.commandHandler? other :=
  r.commands.get?_insert type handler other

/-- Forgetting a list changes what is found for its type only. -/
theorem eventHandlers?_removeEventHandlers (r : Registry η) (type other : MessageType) :
    (r.removeEventHandlers type).eventHandlers? other =
      if other = type then none else r.eventHandlers? other :=
  r.events.get?_erase type other

/-- Forgetting a handler changes what is found for its type only. -/
theorem commandHandler?_removeCommandHandler (r : Registry η) (type other : MessageType) :
    (r.removeCommandHandler type).commandHandler? other =
      if other = type then none else r.commandHandler? other :=
  r.commands.get?_erase type other

/-- The structure of the registry as far as it is shown. -/
def outline (r : Registry η) : String :=
  "HandlerRegistry \x7b events: " ++ Text.quotedList r.eventNames ++ ", commands: " ++
    Text.quotedList r.commandNames ++ " \x7d"

end Registry

end Courier
