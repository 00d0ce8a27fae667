/-!
# Errors

The causes for which handlers, dispatch, the context, the registry and the codec
fail.  `message` gives the wording of each, `causes` the messages of the errors
behind it; an error that only passes on another one has the message and the
causes of that one.
-/

namespace Courier

/-- Why an entry of the context cannot be had. -/
inductive ContextError where
  | missing (key : String)
  | typeMismatch (key expected actual : String)
deriving DecidableEq, Repr, Inhabited

/-- Why an event cannot be written or read. -/
inductive CodecError where
  | unknownEvent (name : String)
  | serialize (event reason : String)
  | deserialize (event reason : String)
deriving DecidableEq, Repr, Inhabited

/-- Why a registration cannot be found. -/
inductive RegistryError where
  | eventHandlersMissing (event : String)
  | commandHandlerMissing (command : String)
deriving DecidableEq, Repr, Inhabited

/-- Why a handler fails. -/
inductive HandlerError where
  | failed (text : String)
  | rejected (text : String)
  | messageTypeMismatch (expected got : String)
  | context (e : ContextError)
  | codec (e : CodecError)
  /-- An error of the handler's own, with the messages of those behind it. -/
  | other (text : String) (causes : List String)
deriving DecidableEq, Repr, Inhabited

/-- Why a call on a bus fails. -/
inductive DispatchError where
  | commandHandlerMissing (command : String)
  | commandFailed (command handler : String) (source : HandlerError)
  | unknownMessageType (name : String)
  | codec (e : CodecError)
deriving DecidableEq, Repr, Inhabited

namespace ContextError

def message : ContextError → String
  | missing key => "context entry '" ++ key ++ "' not found"
  | typeMismatch key expected actual =>
      "context entry '" ++ key ++ "' holds '" ++ actual ++ "', not '" ++ expected ++ "'"

end ContextError

namespace CodecError

def message : CodecError → String
  | unknownEvent name => "unknown event type: " ++ name
  | serialize event reason => "failed to serialize event '" ++ event ++ "': " ++ reason
  | deserialize event reason => "failed to deserialize event '" ++ event ++ "': " ++ reason

end CodecError

namespace RegistryError

def message : RegistryError → String
  | eventHandlersMissing event => "no handlers registered for event '" ++ event ++ "'"
  | commandHandlerMissing command => "no handler registered for command '" ++ command ++ "'"

end RegistryError

namespace HandlerError

def message : HandlerError → String
  | failed text => "handler failed: " ++ text
  | rejected text => "rejected: " ++ text
  | messageTypeMismatch expected got =>
      "message type mismatch: expected '" ++ expected ++ "', got '" ++ got ++ "'"
  | context e => e.message
  | codec e => e.message
  | other text _ => text

def causes : HandlerError → List String
  | other _ causes => causes
  | _ => []

end HandlerError

namespace DispatchError

def message : DispatchError → String
  | commandHandlerMissing command => "no handler registered for command '" ++ command ++ "'"
  | commandFailed command handler source =>
      "command '" ++ command ++ "' failed in handler '" ++ handler ++ "': " ++ source.message
  | unknownMessageType name => "unknown message type: " ++ name
  | codec e => e.message

def causes : DispatchError → List String
  | commandFailed _ _ source => source.message :: source.causes
  | _ => []

/-- An event of no known type is a message of no known type. -/
def ofCodec : CodecError → DispatchError
  | .unknownEvent name => .unknownMessageType name
  | e => .codec e

end DispatchError

/-- The error of a handler that passes on an error of a dispatch. -/
def HandlerError.ofDispatch (e : DispatchError) : HandlerError :=
  .other e.message e.causes

end Courier
