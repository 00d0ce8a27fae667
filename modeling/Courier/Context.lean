import Courier.Dict
import Courier.Error
import Courier.Text.Quoted
import Courier.Value

/-!
# The context of a bus

Handlers find what they share in the context: values by key, each asked for with
its type.  An entry put there for one call only is call-scoped, and all such
entries are released together.
-/

namespace Courier

/-- A value in the context. -/
structure Entry where
  value : Value
  /-- Whether the entry is there for one call only. -/
  callScoped : Bool
deriving DecidableEq, Inhabited

/-- The values that the handlers of a bus share. -/
structure Context where
  entries : Dict Entry := .empty
deriving DecidableEq, Inhabited

namespace Context

/-- The context without entries. -/
def empty : Context := ⟨.empty⟩

/-- What is under a key. -/
def at? (c : Context) (key : String) : Option Entry :=
  c.entries.get? key

/-- Whether a key is present. -/
def contains (c : Context) (key : String) : Bool :=
  (c.at? key).isSome

/-- Put a value under a key, whatever was there. -/
def put (c : Context) (key : String) (value : Value) (callScoped : Bool) : Context :=
  ⟨c.entries.insert key ⟨value, callScoped⟩⟩

/-- The value under a key, if it is of the type asked for. -/
def get? (c : Context) (key : String) (type : TypeName) : Option Value :=
  ((c.at? key).map (·.value)).filter fun v => v.type == type

/-- The value under a key, or the reason why it cannot be had. -/
def require (c : Context) (key : String) (type : TypeName) : Except ContextError Value :=
  match c.at? key with
  | none => .error (.missing key)
  | some entry =>
      if entry.value.type = type then .ok entry.value
      else .error (.typeMismatch key type entry.value.type)

/-- Take a key out. -/
def remove (c : Context) (key : String) : Context :=
  ⟨c.entries.erase key⟩

/-- The keys in order. -/
def keys (c : Context) : List String :=
  c.entries.keys

/-- The number of entries. -/
def size (c : Context) : Nat :=
  c.entries.size

/-- The keys of the call-scoped entries in order. -/
def scopedKeys (c : Context) : List String :=
  (c.entries.filter fun _ entry => entry.callScoped).keys

/-- The context without its call-scoped entries. -/
def releaseScoped (c : Context) : Context :=
  ⟨c.entries.filter fun _ entry => !entry.callScoped⟩

/-- Putting a value changes what is under its key only. -/
theorem at?_put (c : Context) (key : String) (value : Value) (callScoped : Bool)
    (other : String) :
    (c.put key value callScoped).at? other =
      if other = key then some ⟨value, callScoped⟩ else c.at? other :=
  Dict.get?_insert c.entries key ⟨value, callScoped⟩ other

/-- Taking a key out changes what is under that key only. -/
theorem at?_remove (c : Context) (key other : String) :
    (c.remove key).at? other = if other = key then none else c.at? other :=
  Dict.get?_erase c.entries key other

/-- What is there for one call only is gone after the release, and all else stays. -/
theorem at?_releaseScoped (c : Context) (key : String) :
    c.releaseScoped.at? key = (c.at? key).filter fun entry => !entry.callScoped :=
  Dict.get?_filter c.entries _ key

/-- The structure of the context as far as it is shown. -/
def outline (c : Context) : String :=
  "Context \x7b keys: " ++ Text.quotedList c.keys ++ " \x7d"

end Context

end Courier
