import Courier.Audit.Uuid
import Courier.Json.Basic

/-!
# Typed values

A value of any type together with the name of its type.  Results of handlers and
entries of the context are such values; who asks for one has to name its type.
-/

namespace Courier

/-- The name of a type, which tells it from all others. -/
abbrev TypeName : Type := String

/-- A store of audit rows. -/
abbrev StoreId : Type := Nat

/-- A mailer. -/
abbrev MailerId : Type := Nat

/-- What became of a notification. -/
inductive Delivery where
  /-- Mail is switched off, so it was only logged. -/
  | logged
  /-- It was handed to the mailer. -/
  | sent
deriving DecidableEq, Repr, Inhabited

/-- What a value is. -/
inductive Content where
  | unit
  | int (z : Int)
  | bool (b : Bool)
  | text (s : String)
  | ints (zs : List Int)
  | json (a : Json)
  /-- The number of an audit row. -/
  | row (id : Uuid)
  | delivery (d : Delivery)
  | store (id : StoreId)
  | mailer (id : MailerId)
  /-- An object that is only told apart from others. -/
  | object (id : Nat)
deriving DecidableEq, Inhabited

/-- A value with its type. -/
structure Value where
  type : TypeName
  content : Content
deriving DecidableEq, Inhabited

namespace TypeName

def unit : TypeName := "()"

def u32 : TypeName := "u32"

def i64 : TypeName := "i64"

def bool : TypeName := "bool"

def text : TypeName := "alloc::string::String"

def ints : TypeName := "alloc::vec::Vec<i64>"

def json : TypeName := "serde_json::value::Value"

/-- The number of an audit row. -/
def rowId : TypeName := "uuid::Uuid"

def delivery : TypeName := "herald_runtime::notify::Delivery"

/-- Any mailer. -/
def mailer : TypeName := "dyn herald_runtime::notify::Mailer"

/-- The mailer that only logs, as itself. -/
def logMailer : TypeName := "herald_runtime::notify::LogMailer"

/-- Any store of audit rows that blocks. -/
def store : TypeName := "dyn herald_runtime::event_log::EventLogStore"

/-- Any store of audit rows that may suspend. -/
def asyncStore : TypeName := "dyn herald_runtime::event_log::AsyncEventLogStore"

end TypeName

namespace Value

/-- The value that tells nothing. -/
def unit : Value := ⟨TypeName.unit, .unit⟩

/-- Whether a value is of the type that tells nothing. -/
def isUnit (v : Value) : Bool :=
  v.type == TypeName.unit

/-- The structure of a result as far as it is shown. -/
def outline (v : Value) : String :=
  "Output(\"" ++ v.type ++ "\")"

end Value

end Courier
