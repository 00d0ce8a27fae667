import Courier.Context
import Courier.Extra
import Courier.Handler.Proc
import Courier.Message

/-!
# Handlers

A handler is registered for one type of message under a name.  A plain handler
is a procedure alone.  A stateful one belongs to an instance with a state of its
own, and its core stands between two hooks: when the hook before it succeeds,
the core runs, and then the hook after it.

Several registrations may share an instance.
-/

namespace Courier

/-- An instance of a stateful handler. -/
abbrev InstanceId : Type := Nat

/-- Everything that handlers can see and change: the context, the states of all
instances, and what lies outside the bus. -/
structure World (σ ω : Type) where
  context : Context
  instances : InstanceId → σ
  outside : ω

/-- The part of the world that one handler works on. -/
structure View (σ ω : Type) where
  own : σ
  context : Context
  outside : ω

namespace World

variable {σ ω : Type}

/-- What a stateful handler sees. -/
def view (i : InstanceId) (w : World σ ω) : View σ ω :=
  ⟨w.instances i, w.context, w.outside⟩

/-- The world after a stateful handler has changed what it sees. -/
def putView (i : InstanceId) (v : View σ ω) (w : World σ ω) : World σ ω where
  context := v.context
  instances := fun j => if j = i then v.own else w.instances j
  outside := v.outside

/-- What a plain handler sees. -/
def plainView (w : World σ ω) : View Unit ω :=
  ⟨(), w.context, w.outside⟩

/-- The world after a plain handler has changed what it sees. -/
def putPlainView (v : View Unit ω) (w : World σ ω) : World σ ω :=
  { w with context := v.context, outside := v.outside }

end World

/-- How an invocation ends: with a value or an error, and with the messages that
the handler leaves for the bus. -/
structure Invocation where
  result : Except HandlerError Value
  emitted : List Message := []

/-- The procedures of a stateful handler. -/
structure Lifecycle (σ ω : Type) where
  before : Proc (View σ ω) (Except HandlerError Unit)
  core : Message → Extra → Proc (View σ ω) Invocation
  after : Proc (View σ ω) Unit

/-- The procedure of a plain handler. -/
abbrev Routine (ω : Type) : Type :=
  Message → Extra → Proc (View Unit ω) (Except HandlerError Value)

/-- What a handler does. -/
inductive Behavior (σ ω : Type) where
  | stateful (owner : InstanceId) (lifecycle : Lifecycle σ ω)
  | plain (routine : Routine ω)

/-- A registered handler. -/
structure Handler (σ ω : Type) where
  name : String
  /-- The type of message that the handler is made for. -/
  accepts : MessageType
  behavior : Behavior σ ω

/-- The two kinds of handler. -/
inductive HandlerKind where
  | stateful
  | plain
deriving DecidableEq, Repr

/-- The word for a kind of handler. -/
def HandlerKind.word : HandlerKind → String
  | stateful => "stateful"
  | plain => "plain"

namespace Invocation

/-- The invocation of a handler with a message of another type than its own. -/
def mismatch (accepts : MessageType) (m : Message) : Invocation :=
  ⟨.error (.messageTypeMismatch accepts.path m.name), []⟩

end Invocation

namespace Lifecycle

variable {σ ω : Type}

/-- One invocation that blocks: once the hook before it has succeeded, the hook
after it runs however the core ends. -/
def invoke (h : Lifecycle σ ω) (m : Message) (x : Extra) : Action (View σ ω) Invocation := do
  match ← h.before.run with
  | .error e => return ⟨.error e, []⟩
  | .ok () => (h.core m x).run.ensuring h.after.run

/-- One invocation that may suspend; a crash leaves it where it stands. -/
def procedure (h : Lifecycle σ ω) (m : Message) (x : Extra) :
    Proc (View σ ω) Invocation := do
  match ← h.before with
  | .error e => return ⟨.error e, []⟩
  | .ok () => do
      let invocation ← h.core m x
      h.after
      return invocation

end Lifecycle

namespace Handler

variable {σ ω : Type}

/-- The kind of a handler. -/
def kind (h : Handler σ ω) : HandlerKind :=
  match h.behavior with
  | .stateful _ _ => .stateful
  | .plain _ => .plain

/-- One invocation that blocks. -/
def invoke (h : Handler σ ω) (m : Message) (x : Extra) : Action (World σ ω) Invocation :=
  if m.type ≠ h.accepts then pure (.mismatch h.accepts m)
  else
    match h.behavior with
    | .stateful owner lifecycle =>
        (lifecycle.invoke m x).within (World.view owner) (World.putView owner)
    | .plain routine =>
        (do return ⟨← (routine m x).run, []⟩ : Action (View Unit ω) Invocation).within
          World.plainView World.putPlainView

/-- The name and the kind of a handler. -/
def label (h : Handler σ ω) : String :=
  h.name ++ "/" ++ h.kind.word

/-- The structure of a handler as far as it is shown; `suspends` tells on which
kind of bus it is. -/
def outline (suspends : Bool) (h : Handler σ ω) : String :=
  let kind :=
    match h.kind with
    | .stateful => "Stateful"
    | .plain => "Plain"
  (if suspends then "AsyncErasedHandler" else "ErasedHandler") ++ " \x7b name: " ++
    Text.quoted h.name ++ ", kind: " ++ kind ++ " \x7d"

/-- The same registration under another name. -/
def named (h : Handler σ ω) (name : String) : Handler σ ω :=
  { h with name := name }

end Handler

end Courier
