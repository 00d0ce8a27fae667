import Courier.Audit.Logger
import Courier.Bus.Progress
import Courier.Notify.Notifier

/-!
# Buses with the default handlers

A bus that is made from settings has audit loggers for the events that are worth
a row, and notifiers for what happens to passwords.  Its context holds the store
and the mailer that they need.
-/

namespace Courier

/-- A bus: what is registered, what is in its context, and how its instances
stand. -/
structure Bus (σ ω : Type) where
  handlers : Handlers σ ω := .empty
  context : Context := .empty
  instances : InstanceId → σ

namespace Bus

variable {σ ω : Type}

/-- The world of a bus. -/
def world (b : Bus σ ω) (outside : ω) : World σ ω :=
  ⟨b.context, b.instances, outside⟩

/-- The bus after its world has changed. -/
def putWorld (b : Bus σ ω) (w : World σ ω) : Bus σ ω :=
  { b with context := w.context, instances := w.instances }

/-- The structure of a bus as far as it is shown; `suspends` tells its kind. -/
def outline (suspends : Bool) (b : Bus σ ω) : String :=
  (if suspends then "AsyncBus" else "SyncBus") ++ " \x7b registry: " ++ b.handlers.outline ++
    ", context: " ++ b.context.outline ++ " \x7d"

end Bus

namespace Wiring

variable {τ ω : Type}

/-- The events that are written to the audit log. -/
def auditedFormats : List EventFormat :=
  [Catalogue.test, Catalogue.authSessionClosed, Catalogue.folderCreated, Catalogue.folderUpdated,
    Catalogue.folderRemoved]

/-- Register one audit logger for each audited type, as instances from `first`
on. -/
def registerLoggers [AuditStores ω] (name : String) (type : TypeName) (redacted : List String) :
    (first : InstanceId) → List EventFormat → Handlers (Holdings τ) ω → Handlers (Holdings τ) ω
  | _, [], handlers => handlers
  | first, f :: rest, handlers =>
      registerLoggers name type redacted (first + 1) rest
        (handlers.setEventHandlers f.type
          [AuditLogger.handler name type first redacted f.type])

/-- The instance of the notifier for password changes that are asked for. -/
def requestNotifier : InstanceId := 5

/-- The instance of the notifier for password changes that were made. -/
def changeNotifier : InstanceId := 6

/-- The first instance that the default handlers leave free. -/
def firstFree : InstanceId := 7

/-- The audit loggers that the settings ask for. -/
def loggers [AuditStores ω] (settings : Settings) (name : String) (type : TypeName) :
    Handlers (Holdings τ) ω :=
  if settings.bus.auditLog then
    registerLoggers name type settings.bus.redactedFields 0 auditedFormats .empty
  else .empty

/-- The default handlers of a blocking bus. -/
def syncHandlers [AuditStores ω] [Mailers ω] (settings : Settings) : Handlers (Holdings τ) ω :=
  ((loggers settings "EventsLogger" TypeName.store).setEventHandlers
      Catalogue.passwordChangeRequestCreated.type
      [Notifier.passwordChangeRequest requestNotifier settings.notifications]).setEventHandlers
    Catalogue.userPasswordChanged.type
    [Notifier.passwordChanged changeNotifier settings.notifications]

/-- The default handlers of a suspending bus. -/
def asyncHandlers [AuditStores ω] (settings : Settings) : Handlers (Holdings τ) ω :=
  loggers settings "AsyncEventsLogger" TypeName.asyncStore

/-- The states of instances that hold nothing. -/
def freshInstances (memory : τ) : InstanceId → Holdings τ :=
  fun _ => { memory }

/-- A blocking bus with the default handlers. -/
def syncBus [AuditStores ω] [Mailers ω] (settings : Settings) (store : StoreId)
    (mailer : MailerId) (memory : τ) : Bus (Holdings τ) ω where
  handlers := syncHandlers settings
  context :=
    (Context.empty.put AuditLogger.storeKey ⟨TypeName.store, .store store⟩ false).put
      Notifier.mailerKey ⟨TypeName.mailer, .mailer mailer⟩ false
  instances := freshInstances memory

/-- A suspending bus with the default handlers. -/
def asyncBus [AuditStores ω] (settings : Settings) (store : StoreId) (memory : τ) :
    Bus (Holdings τ) ω where
  handlers := asyncHandlers settings
  context := Context.empty.put AuditLogger.storeKey ⟨TypeName.asyncStore, .store store⟩ false
  instances := freshInstances memory

/-- What is reported about a new blocking bus. -/
def syncReady {σ : Type} (b : Bus σ ω) : LogLine :=
  .note .debug "Message bus ready" [("events", Text.quotedList b.handlers.eventNames)]

/-- What is reported about a new suspending bus. -/
def asyncReady {σ : Type} (b : Bus σ ω) : LogLine :=
  .note .debug "Async message bus ready" [("events", Text.quotedList b.handlers.eventNames)]

end Wiring

end Courier
