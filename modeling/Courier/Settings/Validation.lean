import Courier.Settings.Basic
import Courier.Settings.Error
import Courier.Text.Quoted

/-!
# Valid settings

What settings have to satisfy beyond being of the right shape.  The checks are
made one after the other, and the first one that fails is reported.  Their order
is fixed but for the targets of log filters: these are the keys of a hashed table,
which have no order of their own, so that the one in which they are visited is a
parameter.
-/

namespace Courier

/-- What is wrong with settings. -/
inductive InvalidSetting where
  /-- The target of a log filter is empty or holds white space. -/
  | filterTarget (target : String)
  /-- The log goes to a file without name. -/
  | filePathMissing
  /-- The name of a masked field is blank. -/
  | blankRedactedField
  /-- The protocol is not one of the web. -/
  | webProtocol (protocol : String)
  /-- The domain is blank. -/
  | blankDomain
  /-- The domain has a scheme or a path. -/
  | domainNotBare
deriving DecidableEq, Repr, Inhabited

namespace InvalidSetting

/-- The protocols of the web. -/
def webProtocols : List String :=
  ["http", "https"]

def message : InvalidSetting → String
  | filterTarget target => "Invalid log filter target: " ++ Text.quoted target
  | filePathMissing => "logging.file_path is required when logging.output is 'file'"
  | blankRedactedField => "bus.redacted_fields cannot contain empty names"
  | webProtocol protocol =>
      "Invalid web protocol: " ++ protocol ++ ". Valid values are: " ++
        Text.quotedList webProtocols
  | blankDomain => "notifications.base_domain cannot be empty"
  | domainNotBare => "notifications.base_domain must be a bare host, without scheme or path"

end InvalidSetting

/-- Whether a text is white space only. -/
def Text.isAllBlank (s : String) : Bool :=
  s.toList.all Text.isBlank

/-- Whether a text has white space anywhere. -/
def Text.hasBlank (s : String) : Bool :=
  s.toList.any Text.isBlank

/-- An order in which the keys of a hashed table are visited.  Nothing is known of it
but that each key is visited once; another table with the same keys may have
another order. -/
structure KeyOrder where
  arrange : List String → List String
  perm : ∀ keys, (arrange keys).Perm keys

namespace KeyOrder

/-- The keys as they are listed. -/
def listed : KeyOrder where
  arrange keys := keys
  perm := .refl

end KeyOrder

namespace LoggingSettings

/-- A target that no log line can have. -/
def isInvalidTarget (target : String) : Bool :=
  Text.isAllBlank target || Text.hasBlank target

/-- What is wrong with the settings of the log, if anything.  Of several invalid
targets the first one in the order is reported. -/
def problem? (s : LoggingSettings) (order : KeyOrder) : Option InvalidSetting :=
  match (order.arrange s.filters.keys).find? isInvalidTarget with
  | some target => some (.filterTarget target)
  | none =>
      if s.output = .file ∧ s.filePath = none then some .filePathMissing else none

end LoggingSettings

namespace BusSettings

/-- What is wrong with the settings of buses, if anything. -/
def problem? (s : BusSettings) : Option InvalidSetting :=
  if s.redactedFields.any Text.isAllBlank then some .blankRedactedField else none

end BusSettings

namespace NotificationSettings

/-- What is wrong with the settings of notifications, if anything.  White space
around the domain is not looked at.  A domain with `://` in it has a slash, so
that it is the slash alone that is searched for. -/
def problem? (s : NotificationSettings) : Option InvalidSetting :=
  if s.webProtocol ∉ InvalidSetting.webProtocols then some (.webProtocol s.webProtocol)
  else
    let domain := Text.trimChars s.baseDomain.toList
    if domain.isEmpty then some .blankDomain
    else if domain.contains '/' then some .domainNotBare
    else none

end NotificationSettings

namespace Settings

/-- What is wrong with settings, if anything. -/
def problem? (s : Settings) (order : KeyOrder := .listed) : Option InvalidSetting :=
  (s.logging.problem? order).or (s.bus.problem?.or s.notifications.problem?)

/-- Accept settings or say what is wrong with them. -/
def validate (s : Settings) (order : KeyOrder := .listed) : Except SettingsError Settings :=
  match s.problem? order with
  | none => .ok s
  | some problem => .error (.validation problem.message)

/-- Settings are accepted as they are. -/
theorem validate_eq_ok_iff {s s' : Settings} {order : KeyOrder} :
    s.validate order = .ok s' ↔ s.problem? order = none ∧ s = s' := by
  unfold validate
  cases s.problem? order <;> simp

end Settings

end Courier
