/-!
# Errors of the settings
-/

namespace Courier

/-- Why settings cannot be had. -/
inductive SettingsError where
  | fileNotFound (path : String)
  /-- The sources cannot be read. -/
  | parse (text : String)
  /-- A setting is not allowed. -/
  | validation (text : String)
deriving DecidableEq, Repr, Inhabited

namespace SettingsError

def message : SettingsError → String
  | fileNotFound path => "Configuration file not found: " ++ path
  | parse text => "Failed to parse configuration: " ++ text
  | validation text => "Invalid configuration: " ++ text

end SettingsError

end Courier
