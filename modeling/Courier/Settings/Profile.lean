import Courier.Text.LowerCase

/-!
# Profiles

A profile names the situation that settings are meant for.  Two profiles have
names that may be shortened; any other name is a profile of its own, and case
does not matter.
-/

namespace Courier

/-- The situation that settings are meant for. -/
inductive Profile where
  | development
  | production
  | custom (name : String)
deriving DecidableEq, Repr, Inhabited

namespace Profile

/-- The name of a profile, as it stands in the names of files. -/
def name : Profile → String
  | development => "development"
  | production => "production"
  | custom name => name

/-- The profile that a word in lower case stands for. -/
def ofLower (word : String) : Profile :=
  if word = "production" ∨ word = "prod" then production
  else if word = "development" ∨ word = "dev" then development
  else custom word

/-- The profile that a word stands for. -/
def ofName (word : String) : Profile :=
  ofLower (Text.lower word)

/-- The environment variable that chooses the profile. -/
def variableName : String := "HERALD_PROFILE"

/-- The profile that the environment chooses, if the variable has a value. -/
def ofVariable (value : Option String) : Profile :=
  match value with
  | some word => ofName word
  | none => development

end Profile

end Courier
