import Courier.Settings.Document
import Courier.Settings.Error
import Courier.Settings.Tree

/-!
# Layers of settings

Settings come in layers, each with an origin.  Later layers are laid over earlier
ones, and only then is it checked whether the whole fits; so a value that a later
layer replaces can do no harm.  What is wrong is reported with the key and the
origin of the value in question.
-/

namespace Courier

/-- Where a layer of settings comes from. -/
inductive Origin where
  /-- The program itself. -/
  | program
  /-- A file, with its path as it is shown. -/
  | file (path : String)
  /-- The environment variables. -/
  | environment
deriving DecidableEq, Repr, Inhabited

/-- A layer of settings; it has no content if its source is malformed. -/
structure Layer where
  origin : Origin
  content : Option Tree
deriving Repr, Inhabited

namespace Origin

/-- The key of a value, as it is written in a source. -/
def keyText (path : List String) : Origin → String
  | program => ".".intercalate path
  | file _ => ".".intercalate ("default" :: path)
  | environment => ".".intercalate (path.map String.toUpper)

/-- The name of a source. -/
def text : Origin → String
  | program => "program"
  | file path => path ++ " TOML file"
  | environment => "`HERALD_` environment variable(s)"

end Origin

namespace Layer

/-- The layer of settings that the program gives. -/
def ofSettings (s : Settings) : Layer :=
  ⟨.program, some (.ofJson s.toJson)⟩

/-- Whether a layer says anything at a place. -/
def reaches (path : List String) (layer : Layer) : Bool :=
  (layer.content.bind (Tree.at? path)).isSome

/-- The origin of the value at a place: the last layer that says anything there. -/
def originOf? (layers : List Layer) (path : List String) : Option Origin :=
  (layers.reverse.find? (reaches path)).map (·.origin)

/-- Why a value does not fit.  A character can be a text but no variant by itself. -/
def reason (found : Tree) : Cause → String
  | .invalidType _ expected =>
      "invalid type: found " ++ found.describe ++ ", expected " ++ expected
  | .invalidValue _ expected => "invalid value " ++ found.describe ++ ", expected " ++ expected
  | .bareVariant expected => "invalid type: found unit variant, expected " ++ expected
  | .missingField name => "missing field " ++ Cause.ticked name
  | .unknownField name known =>
      "unknown field: found " ++ Cause.ticked name ++ ", expected " ++
        Cause.ticked (Cause.alternatives known)
  | .unknownVariant type name isKey known =>
      match found, isKey with
      | .letter _, false =>
          "invalid type: found " ++ found.describe ++ ", expected enum " ++ type
      | _, _ =>
          "unknown variant: found " ++ Cause.ticked name ++ ", expected " ++
            Cause.ticked (Cause.alternatives known)
  | .invalidLength length expected =>
      "invalid length " ++ toString length ++ ", expected " ++ expected

/-- What is wrong with the whole of some layers, with key and origin. -/
def explain (layers : List Layer) (whole : Tree) (r : Refusal) : String :=
  let found := (whole.at? r.path).getD .null
  match originOf? layers r.path with
  | some origin =>
      reason found r.cause ++ " for key " ++ Text.quoted (origin.keyText r.path) ++ " in " ++
        origin.text
  | none => reason found r.cause

/-- The error of settings that cannot be had from their sources. -/
def failure (text : String) : SettingsError :=
  .parse ("Failed to extract configuration: " ++ text)

/-- The settings that layers make up, the last one on top. -/
def settings (layers : List Layer) : Except SettingsError Settings :=
  match layers.mapM (·.content) with
  | none => .error (failure "TOML parse error")
  | some trees =>
      let whole := Tree.stack trees
      match Settings.ofDocument .layered whole.toJson with
      | .ok s => .ok s
      | .error r => .error (failure (explain layers whole r))

end Layer

end Courier
