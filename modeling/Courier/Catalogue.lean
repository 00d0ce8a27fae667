import Courier.Codec.Basic

/-!
# The event catalogue

The events that the services publish.  Every field is a string, apart from the
names of the fields that an update has changed, which are a list of strings.
-/

namespace Courier

/-- An event of the catalogue with its fields. -/
inductive Fact where
  /-- Checks that the bus and the audit log are wired. -/
  | test (message : String)
  | userCreated (id : String)
  | folderCreated (id userId : String)
  | folderUpdated (id : String) (updatedFields : List String) (userId : String)
  | folderRemoved (id userId : String)
  | noteCreated (id userId : String)
  | noteUpdated (id : String) (updatedFields : List String) (userId : String)
  | noteRemoved (id userId : String)
  /-- A note was put under another one. -/
  | noteRelationCreated (id childNoteId userId : String)
  | noteRelationRemoved (id childNoteId userId : String)
  /-- A password reset was asked for; the token is secret. -/
  | passwordChangeRequestCreated (userId tokenId token email : String)
  | userPasswordChanged (id email : String)
  | authSessionClosed (id : String)
deriving DecidableEq, Repr, Inhabited

namespace Catalogue

/-- A field that holds a string. -/
def textField (name : String) : String × Presence × Shape :=
  (name, .required, .string)

/-- A field that holds a list of strings. -/
def textsField (name : String) : String × Presence × Shape :=
  (name, .required, .list .string)

/-- The type of the catalogue that has a given name. -/
def typeNamed (name : String) : MessageType :=
  ⟨"herald_runtime::events::" ++ name, name⟩

/-- The format of a type of the catalogue. -/
def format (name : String) (fields : List (String × Presence × Shape)) : EventFormat :=
  { type := typeNamed name, shape := .record name false fields }

def test : EventFormat :=
  format "TestEvent" [textField "message"]

def userCreated : EventFormat :=
  format "UserCreated" [textField "id"]

def folderCreated : EventFormat :=
  format "FolderCreated" [textField "id", textField "user_id"]

def folderUpdated : EventFormat :=
  format "FolderUpdated" [textField "id", textsField "updated_fields", textField "user_id"]

def folderRemoved : EventFormat :=
  format "FolderRemoved" [textField "id", textField "user_id"]

def noteCreated : EventFormat :=
  format "NoteCreated" [textField "id", textField "user_id"]

def noteUpdated : EventFormat :=
  format "NoteUpdated" [textField "id", textsField "updated_fields", textField "user_id"]

def noteRemoved : EventFormat :=
  format "NoteRemoved" [textField "id", textField "user_id"]

def noteRelationCreated : EventFormat :=
  format "NoteRelationCreated" [textField "id", textField "child_note_id", textField "user_id"]

def noteRelationRemoved : EventFormat :=
  format "NoteRelationRemoved" [textField "id", textField "child_note_id", textField "user_id"]

def passwordChangeRequestCreated : EventFormat :=
  format "PasswordChangeRequestCreated"
    [textField "user_id", textField "token_id", textField "token", textField "email"]

def userPasswordChanged : EventFormat :=
  format "UserPasswordChanged" [textField "id", textField "email"]

def authSessionClosed : EventFormat :=
  format "AuthSessionClosed" [textField "id"]

/-- All formats of the catalogue. -/
def formats : List EventFormat :=
  [test, userCreated, folderCreated, folderUpdated, folderRemoved, noteCreated, noteUpdated,
    noteRemoved, noteRelationCreated, noteRelationRemoved, passwordChangeRequestCreated,
    userPasswordChanged, authSessionClosed]

/-- The codec of the catalogue. -/
def codec : Codec :=
  .ofList formats

end Catalogue

namespace Fact

/-- The format of the type of a fact. -/
def format : Fact → EventFormat
  | test _ => Catalogue.test
  | userCreated _ => Catalogue.userCreated
  | folderCreated _ _ => Catalogue.folderCreated
  | folderUpdated _ _ _ => Catalogue.folderUpdated
  | folderRemoved _ _ => Catalogue.folderRemoved
  | noteCreated _ _ => Catalogue.noteCreated
  | noteUpdated _ _ _ => Catalogue.noteUpdated
  | noteRemoved _ _ => Catalogue.noteRemoved
  | noteRelationCreated _ _ _ => Catalogue.noteRelationCreated
  | noteRelationRemoved _ _ _ => Catalogue.noteRelationRemoved
  | passwordChangeRequestCreated _ _ _ _ => Catalogue.passwordChangeRequestCreated
  | userPasswordChanged _ _ => Catalogue.userPasswordChanged
  | authSessionClosed _ => Catalogue.authSessionClosed

/-- The fields of a fact by key. -/
def body : Fact → Json
  | test message => .object [("message", .string message)]
  | userCreated id => .object [("id", .string id)]
  | folderCreated id userId => .object [("id", .string id), ("user_id", .string userId)]
  | folderUpdated id updated userId =>
      .object [("id", .string id), ("updated_fields", .array (updated.map .string)),
        ("user_id", .string userId)]
  | folderRemoved id userId => .object [("id", .string id), ("user_id", .string userId)]
  | noteCreated id userId => .object [("id", .string id), ("user_id", .string userId)]
  | noteUpdated id updated userId =>
      .object [("id", .string id), ("updated_fields", .array (updated.map .string)),
        ("user_id", .string userId)]
  | noteRemoved id userId => .object [("id", .string id), ("user_id", .string userId)]
  | noteRelationCreated id child userId =>
      .object [("child_note_id", .string child), ("id", .string id), ("user_id", .string userId)]
  | noteRelationRemoved id child userId =>
      .object [("child_note_id", .string child), ("id", .string id), ("user_id", .string userId)]
  | passwordChangeRequestCreated userId tokenId token email =>
      .object [("email", .string email), ("token", .string token),
        ("token_id", .string tokenId), ("user_id", .string userId)]
  | userPasswordChanged id email => .object [("email", .string email), ("id", .string id)]
  | authSessionClosed id => .object [("id", .string id)]

/-- The event of a fact. -/
def toEvent (f : Fact) : Event :=
  f.format.event f.body

end Fact

end Courier
