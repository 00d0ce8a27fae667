import Courier.Catalogue
import Courier.Handler.Holdings
import Courier.Notify.Mailer
import Courier.Settings.Basic

/-!
# Notifiers

Handlers that tell users by mail what happens to their passwords.  Where mail is
switched off, the notification is only logged and no mailer is needed.
-/

namespace Courier.Notifier

variable {τ ω : Type} [Mailers ω]

/-- The key of the mailer in the context. -/
def mailerKey : String := "mailer"

/-- Take the mailer out of the context, if mail is switched on. -/
def acquire (settings : NotificationSettings) :
    Proc (View (Holdings τ) ω) (Except HandlerError Unit) := do
  if !settings.emailEnabled then
    Proc.modify (View.holdMailer none)
    return .ok ()
  else
    match (← Proc.get).context.require mailerKey TypeName.mailer with
    | .error e => return .error (.context e)
    | .ok ⟨_, .mailer id⟩ => do
        Proc.modify (View.holdMailer (some id))
        return .ok ()
    | .ok _ => return .error (.context (.missing mailerKey))

/-- The result of a notification. -/
def delivered (d : Delivery) : Value :=
  ⟨TypeName.delivery, .delivery d⟩

/-- Send a mail with the mailer that is held; without one, log a line. -/
def deliver (mail : Mail) (notice : LogLine) :
    Proc (View (Holdings τ) ω) (Except HandlerError Value) := do
  match (← Proc.get).own.mailer with
  | none => do
      Proc.tell notice
      return .ok (delivered .logged)
  | some id =>
      match ← View.outer (Mailers.send id mail) with
      | .error e => return .error e
      | .ok () => return .ok (delivered .sent)

/-- Let the mailer go. -/
def letGo : Proc (View (Holdings τ) ω) Unit :=
  Proc.modify (View.holdMailer none)

/-- A string field of an event. -/
def textOf (e : Event) (key : String) : String :=
  ((e.field? key).bind Json.string?).getD ""

/-- The address under which a password can be changed. -/
def changeLink (settings : NotificationSettings) (token : String) : String :=
  settings.link ("change-password?token=" ++ token)

/-- The mail that offers a new password. -/
def changeMail (settings : NotificationSettings) (e : Event) : Mail where
  recipient := textOf e "email"
  subject := "Password change request"
  body :=
    "<a href=\"" ++ changeLink settings (textOf e "token") ++
      "\">Change your password</a>. The link is valid for 2 hours."

/-- What is logged in the place of that mail. -/
def changeNotice (settings : NotificationSettings) (e : Event) : LogLine :=
  .note .info "Mail disabled, password change link"
    [("user", textOf e "user_id"), ("link", changeLink settings (textOf e "token"))]

/-- The mail that tells of a new password. -/
def changedMail (e : Event) : Mail where
  recipient := textOf e "email"
  subject := "Your password was changed"
  body := "Your password was changed!"

/-- What is logged in the place of that mail. -/
def changedNotice (e : Event) : LogLine :=
  .note .info "Mail disabled, password changed notice" [("email", textOf e "email")]

/-- The procedures of a notifier. -/
def lifecycle (settings : NotificationSettings) (mail : Event → Mail) (notice : Event → LogLine) :
    Lifecycle (Holdings τ) ω where
  before := acquire settings
  core m _ :=
    match m with
    | .event e => do return ⟨← deliver (mail e) (notice e), []⟩
    | .command c => return .mismatch c.type m
  after := letGo

/-- Tells a user how to choose a new password. -/
def passwordChangeRequest (owner : InstanceId) (settings : NotificationSettings) :
    Handler (Holdings τ) ω where
  name := "herald_runtime::notify::PasswordChangeRequestNotifier"
  accepts := Catalogue.passwordChangeRequestCreated.type
  behavior := .stateful owner (lifecycle settings (changeMail settings) (changeNotice settings))

/-- Tells a user that the password was changed. -/
def passwordChanged (owner : InstanceId) (settings : NotificationSettings) :
    Handler (Holdings τ) ω where
  name := "herald_runtime::notify::UserPasswordChangedNotifier"
  accepts := Catalogue.userPasswordChanged.type
  behavior := .stateful owner (lifecycle settings changedMail changedNotice)

end Courier.Notifier
