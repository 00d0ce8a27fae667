import Courier.Error
import Courier.Handler.Proc
import Courier.Value

/-!
# Mailers
-/

namespace Courier

/-- A mail. -/
structure Mail where
  recipient : String
  subject : String
  body : String
deriving DecidableEq, Repr, Inhabited

/-- A world outside the bus that has mailers.  What they do is up to them: they
may refuse, suspend or crash. -/
class Mailers (ω : Type) where
  send : MailerId → Mail → Proc ω (Except HandlerError Unit)

/-- Write a mail to the log instead of sending it. -/
def Mail.logOnly {ω : Type} (mail : Mail) : Proc ω (Except HandlerError Unit) := do
  Proc.tell (.note .info "Mail"
    [("recipient", mail.recipient), ("subject", mail.subject), ("body", mail.body)])
  return .ok ()

end Courier
