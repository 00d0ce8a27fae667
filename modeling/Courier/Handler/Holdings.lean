import Courier.Handler.Basic

/-!
# What an instance holds

A handler may take a store or a mailer out of the context in the hook before its
core, hold it while the core runs, and let it go in the hook after it.
-/

namespace Courier

/-- The state of an instance: what it holds of the context, and a memory of its
own. -/
structure Holdings (τ : Type) where
  store : Option StoreId := none
  mailer : Option MailerId := none
  memory : τ
deriving DecidableEq, Inhabited

namespace View

variable {σ ω : Type}

/-- The view with another world outside the bus. -/
def putOutside (outside : ω) (v : View σ ω) : View σ ω :=
  { v with outside := outside }

/-- A procedure of the world outside the bus. -/
def outer {α : Type} (p : Proc ω α) : Proc (View σ ω) α :=
  p.within View.outside putOutside

variable {τ : Type}

/-- Hold a store, or none. -/
def holdStore (store : Option StoreId) (v : View (Holdings τ) ω) : View (Holdings τ) ω :=
  { v with own := { v.own with store } }

/-- Hold a mailer, or none. -/
def holdMailer (mailer : Option MailerId) (v : View (Holdings τ) ω) : View (Holdings τ) ω :=
  { v with own := { v.own with mailer } }

end View

end Courier
