import Courier.Audit.Store
import Courier.Notify.Mailer
import Courier.Proofs.Handler.Procedure

/-!
# Uses of stores and mailers

What a handler asks of stores and mailers is a list of uses, whatever becomes of each of them: a
use that is refused or that crashes has been made, and has left the world outside the bus in some
state (`Use.afterAll`).

A ledger is such a world that keeps a list of all uses beside it.  Nothing else is different about
it, so that what holds in every world is said of the very list of uses where it is said of ledgers
(`Use.afterAll_ledger`).
-/

namespace Courier

open Courier.Action

variable {ω α : Type}

/-- A procedure that is run to its end on a part of the state is run on that part, however it
ends. -/
theorem Proc.run_within {S T : Type} {look : S → T} {put : T → S → S} (part : IsPart look put)
    (p : Proc T α) : (p.within look put).run = p.run.within look put := by
  funext s
  induction p generalizing s with
  | done a =>
      show (⟨.returned a, s, []⟩ : Run S α) = ⟨.returned a, put (look s) s, []⟩
      rw [part.put_look]
  | step change next ih =>
      have stepped := ih (look s) (put (change (look s)) s)
      simp only [Action.within, part.look_put, part.put_put] at stepped
      exact stepped
  | log line next ih => simp only [Proc.within, run, ih, Action.within]
  | pause next ih => exact ih s
  | crash text =>
      show (⟨.crashed text, s, []⟩ : Run S α) = ⟨.crashed text, put (look s) s, []⟩
      rw [part.put_look]

/-! ## Uses -/

/-- Something that is asked of a store or a mailer. -/
inductive Use where
  | stamp
  | add (id : StoreId) (row : Row)
  | commit (id : StoreId)
  | close (id : StoreId)
  | send (id : MailerId) (mail : Mail)
deriving DecidableEq

namespace Use

variable [AuditStores ω] [Mailers ω]

/-- The world outside the bus after a use, however the use has ended. -/
def after (outside : ω) : Use → ω
  | stamp => (AuditStores.stamp.run outside).state
  | add id row => ((AuditStores.add id row).run outside).state
  | commit id => ((AuditStores.commit id).run outside).state
  | close id => ((AuditStores.close id).run outside).state
  | send id mail => ((Mailers.send id mail).run outside).state

/-- The world outside the bus after uses that are made one after the other. -/
def afterAll (uses : List Use) (outside : ω) : ω :=
  uses.foldl after outside

@[simp]
theorem afterAll_nil (outside : ω) : afterAll [] outside = outside :=
  rfl

@[simp]
theorem afterAll_cons (use : Use) (uses : List Use) (outside : ω) :
    afterAll (use :: uses) outside = afterAll uses (use.after outside) :=
  rfl

theorem afterAll_append (first second : List Use) (outside : ω) :
    afterAll (first ++ second) outside = afterAll second (afterAll first outside) :=
  List.foldl_append

end Use

/-! ## Ledgers -/

/-- A world outside the bus and the uses that have been made of it, in their order. -/
structure Ledger (ω : Type) where
  world : ω
  uses : List Use := []

namespace Ledger

/-- The same uses of another world. -/
def putWorld (world : ω) (l : Ledger ω) : Ledger ω :=
  { l with world }

theorem isPart_world : IsPart world (putWorld : ω → Ledger ω → Ledger ω) where
  look_put _ _ := rfl
  put_look _ := rfl
  put_put _ _ _ := rfl

/-- Note a use, and make it. -/
def noted (use : Use) (p : Proc ω α) : Proc (Ledger ω) α := do
  Proc.modify fun l => { l with uses := l.uses ++ [use] }
  p.within world putWorld

theorem state_run_noted (use : Use) (p : Proc ω α) (l : Ledger ω) :
    ((noted use p).run l).state = ⟨(p.run l.world).state, l.uses ++ [use]⟩ := by
  show ((p.within world putWorld).run ⟨l.world, l.uses ++ [use]⟩).state = _
  rw [Proc.run_within isPart_world]
  rfl

instance [AuditStores ω] : AuditStores (Ledger ω) where
  stamp := noted .stamp AuditStores.stamp
  add id row := noted (.add id row) (AuditStores.add id row)
  commit id := noted (.commit id) (AuditStores.commit id)
  close id := noted (.close id) (AuditStores.close id)

instance [Mailers ω] : Mailers (Ledger ω) where
  send id mail := noted (.send id mail) (Mailers.send id mail)

end Ledger

namespace Use

variable [AuditStores ω] [Mailers ω]

theorem after_ledger (use : Use) (l : Ledger ω) :
    use.after l = ⟨use.after l.world, l.uses ++ [use]⟩ := by
  cases use <;> exact Ledger.state_run_noted _ _ l

/-- A ledger notes all uses, and its world is what the uses have made of it. -/
theorem afterAll_ledger (uses : List Use) (l : Ledger ω) :
    afterAll uses l = ⟨afterAll uses l.world, l.uses ++ uses⟩ := by
  induction uses generalizing l with
  | nil => simp
  | cons use rest ih => simp [ih, after_ledger]

end Use

end Courier
