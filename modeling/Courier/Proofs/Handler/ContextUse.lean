import Courier.Proofs.Dictionary
import Courier.Proofs.Handler.Program
import Mathlib.Tactic.Tauto

/-!
# What handlers do to the context

A handler puts values into the context, takes keys out, and may release the call-scoped
entries itself.  An account of an invocation lists these operations, step by step; every
invocation has one, whatever its steps are.

What an account leaves call-scoped under a key is told by its last operation that concerns
the key (`Context.at?_performAll_iff`).
-/

namespace Courier

open Courier.Action

/-- What may be done to the context. -/
inductive ContextOp where
  | put (key : String) (value : Value) (callScoped : Bool)
  | remove (key : String)
  /-- Release all call-scoped entries. -/
  | release
deriving DecidableEq

namespace ContextOp

/-- Whether a call-scoped entry under the key is gone after the operation, or another has
come into its place. -/
def concerns (key : String) : ContextOp → Bool
  | put other _ _ => key = other
  | remove other => key = other
  | release => true

/-- The last of the operations that concerns the key puts this value there, call-scoped. -/
def LastPuts (ops : List ContextOp) (key : String) (value : Value) : Prop :=
  ∃ earlier later, ops = earlier ++ put key value true :: later ∧
    ∀ op ∈ later, op.concerns key = false

/-- None of the operations concerns the key. -/
def Untouched (ops : List ContextOp) (key : String) : Prop :=
  ∀ op ∈ ops, op.concerns key = false

theorem lastPuts_cons_iff (op : ContextOp) (ops : List ContextOp) (key : String) (value : Value) :
    LastPuts (op :: ops) key value ↔
      LastPuts ops key value ∨ (op = put key value true ∧ Untouched ops key) := by
  constructor
  · rintro ⟨earlier, later, opsEq, untouched⟩
    cases earlier with
    | nil =>
        obtain ⟨rfl, rfl⟩ := List.cons.inj opsEq
        exact .inr ⟨rfl, untouched⟩
    | cons first earlier =>
        obtain ⟨rfl, rfl⟩ := List.cons.inj opsEq
        exact .inl ⟨earlier, later, rfl, untouched⟩
  · rintro (⟨earlier, later, rfl, untouched⟩ | ⟨rfl, untouched⟩)
    · exact ⟨op :: earlier, later, rfl, untouched⟩
    · exact ⟨[], ops, rfl, untouched⟩

end ContextOp

open ContextOp

namespace Context

/-- The context after an operation. -/
def perform (c : Context) : ContextOp → Context
  | .put key value callScoped => c.put key value callScoped
  | .remove key => c.remove key
  | .release => c.releaseScoped

/-- The context after some operations. -/
def performAll (c : Context) (ops : List ContextOp) : Context :=
  ops.foldl perform c

theorem performAll_append (c : Context) (first second : List ContextOp) :
    c.performAll (first ++ second) = (c.performAll first).performAll second :=
  List.foldl_append

/-- One operation leaves call-scoped what it puts so, and what it does not concern. -/
theorem at?_perform_iff (c : Context) (op : ContextOp) (key : String) (value : Value) :
    (c.perform op).at? key = some ⟨value, true⟩ ↔
      op = .put key value true ∨ (op.concerns key = false ∧ c.at? key = some ⟨value, true⟩) := by
  cases op with
  | put other otherValue callScoped =>
      rw [perform, at?_put]
      by_cases same : key = other
      · subst same
        simp [concerns]
      · simp [concerns, same, Ne.symm same]
  | remove other =>
      rw [perform, at?_remove]
      by_cases same : key = other <;> simp [concerns, same]
  | release =>
      rw [perform, at?_releaseScoped]
      simp only [concerns, Option.filter_eq_some_iff]
      simp

/-- Call-scoped after some operations is what the last of them that concerns its key has put
so, and what was so before and none of them concerns. -/
theorem at?_performAll_iff (c : Context) (ops : List ContextOp) (key : String) (value : Value) :
    (c.performAll ops).at? key = some ⟨value, true⟩ ↔
      LastPuts ops key value ∨ (Untouched ops key ∧ c.at? key = some ⟨value, true⟩) := by
  induction ops generalizing c with
  | nil => simp [performAll, LastPuts, Untouched]
  | cons op rest ih =>
      have untouched_cons : Untouched (op :: rest) key ↔
          op.concerns key = false ∧ Untouched rest key := List.forall_mem_cons
      show ((c.perform op).performAll rest).at? key = _ ↔ _
      rw [ih, at?_perform_iff, lastPuts_cons_iff, untouched_cons]
      tauto

/-! ## Every change has an account -/

theorem at?_performAll_removes (c : Context) (keys : List String) (key : String) :
    (c.performAll (keys.map .remove)).at? key = if key ∈ keys then none else c.at? key := by
  induction keys generalizing c with
  | nil => rfl
  | cons first rest ih =>
      show ((c.remove first).performAll (rest.map .remove)).at? key = _
      rw [ih, at?_remove]
      by_cases mem : key ∈ rest <;> by_cases same : key = first <;> simp [mem, same]

/-- The operations that put entries into the context. -/
def puts (entries : List (String × Entry)) : List ContextOp :=
  entries.map fun entry => .put entry.1 entry.2.value entry.2.callScoped

theorem at?_performAll_puts (c : Context) {entries : List (String × Entry)}
    (increasing : Increasing entries) (key : String) :
    (c.performAll (puts entries)).at? key = (entries.lookup key).or (c.at? key) := by
  induction entries generalizing c with
  | nil => rfl
  | cons entry rest ih =>
      show ((c.put entry.1 entry.2.value entry.2.callScoped).performAll (puts rest)).at? key = _
      rw [ih _ increasing.of_cons, at?_put, lookup_cons_eq_ite]
      by_cases same : key = entry.1
      · rw [same, increasing.lookup_rest]
        simp
      · rw [if_neg same, if_neg same]

/-- Any context can be made of any other: by taking out all that is there, and putting in all
that is to be there. -/
theorem exists_performAll_eq (c c' : Context) : ∃ ops, c.performAll ops = c' := by
  refine ⟨c.keys.map .remove ++ puts c'.entries.entries, ?_⟩
  rw [performAll_append]
  apply ext_at?
  intro key
  rw [at?_performAll_puts _ c'.entries.increasing, at?_performAll_removes]
  have absent : (if key ∈ c.keys then none else c.at? key) = none := by
    by_cases mem : key ∈ c.keys
    · rw [if_pos mem]
    · rw [if_neg mem]
      apply List.lookup_eq_none_iff.mpr
      intro entry entryMem
      rw [bne_iff_ne]
      rintro rfl
      exact mem (List.mem_map_of_mem entryMem)
  rw [absent, Option.or_none]
  rfl

end Context

/-! ## Accounts of invocations -/

variable {S α : Type}

/-- An account of a procedure that is run to its end: `ops` is what its steps, one after the
other, have done to the context that `look` shows of the state. -/
inductive Proc.Uses (look : S → Context) : Proc S α → S → List ContextOp → α → S → Prop
  | done {a : α} {s : S} : Uses look (.done a) s [] a s
  | step {change : S → S} {next : S → Proc S α} {s s' : S} {ops more : List ContextOp} {a : α} :
      (look s).performAll ops = look (change s) → Uses look (next s) (change s) more a s' →
      Uses look (.step change next) s (ops ++ more) a s'
  | log {line : LogLine} {next : Proc S α} {s s' : S} {ops : List ContextOp} {a : α} :
      Uses look next s ops a s' → Uses look (.log line next) s ops a s'
  | pause {next : Proc S α} {s s' : S} {ops : List ContextOp} {a : α} :
      Uses look next s ops a s' → Uses look (.pause next) s ops a s'

/-- An account tells what becomes of the context. -/
theorem Proc.Uses.performAll_eq {look : S → Context} {p : Proc S α} {s s' : S}
    {ops : List ContextOp} {a : α} (uses : p.Uses look s ops a s') :
    (look s).performAll ops = look s' := by
  induction uses with
  | done => rfl
  | step performed _ ih => rw [Context.performAll_append, performed, ih]
  | log _ ih => exact ih
  | pause _ ih => exact ih

/-- A procedure has an account exactly if it returns. -/
theorem Proc.exists_uses_iff (look : S → Context) (p : Proc S α) (s s' : S) (a : α) :
    (∃ ops, p.Uses look s ops a s') ↔ p.run.Returns s a s' := by
  constructor
  · rintro ⟨ops, uses⟩
    induction uses with
    | done => exact ⟨rfl, rfl⟩
    | step _ _ ih => exact ih
    | log _ ih => exact ih
    | pause _ ih => exact ih
  · intro returned
    induction p generalizing s with
    | done b =>
        obtain ⟨rfl, rfl⟩ := (returns_pure_iff b a s s').mp returned
        exact ⟨[], .done⟩
    | step change next ih =>
        obtain ⟨more, uses⟩ := ih s (change s) returned
        obtain ⟨ops, performed⟩ := Context.exists_performAll_eq (look s) (look (change s))
        exact ⟨ops ++ more, .step performed uses⟩
    | log line next ih =>
        obtain ⟨ops, uses⟩ := ih s returned
        exact ⟨ops, .log uses⟩
    | pause next ih =>
        obtain ⟨ops, uses⟩ := ih s returned
        exact ⟨ops, .pause uses⟩
    | crash text =>
        rcases returned with ⟨outcomeEq, _⟩
        cases outcomeEq

variable {σ ω : Type}

/-- An account of an invocation. -/
def Program.Uses (p : Program σ ω) (w : World σ ω) (ops : List ContextOp) (invocation : Invocation)
    (w' : World σ ω) : Prop :=
  match p with
  | owned owner rest =>
      ∃ v, rest.Uses View.context (w.view owner) ops invocation v ∧ w.putView owner v = w'
  | free rest => ∃ v, rest.Uses View.context w.plainView ops invocation v ∧ w.putPlainView v = w'

namespace Program

variable {p : Program σ ω} {w w' : World σ ω} {ops : List ContextOp} {invocation : Invocation}

theorem Uses.performAll_eq (uses : p.Uses w ops invocation w') :
    w.context.performAll ops = w'.context := by
  cases p with
  | owned owner rest =>
      obtain ⟨v, inner, rfl⟩ := uses
      exact inner.performAll_eq
  | free rest =>
      obtain ⟨v, inner, rfl⟩ := uses
      exact inner.performAll_eq

/-- An invocation has an account exactly if it returns. -/
theorem exists_uses_iff (p : Program σ ω) (w w' : World σ ω) (invocation : Invocation) :
    (∃ ops, p.Uses w ops invocation w') ↔ p.run.Returns w invocation w' := by
  cases p with
  | owned owner rest =>
      simp only [run, returns_within_iff, ← Proc.exists_uses_iff View.context, Uses]
      constructor
      · rintro ⟨ops, v, uses, putEq⟩
        exact ⟨v, ⟨ops, uses⟩, putEq⟩
      · rintro ⟨v, ⟨ops, uses⟩, putEq⟩
        exact ⟨ops, v, uses, putEq⟩
  | free rest =>
      simp only [run, returns_within_iff, ← Proc.exists_uses_iff View.context, Uses]
      constructor
      · rintro ⟨ops, v, uses, putEq⟩
        exact ⟨v, ⟨ops, uses⟩, putEq⟩
      · rintro ⟨v, ⟨ops, uses⟩, putEq⟩
        exact ⟨ops, v, uses, putEq⟩

end Program

end Courier
