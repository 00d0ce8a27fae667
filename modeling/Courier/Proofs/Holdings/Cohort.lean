import Courier.Proofs.Cohort.Upkeep
import Courier.Proofs.Handler.Writing
import Courier.Proofs.Holdings.Session

/-!
# Sessions in cohorts

A logger whose stores answer at once does not suspend: whatever else a cohort does, an invocation of
the logger is a single stretch, and the stretch is a session.  So nobody else is resumed, and nobody
crashes, while the logger holds a store (`Cohort.keepsEmptyHanded`).
-/

namespace Courier

open Courier.Action

variable {σ τ ω α β S : Type} {R : Set InstanceId}

/-! ## Stores that answer at once -/

/-- A procedure that neither suspends nor crashes. -/
def Proc.Prompt (p : Proc S α) : Prop :=
  ∀ s, ∃ a s', p.advance.Returns s (.inr a) s'

namespace Proc.Prompt

theorem done (a : α) : (Proc.done a : Proc S α).Prompt :=
  fun s => ⟨a, s, rfl, rfl⟩

theorem modify (change : S → S) : (Proc.modify change).Prompt :=
  fun s => ⟨(), change s, rfl, rfl⟩

theorem bind {p : Proc S α} {f : α → Proc S β} (first : p.Prompt) (second : ∀ a, (f a).Prompt) :
    (p >>= f).Prompt := by
  intro s
  obtain ⟨a, middle, advanced⟩ := first s
  obtain ⟨b, s', continued⟩ := second a middle
  exact ⟨b, s', Proc.advance_bind advanced continued⟩

theorem get_bind {f : S → Proc S β} (next : ∀ s, (f s).Prompt) : (Proc.get >>= f).Prompt :=
  bind (fun s => ⟨s, s, rfl, rfl⟩) next

theorem tell_bind {line : LogLine} {f : Unit → Proc S β} (next : (f ()).Prompt) :
    (Proc.tell line >>= f).Prompt :=
  bind (fun s => ⟨(), s, rfl, rfl⟩) fun _ => next

theorem outer {p : Proc ω α} (prompt : p.Prompt) : (View.outer p : Proc (View σ ω) α).Prompt := by
  intro v
  obtain ⟨a, outside', advanced⟩ := prompt v.outside
  exact ⟨a, _, Proc.advance_within View.isPart_outside advanced⟩

end Proc.Prompt

/-- Whatever is asked of a store, it neither suspends nor crashes. -/
structure PromptStores (ω : Type) [AuditStores ω] : Prop where
  stamp : (AuditStores.stamp : Proc ω Stamp).Prompt
  add : ∀ id row, (AuditStores.add id row : Proc ω _).Prompt
  commit : ∀ id, (AuditStores.commit id : Proc ω _).Prompt
  close : ∀ id, (AuditStores.close id : Proc ω _).Prompt

theorem Proc.Prompt.noted {use : Use} {p : Proc ω α} (prompt : p.Prompt) :
    (Ledger.noted use p).Prompt := by
  apply Proc.Prompt.bind (.modify _)
  rintro _ l
  obtain ⟨a, world', advanced⟩ := prompt l.world
  exact ⟨a, _, Proc.advance_within Ledger.isPart_world advanced⟩

/-- That a ledger is kept of stores does not suspend them. -/
theorem PromptStores.ledger [AuditStores ω] (prompt : PromptStores ω) :
    PromptStores (Ledger ω) where
  stamp := prompt.stamp.noted
  add id row := (prompt.add id row).noted
  commit id := (prompt.commit id).noted
  close id := (prompt.close id).noted

namespace AuditLogger

theorem acquire_prompt (type : TypeName) :
    (acquire type : Proc (View (Holdings τ) ω) _).Prompt := by
  apply Proc.Prompt.get_bind
  intro v
  split
  · exact .done _
  · exact .bind (.modify _) fun _ => .done _
  · exact .done _

variable [AuditStores ω] (prompt : PromptStores ω)

include prompt

theorem write_prompt (redacted : List String) (e : Event) (x : Extra) :
    (write redacted e x : Proc (View (Holdings τ) ω) _).Prompt := by
  apply Proc.Prompt.get_bind
  intro v
  cases v.own.store with
  | none => exact .done _
  | some id =>
      apply Proc.Prompt.bind prompt.stamp.outer
      intro stamp
      cases Row.record stamp e redacted with
      | error error => exact .done _
      | ok row =>
          apply Proc.Prompt.tell_bind
          apply Proc.Prompt.bind (prompt.add id _).outer
          rintro (error | _)
          · exact .done _
          · apply Proc.Prompt.bind (prompt.commit id).outer
            rintro (error | _) <;> exact .done _

theorem letGo_prompt : (letGo : Proc (View (Holdings τ) ω) _).Prompt := by
  apply Proc.Prompt.get_bind
  intro v
  apply Proc.Prompt.bind (.modify _)
  intro _
  cases v.own.store with
  | none => exact .done _
  | some id => exact (prompt.close id).outer

/-- A logger does not suspend or crash with such stores. -/
theorem procedure_prompt (type : TypeName) (redacted : List String) (m : Message) (x : Extra) :
    ((lifecycle type redacted).procedure m x : Proc (View (Holdings τ) ω) _).Prompt := by
  apply Proc.Prompt.bind (acquire_prompt type)
  rintro (e | _)
  · exact .done _
  · have core : ((lifecycle type redacted).core m x : Proc (View (Holdings τ) ω) _).Prompt := by
      cases m with
      | event e => exact .bind (write_prompt prompt redacted e x) fun _ => .done _
      | command c => exact .done _
    exact core.bind fun _ => (letGo_prompt prompt).bind fun _ => .done _

end AuditLogger

/-! ## Invocations of loggers -/

variable [AuditStores ω]

namespace Handler

/-- The handler is a logger of an instance. -/
def IsLogger (i : InstanceId) (h : Handler (Holdings τ) ω) : Prop :=
  ∃ name type redacted accepts, h = AuditLogger.handler name type i redacted accepts

variable {h : Handler (Holdings τ) ω} {m : Message}

namespace IsLogger

variable {i : InstanceId} (logger : h.IsLogger i) (engaged : h.engages m = some i)

include logger engaged

/-- With prompt stores an invocation of a logger that may suspend ends in its first stretch. -/
theorem ends (prompt : PromptStores ω) (x : Extra) (w : World (Holdings τ) ω) :
    ∃ invocation w', (h.program m x).advance.Returns w (.inr invocation) w' := by
  obtain ⟨accepted, lifecycle, behaviorEq⟩ := behavior_of_engages engaged
  obtain ⟨name, type, redacted, accepts, rfl⟩ := logger
  cases behaviorEq
  obtain ⟨invocation, v, advanced⟩ :=
    AuditLogger.procedure_prompt prompt type redacted m x (w.view i)
  refine ⟨invocation, w.putView i v, ?_⟩
  rw [program_of_stateful x accepted rfl, Program.owned_advance_returns_iff]
  exact ⟨.inr invocation, (returns_within_iff _ _ _ _ _ _).mpr ⟨v, advanced, rfl⟩, rfl⟩

/-- Then this stretch is a session. -/
theorem session [Mailers ω] {x : Extra} {w w' : World (Holdings τ) ω} {invocation : Invocation}
    (ended : (h.program m x).advance.Returns w (.inr invocation) w')
    (empty : (w.instances i).EmptyHanded) :
    w.Uses (Session i m w h (.returned invocation)) w' := by
  have accepted := (behavior_of_engages engaged).1
  have invoked := (invoke_returns_iff h m x w _ _).mpr (Program.run_of_advance ended)
  obtain ⟨name, type, redacted, accepts, rfl⟩ := logger
  have used := (Borrows.logger name type redacted accepts).session accepted x empty
  rw [invoked.1, invoked.2] at used
  exact used

end IsLogger

end Handler

/-! ## Cohorts -/

namespace Cohort

variable {handlers : List (Handler (Holdings τ) ω)} {m : Message} {x : Extra}
  {u : World (Holdings τ) ω}

/-- What is left of a member, if it is on a reserved instance, is the whole invocation of a
logger. -/
def WholeLogger (R : Set InstanceId) (handlers : List (Handler (Holdings τ) ω)) (m : Message)
    (x : Extra) (member : Nat) (p : Program (Holdings τ) ω) : Prop :=
  ∀ i ∈ R, p.owner? = some i →
    ∃ h, handlers[member]? = some h ∧ h.IsLogger i ∧ h.engages m = some i ∧ p = h.program m x

namespace WholeLogger

/-- It is so at the start of a cohort. -/
theorem of_told (reserved : ∀ h ∈ handlers, ∀ i ∈ R, h.engages m = some i → h.IsLogger i)
    (k : Nat) (p : Program (Holdings τ) ω)
    (told : (handlers.map fun h => h.program m x)[k]? = some p) :
    WholeLogger R handlers m x k p := by
  rw [List.getElem?_map, Option.map_eq_some_iff] at told
  obtain ⟨h, found, rfl⟩ := told
  intro i mem owned
  rw [h.owner?_program] at owned
  exact ⟨h, found, reserved h (List.mem_of_getElem? found) i mem owned, owned, rfl⟩

variable (prompt : PromptStores ω) {k : Nat} {p : Program (Holdings τ) ω}
  {w w' : World (Holdings τ) ω}

include prompt

/-- It ends in its first stretch. -/
theorem ends (whole : WholeLogger R handlers m x k p) {i : InstanceId} (mem : i ∈ R)
    (owned : p.owner? = some i) (w : World (Holdings τ) ω) :
    ∃ invocation w', p.advance.Returns w (.inr invocation) w' := by
  obtain ⟨h, _, logger, engaged, rfl⟩ := whole i mem owned
  exact logger.ends engaged prompt x w

/-- Nothing is left of it after a stretch, so that what is left of others is on other instances. -/
theorem rest (whole : WholeLogger R handlers m x k p) {q : Program (Holdings τ) ω}
    (advanced : p.advance.Returns w (.inl q) w') : WholeLogger R handlers m x k q := by
  intro i mem owned
  rw [Program.owner?_of_advance advanced] at owned
  obtain ⟨invocation, _, ended⟩ := whole.ends prompt mem owned w
  cases (advanced.unique ended).1

/-- A stretch on a reserved instance is a whole session. -/
theorem session [Mailers ω] (whole : WholeLogger R handlers m x k p) {i : InstanceId} (mem : i ∈ R)
    (owned : p.owner? = some i) {left : Program (Holdings τ) ω ⊕ Invocation}
    (advanced : p.advance.Returns w left w') (empty : w.EmptyHanded R) :
    ∃ h invocation, handlers[k]? = some h ∧ left = .inr invocation ∧
      w.Uses (Handler.Session i m w h (.returned invocation)) w' := by
  obtain ⟨invocation, _, ended⟩ := whole.ends prompt mem owned w
  obtain ⟨rfl, rfl⟩ := advanced.unique ended
  obtain ⟨h, found, logger, engaged, rfl⟩ := whole i mem owned
  exact ⟨h, invocation, found, rfl, logger.session engaged ended (empty i mem)⟩

theorem leads [Mailers ω] (whole : WholeLogger R handlers m x k p) :
    p.advance.Leads (World.EmptyHanded R) (World.EmptyHanded R) := by
  intro w empty i mem
  by_cases owned : p.owner? = some i
  · obtain ⟨invocation, w', ended⟩ := whole.ends prompt mem owned w
    obtain ⟨_, _, _, _, session⟩ := whole.session prompt mem owned ended empty
    rw [ended.2]
    exact session.emptyHanded empty i mem
  · rw [p.instances_advance w owned]
    exact empty i mem

end WholeLogger

variable [Mailers ω]

/-- Of reserved instances nothing more has to be known. -/
theorem upkeep (prompt : PromptStores ω)
    (reserved : ∀ h ∈ handlers, ∀ i ∈ R, h.engages m = some i → h.IsLogger i) :
    Upkeep (handlers.map fun h => h.program m x) (WholeLogger R handlers m x)
      (World.EmptyHanded R) where
  told := WholeLogger.of_told reserved
  kept _ _ _ _ _ whole advanced := whole.rest prompt advanced
  leads _ _ whole := whole.leads prompt

/-- What becomes of reserved instances in a cohort.  They are empty-handed at all stages, and where
a member crashes, which is never in a session; and whatever is run on them is a whole session. -/
structure KeepsEmptyHanded (R : Set InstanceId) (handlers : List (Handler (Holdings τ) ω))
    (m : Message) (x : Extra) (u : World (Holdings τ) ω) : Prop where
  stages : ∀ trace stage, Passes handlers m x u trace stage → stage.shared.world.EmptyHanded R
  sessions : ∀ trace stage, Passes handlers m x u trace stage → ∀ stretch ∈ trace,
    stretch.before.EmptyHanded R ∧ stretch.after.EmptyHanded R ∧
      ∀ i ∈ R, stretch.program.owner? = some i → ∃ h invocation,
        handlers[stretch.member]? = some h ∧ stretch.left = .inr invocation ∧
        stretch.before.Uses (Handler.Session i m stretch.before h (.returned invocation))
          stretch.after
  crashes : ∀ trace resumed task pending s text s',
    Passes handlers m x u trace ⟨resumed, task :: pending, s⟩ →
    (task.resume resumed.length).Crashes s text s' →
    s'.world.EmptyHanded R ∧ ∀ p, task.program? = some p → ∀ i ∈ R, p.owner? ≠ some i

theorem keepsEmptyHanded (prompt : PromptStores ω)
    (reserved : ∀ h ∈ handlers, ∀ i ∈ R, h.engages m = some i → h.IsLogger i)
    (empty : u.EmptyHanded R) : KeepsEmptyHanded R handlers m x u := by
  have upkeep := upkeep (x := x) prompt reserved
  constructor
  · intro trace stage passes
    exact (upkeep.stage empty passes).1
  · intro trace stage passes stretch mem
    obtain ⟨whole, before, advanced⟩ := (upkeep.stage empty passes).2 stretch mem
    refine ⟨before, (whole.leads prompt).returned advanced before, ?_⟩
    intro i memR owned
    exact whole.session prompt memR owned advanced before
  · intro trace resumed task pending s text s' passes crashed
    refine ⟨upkeep.crash empty ⟨_, _, _, _, _, passes, crashed⟩, ?_⟩
    obtain ⟨p, w, goesOn, stretchCrashed, rfl⟩ := Task.resume_crashes crashed
    intro q programEq i mem owned
    obtain rfl : p = q := Option.some.inj (goesOn.program?_of_arrived.symm.trans programEq)
    have whole := upkeep.known passes resumed.length task p (getElem?_at _ _ _) programEq
    obtain ⟨invocation, _, ended⟩ := whole.ends prompt mem owned s.world
    exact ended.not_crashes stretchCrashed

end Cohort

end Courier
