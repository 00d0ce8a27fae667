import Courier.Proofs.Audit.Writing
import Courier.Proofs.Dictionary

/-!
# What masking hides

Two events that differ in masked fields only are alike to a logger: the payload is
masked before anything is read from it, so that what the logger does for the one event is
what it does for the other, and the rows that it writes differ in their numbers and times
at most.
-/

namespace Courier

namespace Redaction

theorem fst_maskField (names : List String) (field : String × Json) :
    (maskField names field).1 = field.1 := by
  unfold maskField
  split <;> rfl

/-- A dictionary with the named fields masked. -/
def masked (names : List String) (d : Dict Json) : Dict Json where
  entries := d.entries.map (maskField names)
  increasing := by
    rw [Increasing, List.pairwise_map]
    simp only [fst_maskField]
    exact d.increasing

@[simp]
theorem apply_ofDict (names : List String) (d : Dict Json) :
    apply names (.ofDict d) = .ofDict (masked names d) :=
  rfl

theorem get?_masked (names : List String) (d : Dict Json) (key : String) :
    (masked names d).get? key =
      if key ∈ names then (d.get? key).map fun _ => mask else d.get? key := by
  show (d.entries.map (maskField names)).lookup key =
    if key ∈ names then (d.entries.lookup key).map fun _ => mask else d.entries.lookup key
  induction d.entries with
  | nil => simp
  | cons entry rest ih =>
      rw [List.map_cons, lookup_cons_eq_ite, fst_maskField, ih, lookup_cons_eq_ite]
      by_cases atHead : key = entry.1
      · subst atHead
        by_cases named : entry.1 ∈ names <;> simp [maskField, named]
      · simp [atHead]

end Redaction

namespace Event

/-- Two events of one name that are serialized as objects with the same keys, and with the
same value under every key that is not masked. -/
structure Alike (redacted : List String) (e e' : Event) : Prop where
  name : e.name = e'.name
  payloads : ∃ d d' : Dict Json, e.payload = .ok (.ofDict d) ∧ e'.payload = .ok (.ofDict d') ∧
    (∀ key, d.contains key = d'.contains key) ∧ ∀ key, key ∉ redacted → d.get? key = d'.get? key

/-- Masked, the payloads are the same. -/
theorem Alike.masked {redacted : List String} {e e' : Event} (alike : e.Alike redacted e') :
    ∃ payload payload', e.payload = .ok payload ∧ e'.payload = .ok payload' ∧
      Redaction.apply redacted payload = Redaction.apply redacted payload' := by
  obtain ⟨d, d', payloadEq, payloadEq', sameKeys, sameValues⟩ := alike.payloads
  refine ⟨_, _, payloadEq, payloadEq', ?_⟩
  rw [Redaction.apply_ofDict, Redaction.apply_ofDict]
  congr 1
  apply Dict.ext_get?
  intro key
  rw [Redaction.get?_masked, Redaction.get?_masked]
  by_cases named : key ∈ redacted
  · have there : (d.get? key).isSome = (d'.get? key).isSome := sameKeys key
    rw [if_pos named, if_pos named]
    cases found : d.get? key <;> cases found' : d'.get? key <;> simp [found, found'] at there ⊢
  · rw [if_neg named, if_neg named, sameValues key named]

end Event

namespace Row

/-- Two rows differ in their numbers and times at most. -/
def Alike (row row' : Row) : Prop :=
  row' = { row with stamp := row'.stamp }

/-- The row of an event tells nothing of what is masked. -/
theorem record_of_alike {redacted : List String} {e e' : Event} (alike : e.Alike redacted e')
    (stamp : Stamp) : record stamp e redacted = record stamp e' redacted := by
  obtain ⟨payload, payload', payloadEq, payloadEq', maskedEq⟩ := alike.masked
  simp only [record, payloadEq, payloadEq', maskedEq, alike.name]

/-- Rows that report events which are alike are alike. -/
theorem Reports.alike {redacted : List String} {e e' : Event} {x : Extra} {payload payload' : Json}
    {row row' : Row} (alike : e.Alike redacted e') (serialized : e.payload = .ok payload)
    (serialized' : e'.payload = .ok payload') (reports : row.Reports redacted e payload x)
    (reports' : row'.Reports redacted e' payload' x) : row.Alike row' := by
  obtain ⟨_, _, payloadEq, payloadEq', maskedEq⟩ := alike.masked
  obtain rfl := Except.ok.inj (serialized.symm.trans payloadEq)
  obtain rfl := Except.ok.inj (serialized'.symm.trans payloadEq')
  rcases row with ⟨stamp, userId, objectId, eventType, event, info⟩
  rcases row' with ⟨stamp', userId', objectId', eventType', event', info'⟩
  rcases reports with ⟨rfl, rfl, rfl, rfl, rfl⟩
  rcases reports' with ⟨rfl, rfl, rfl, rfl, rfl⟩
  simp only [Alike, maskedEq, alike.name]

end Row

namespace AuditLogger

variable {τ ω : Type} [AuditStores ω]

/-- A logger does for an event what it does for any other that is alike, whatever becomes of
its store. -/
theorem core_of_alike {redacted : List String} {e e' : Event} (alike : e.Alike redacted e')
    (type : TypeName) (x : Extra) :
    (lifecycle type redacted : Lifecycle (Holdings τ) ω).core (.event e) x =
      (lifecycle type redacted).core (.event e') x := by
  have writeEq : (write redacted e x : Proc (View (Holdings τ) ω) _) = write redacted e' x := by
    unfold write
    simp only [Row.record_of_alike alike, alike.name]
  simp only [lifecycle, writeEq]

end AuditLogger

end Courier
