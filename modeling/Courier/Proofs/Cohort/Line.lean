import Courier.Bus.Cohort

/-!
# Locks as lines

A lock stands for a line of members of which the first holds the lock.  Asking
for the lock joins the line at its end, releasing it makes the second the first,
and who is dropped leaves the line wherever it stands.
-/

namespace Courier

namespace Lock

/-- The lock whose line is a list: the first in it holds the lock, and the others
wait in this order. -/
def ofLine (line : List Nat) : Lock where
  holder := line.head?
  waiting := line.tail

@[simp]
theorem holder_ofLine (line : List Nat) : (ofLine line).holder = line.head? :=
  rfl

theorem request_ofLine (line : List Nat) (member : Nat) :
    (ofLine line).request member = ofLine (line ++ [member]) := by
  cases line with
  | nil => rfl
  | cons first others => rfl

theorem release_eq_ofLine (l : Lock) : l.release = ofLine l.waiting := by
  rcases l with ⟨holder, waiting⟩
  cases waiting <;> rfl

theorem release_ofLine (line : List Nat) : (ofLine line).release = ofLine line.tail :=
  release_eq_ofLine (ofLine line)

theorem forget_ofLine (line : List Nat) (member : Nat) :
    (ofLine line).forget member = ofLine (line.filter fun other => other ≠ member) := by
  cases line with
  | nil => rfl
  | cons first others =>
      by_cases same : first = member
      · subst same
        rw [List.filter_cons_of_neg (by simp)]
        exact (if_pos rfl).trans (release_eq_ofLine _)
      · rw [List.filter_cons_of_pos (by simpa using same)]
        exact if_neg fun held => same (Option.some.inj held)

end Lock

namespace Locks

@[simp]
theorem update_same (locks : Locks) (i : InstanceId) (change : Lock → Lock) :
    locks.update i change i = change (locks i) :=
  if_pos rfl

theorem update_of_ne (locks : Locks) {i j : InstanceId} (other : j ≠ i) (change : Lock → Lock) :
    locks.update i change j = locks j :=
  if_neg other

end Locks

end Courier
