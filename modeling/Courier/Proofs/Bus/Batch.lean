import Courier.Proofs.Bus.Trail

/-!
# Batches

A batch makes one call for each of its messages, and stops at the first that fails.  Every call has
a queue of its own, which starts with its message alone, while the world goes from one call to the
next; what a failing batch has come to by then stays in the world, and the results are dropped.

The main statement is `BusKind.composes`: batches that are put together are batches made one after
the other, and each of them is calls made one by one.
-/

namespace Courier

open Courier.Action Courier.Progress

variable {σ ω S : Type}

/-! ## The loop -/

namespace Progress

/-- The one and then the other, unless the first fails; the results of both are put together. -/
def followedBy (first second : Action S CallResult) : Action S CallResult := do
  match ← first with
  | .error e => return .error e
  | .ok results => return (← second).map (results ++ ·)

theorem batch_cons (handle : Message → Action S CallResult) (m : Message) (rest : List Message) :
    batch handle (m :: rest) = followedBy (handle m) (batch handle rest) := by
  apply congrArg (handle m).bind
  funext r
  cases r with
  | error e => rfl
  | ok results =>
      apply congrArg (batch handle rest).bind
      funext r
      cases r <;> rfl

theorem map_nil_append (r : CallResult) : r.map ([] ++ ·) = r := by
  cases r <;> rfl

theorem map_append_append (first second : List Dispatched) (r : CallResult) :
    (r.map (second ++ ·)).map (first ++ ·) = r.map ((first ++ second) ++ ·) := by
  cases r with
  | error e => rfl
  | ok results => exact congrArg Except.ok (List.append_assoc first second results).symm

theorem ok_followedBy (action : Action S CallResult) :
    followedBy (pure (.ok [])) action = action := by
  show action.bind (fun r => ret (r.map ([] ++ ·))) = action
  simp only [map_nil_append]
  exact action.bind_ret

theorem followedBy_assoc (first second third : Action S CallResult) :
    followedBy (followedBy first second) third = followedBy first (followedBy second third) := by
  refine (first.bind_assoc _ _).trans (congrArg first.bind ?_)
  funext r
  cases r with
  | error e => rfl
  | ok results =>
      refine (second.bind_assoc _ _).trans (Eq.trans ?_ (second.bind_assoc _ _).symm)
      apply congrArg second.bind
      funext r
      cases r with
      | error e => rfl
      | ok more =>
          refine Eq.trans (congrArg third.bind ?_) (third.bind_assoc _ _).symm
          funext r
          exact congrArg ret (map_append_append results more r).symm

/-- A batch of two parts is the first part, followed by the second. -/
theorem batch_append (handle : Message → Action S CallResult) (xs ys : List Message) :
    batch handle (xs ++ ys) = followedBy (batch handle xs) (batch handle ys) := by
  induction xs with
  | nil => exact (ok_followedBy _).symm
  | cons m rest ih => rw [List.cons_append, batch_cons, batch_cons, ih, followedBy_assoc]

theorem followedBy_returns_iff (first second : Action S CallResult) (s s' : S) (r : CallResult) :
    (followedBy first second).Returns s r s' ↔
      (∃ e, r = .error e ∧ first.Returns s (.error e) s') ∨
        ∃ results middle more, first.Returns s (.ok results) middle ∧
          second.Returns middle more s' ∧ r = more.map (results ++ ·) := by
  simp only [followedBy, returns_bind_iff]
  constructor
  · rintro ⟨firstResult, middle, returned, onward⟩
    cases firstResult with
    | error e =>
        obtain ⟨rfl, rfl⟩ := (returns_pure_iff _ _ _ _).mp onward
        exact .inl ⟨e, rfl, returned⟩
    | ok results =>
        obtain ⟨more, _, returnedToo, last⟩ := (returns_bind_iff _ _ _ _ _).mp onward
        obtain ⟨rfl, rfl⟩ := (returns_pure_iff _ _ _ _).mp last
        exact .inr ⟨results, middle, more, returned, returnedToo, rfl⟩
  · rintro (⟨e, rfl, returned⟩ | ⟨results, middle, more, returned, returnedToo, rfl⟩)
    · exact ⟨.error e, s', returned, (returns_pure_iff _ _ _ _).mpr ⟨rfl, rfl⟩⟩
    · exact ⟨.ok results, middle, returned, (returns_bind_iff _ _ _ _ _).mpr
        ⟨more, s', returnedToo, (returns_pure_iff _ _ _ _).mpr ⟨rfl, rfl⟩⟩⟩

/-! ## Calls one after the other -/

/-- What becomes of a message and a state in a call, which takes these messages from its queue. -/
abbrev Calling (S : Type) : Type :=
  Message → S → List Message → CallResult → S → Prop

/-- The loop of a batch, from a state to its result and the state it leaves.  The lists hold what
the calls that are made take from their queues, call by call. -/
inductive Batches (calling : Calling S) :
    List Message → S → List (List Message) → CallResult → S → Prop
  | nothing {s : S} : Batches calling [] s [] (.ok []) s
  | failed {m : Message} {rest taken : List Message} {s s' : S} {e : DispatchError} :
      calling m s taken (.error e) s' → Batches calling (m :: rest) s [taken] (.error e) s'
  | called {m : Message} {rest taken : List Message} {results : List Dispatched}
      {calls : List (List Message)} {s middle s' : S} {r : CallResult} :
      calling m s taken (.ok results) middle → Batches calling rest middle calls r s' →
      Batches calling (m :: rest) s (taken :: calls) (r.map (results ++ ·)) s'

/-- Calls that succeed, one by one. -/
inductive OneByOne (calling : Calling S) :
    List Message → S → List (List Message) → List Dispatched → S → Prop
  | nothing {s : S} : OneByOne calling [] s [] [] s
  | call {m : Message} {rest taken : List Message} {results more : List Dispatched}
      {calls : List (List Message)} {s middle s' : S} :
      calling m s taken (.ok results) middle → OneByOne calling rest middle calls more s' →
      OneByOne calling (m :: rest) s (taken :: calls) (results ++ more) s'

variable {calling : Calling S}

/-- A batch succeeds where all its calls do. -/
theorem batches_ok_iff (ms : List Message) (s s' : S) (calls : List (List Message))
    (results : List Dispatched) :
    Batches calling ms s calls (.ok results) s' ↔ OneByOne calling ms s calls results s' := by
  constructor
  · intro batches
    generalize resultEq : Except.ok results = r at batches
    induction batches generalizing results with
    | nothing =>
        cases resultEq
        exact .nothing
    | failed => cases resultEq
    | @called _ _ _ _ _ _ _ _ r called _ ih =>
        cases r with
        | error e => cases resultEq
        | ok more =>
            cases resultEq
            exact .call called (ih more rfl)
  · intro oneByOne
    induction oneByOne with
    | nothing => exact .nothing
    | call called _ ih => exact .called called ih

/-- A batch fails with the first call that fails, and makes no more of them. -/
theorem batches_error_iff (ms : List Message) (s s' : S) (calls : List (List Message))
    (e : DispatchError) :
    Batches calling ms s calls (.error e) s' ↔
      ∃ before m behind first results middle taken, ms = before ++ m :: behind ∧
        OneByOne calling before s first results middle ∧
        calling m middle taken (.error e) s' ∧ calls = first ++ [taken] := by
  constructor
  · intro batches
    generalize resultEq : Except.error e = r at batches
    induction batches with
    | nothing => cases resultEq
    | @failed m rest taken _ _ _ failed =>
        cases resultEq
        exact ⟨[], m, rest, [], [], _, taken, rfl, .nothing, failed, rfl⟩
    | @called m _ _ _ _ _ _ _ r called _ ih =>
        cases r with
        | ok more => cases resultEq
        | error e' =>
            obtain ⟨before, last, behind, first, results, middle, taken, rfl, oneByOne, failed,
              rfl⟩ := ih (by simpa [Except.map] using resultEq)
            exact ⟨m :: before, last, behind, _, _, middle, taken, rfl, .call called oneByOne,
              failed, rfl⟩
  · rintro ⟨before, m, behind, first, results, middle, taken, rfl, oneByOne, failed, rfl⟩
    induction oneByOne with
    | nothing => exact .failed failed
    | call called _ ih => exact .called called (ih failed)

/-- A batch may go on from where calls that have succeeded have led to. -/
theorem OneByOne.append_batches {xs ys : List Message} {s middle s' : S}
    {first second : List (List Message)} {results : List Dispatched} {r : CallResult}
    (oneByOne : OneByOne calling xs s first results middle)
    (batches : Batches calling ys middle second r s') :
    Batches calling (xs ++ ys) s (first ++ second) (r.map (results ++ ·)) s' := by
  induction oneByOne with
  | nothing => rwa [map_nil_append]
  | call called _ ih =>
      rw [← map_append_append]
      exact .called called (ih batches)

/-- A batch of two parts fails with the first, or goes on with the second from where the first has
led to. -/
theorem batches_append_iff (xs ys : List Message) (s s' : S) (calls : List (List Message))
    (r : CallResult) :
    Batches calling (xs ++ ys) s calls r s' ↔
      (∃ e, r = .error e ∧ Batches calling xs s calls (.error e) s') ∨
        ∃ first results middle second more, Batches calling xs s first (.ok results) middle ∧
          Batches calling ys middle second more s' ∧ calls = first ++ second ∧
          r = more.map (results ++ ·) := by
  constructor
  · intro batches
    induction xs generalizing s calls r with
    | nil => exact .inr ⟨[], [], s, calls, r, .nothing, batches, rfl, (map_nil_append r).symm⟩
    | cons m rest ih =>
        cases batches with
        | failed failed => exact .inl ⟨_, rfl, .failed failed⟩
        | @called _ _ taken results _ _ _ _ _ called onward =>
            rcases ih _ _ _ onward with
              ⟨e, rfl, failed⟩ | ⟨first, more, middle, second, last, succeeded, others, rfl, rfl⟩
            · exact .inl ⟨e, rfl, .called called failed⟩
            · exact .inr ⟨taken :: first, results ++ more, middle, second, last,
                .called called succeeded, others, rfl, map_append_append results more last⟩
  · rintro (⟨e, rfl, failed⟩ | ⟨first, results, middle, second, more, succeeded, others, rfl, rfl⟩)
    · rw [batches_error_iff] at failed ⊢
      obtain ⟨before, m, behind, first, results, middle, taken, rfl, rest⟩ := failed
      exact ⟨before, m, behind ++ ys, first, results, middle, taken, by simp, rest⟩
    · rw [batches_ok_iff] at succeeded
      exact succeeded.append_batches others

end Progress

/-! ## Batches on both kinds of bus -/

namespace BusKind

/-- A batch ends with `r` and leaves `w'`.  The lists hold what its calls take from their queues,
call by call. -/
def Batch (kind : BusKind) (handlers : Handlers σ ω) (ms : List Message) (x : Extra)
    (w : World σ ω) (calls : List (List Message)) (r : CallResult) (w' : World σ ω) : Prop :=
  (∃ budget, (kind.handleBatch handlers budget ms x).Returns w r w') ∧
    Batches (fun m => kind.Call handlers m x) ms w calls r w'

variable {kind : BusKind} {handlers : Handlers σ ω} {x : Extra}

theorem exists_handle_returns_iff (m : Message) (w w' : World σ ω) (r : CallResult) :
    (∃ budget, (kind.handle handlers budget m x).Returns w r w') ↔
      ∃ taken, kind.Call handlers m x w taken r w' := by
  simp only [← ends_iff_call]
  constructor
  · rintro ⟨budget, returned⟩
    rcases runEq : kind.handle handlers budget m x w with ⟨outcome, state, log⟩
    rw [Returns, runEq] at returned
    obtain ⟨rfl, rfl⟩ := returned
    exact ⟨_, log, ends_of_handle runEq (by simp) rfl⟩
  · rintro ⟨taken, log, _, budget, runEq, _⟩
    refine ⟨budget, ?_⟩
    rw [Returns, runEq]
    exact ⟨rfl, rfl⟩

theorem batches_of_returns {budget : Nat} {ms : List Message} {w w' : World σ ω} {r : CallResult}
    (returned : (kind.handleBatch handlers budget ms x).Returns w r w') :
    ∃ calls, Batches (fun m => kind.Call handlers m x) ms w calls r w' := by
  rw [handleBatch_eq] at returned
  induction ms generalizing w r with
  | nil =>
      obtain ⟨rfl, rfl⟩ := (returns_pure_iff _ _ _ _).mp returned
      exact ⟨[], .nothing⟩
  | cons m rest ih =>
      rw [batch_cons, followedBy_returns_iff] at returned
      rcases returned with ⟨e, rfl, failed⟩ | ⟨results, middle, more, succeeded, onward, rfl⟩
      · obtain ⟨taken, called⟩ := (exists_handle_returns_iff m w w' _).mp ⟨budget, failed⟩
        exact ⟨[taken], .failed called⟩
      · obtain ⟨taken, called⟩ := (exists_handle_returns_iff m w middle _).mp ⟨budget, succeeded⟩
        obtain ⟨calls, batches⟩ := ih onward
        exact ⟨taken :: calls, .called called batches⟩

theorem exists_returns_of_batches {ms : List Message} {w w' : World σ ω} {r : CallResult}
    {calls : List (List Message)}
    (batches : Batches (fun m => kind.Call handlers m x) ms w calls r w') :
    ∃ budget, (kind.handleBatch handlers budget ms x).Returns w r w' := by
  induction batches with
  | nothing =>
      refine ⟨0, ?_⟩
      rw [handleBatch_eq]
      exact (returns_pure_iff _ _ _ _).mpr ⟨rfl, rfl⟩
  | @failed m _ _ w w' _ failed =>
      obtain ⟨budget, returned⟩ := (exists_handle_returns_iff m w w' _).mpr ⟨_, failed⟩
      refine ⟨budget, ?_⟩
      rw [handleBatch_eq, batch_cons, followedBy_returns_iff]
      exact .inl ⟨_, rfl, returned⟩
  | @called m rest _ results _ w middle w' r called _ ih =>
      obtain ⟨first, returned⟩ := (exists_handle_returns_iff m w middle _).mpr ⟨_, called⟩
      obtain ⟨others, returnedToo⟩ := ih
      have returned := (kind.handle_approximates handlers (Nat.le_max_left first others) m
        x).returns returned
      have returnedToo := (kind.handleBatch_approximates handlers (Nat.le_max_right first others)
        rest x).returns returnedToo
      refine ⟨max first others, ?_⟩
      rw [handleBatch_eq] at returnedToo ⊢
      rw [batch_cons, followedBy_returns_iff]
      exact .inr ⟨results, middle, r, returned, returnedToo, rfl⟩

/-- A batch is its loop. -/
theorem batch_iff_batches (ms : List Message) (w w' : World σ ω) (calls : List (List Message))
    (r : CallResult) :
    kind.Batch handlers ms x w calls r w' ↔
      Batches (fun m => kind.Call handlers m x) ms w calls r w' :=
  ⟨And.right, fun batches => ⟨exists_returns_of_batches batches, batches⟩⟩

/-- A batch of two parts is the first part, followed by the second, whatever the budget. -/
theorem handleBatch_append (budget : Nat) (xs ys : List Message) :
    kind.handleBatch handlers budget (xs ++ ys) x =
      followedBy (kind.handleBatch handlers budget xs x)
        (kind.handleBatch handlers budget ys x) := by
  simp only [handleBatch_eq]
  exact batch_append _ xs ys

/-- Batches on a bus go together. -/
structure Composes (kind : BusKind) (handlers : Handlers σ ω) (x : Extra) : Prop where
  /-- As an action a batch of two parts is the first part, followed by the second unless that has
  failed.  The second starts from the world that the first leaves, and the results of both are put
  together.  If the first part fails, crashes or goes on for ever, so does the whole. -/
  parts : ∀ budget xs ys, kind.handleBatch handlers budget (xs ++ ys) x =
    followedBy (kind.handleBatch handlers budget xs x) (kind.handleBatch handlers budget ys x)
  /-- Whatever returns is a batch. -/
  returns : ∀ budget ms w r w', (kind.handleBatch handlers budget ms x).Returns w r w' →
    ∃ calls, kind.Batch handlers ms x w calls r w'
  /-- So are the calls: where the first part fails, those are all that is made of the whole. -/
  calls : ∀ xs ys w calls r w', kind.Batch handlers (xs ++ ys) x w calls r w' ↔
    (∃ e, r = .error e ∧ kind.Batch handlers xs x w calls (.error e) w') ∨
      ∃ first results middle second more, kind.Batch handlers xs x w first (.ok results) middle ∧
        kind.Batch handlers ys x middle second more w' ∧ calls = first ++ second ∧
        r = more.map (results ++ ·)
  /-- A batch that succeeds is calls made one by one. -/
  succeeds : ∀ ms w calls results w', kind.Batch handlers ms x w calls (.ok results) w' ↔
    OneByOne (fun m => kind.Call handlers m x) ms w calls results w'
  /-- A batch that fails is calls made one by one up to the first that fails.  Its error is the
  error of the batch, and what it leaves is left by the batch. -/
  fails : ∀ ms w calls e w', kind.Batch handlers ms x w calls (.error e) w' ↔
    ∃ before m behind first results middle taken, ms = before ++ m :: behind ∧
      OneByOne (fun m => kind.Call handlers m x) before w first results middle ∧
      kind.Call handlers m x middle taken (.error e) w' ∧ calls = first ++ [taken]
  /-- Every call starts with its message alone in the queue.  One that succeeds leaves nothing
  there, and what one that fails has left is dropped. -/
  call : ∀ m w taken r w', kind.Call handlers m x w taken r w' ↔
    EndsWith handlers x (kind.Serves handlers x) m w taken r w'

/-- On both buses, whatever the handlers: batches are put together of batches, and in the end of
calls made one by one, each with a queue of its own and from the world that the one before it has
left. -/
theorem composes (kind : BusKind) (handlers : Handlers σ ω) (x : Extra) :
    kind.Composes handlers x where
  parts := handleBatch_append
  returns budget ms w r w' returned := by
    obtain ⟨calls, batches⟩ := batches_of_returns returned
    exact ⟨calls, ⟨budget, returned⟩, batches⟩
  calls xs ys w calls r w' := by
    simp only [batch_iff_batches]
    exact batches_append_iff xs ys w w' calls r
  succeeds ms w calls results w' := by
    rw [batch_iff_batches]
    exact batches_ok_iff ms w w' calls results
  fails ms w calls e w' := by
    rw [batch_iff_batches]
    exact batches_error_iff ms w w' calls e
  call m w taken r w' := kind.call_iff_course handlers m x w w' taken r

/-- A batch stops at a command that nobody is there for.  What has been packed before is packed, and
the order behind the command is not taken. -/
example :
    let lost : Command := ⟨⟨"shop::Refund", "Refund"⟩, .null⟩
    let run := blocking.handleBatch (Shop.handlers 0) 3
      [.event Shop.packed, .command lost, .event Shop.ordered] ∅ Shop.opening
    run.outcome = .returned (.error (.commandHandlerMissing "Refund")) ∧
      run.state.outside = ["post"] :=
  ⟨rfl, rfl⟩

end BusKind

end Courier
