import HiWaveTel.WebhookWorker
import HiWaveTel.Foundation.ControlFlow

/- The retry loops around database calls: `_with_sqlite_retry`, `_fetch_with_sqlite_retry`,
   `_fetch_inbound_sms` and the loop of `persist_inbound_sms`, statement by statement. The
   operation is called again and again, and `outcome k` is what its call number `k` comes to; the
   pauses between the calls take time only.

   Each body does what `RetryTurn` says, so each loop ends with its first decisive outcome. -/
namespace HiWaveTel
open Foundation

/-! ## The loops -/

/-- What the wrapped operation raises. -/
inductive OperationError where
  | operational (text : Str)
  | doesNotExist
  | other (name : Str)
  deriving DecidableEq, Repr

/-- What comes out of a loop. -/
inductive LoopError where
  | operation (exc : OperationError)
  | runtimeError (text : Str)
  | assertionError
  deriving DecidableEq, Repr

/-- The locals of a loop, with the calls so far. -/
structure RetryLocals (β : Type) where
  calls : Nat := 0
  lastExc : Option OperationError := none
  obj : Option β := none

abbrev RetryStmt (β : Type) := Stmt (RetryLocals β) LoopError β

section Loops
variable {β : Type} (outcome : Nat → Except OperationError β)

/-- A call of the wrapped operation. -/
def callOperation (s : RetryLocals β) : RetryLocals β × Except LoopError β :=
  ({ s with calls := s.calls + 1 }, (outcome s.calls).mapError .operation)

/-- `range(retries)`. -/
def attempts (retries : Int) : List Nat := List.range retries.toNat

/-- The handler of the `OperationalError`: the exception is kept, and raised again unless the
    database is busy and an attempt is left. -/
def onOperationalError (retries : Int) (attempt : Nat) (text : Str) : RetryStmt β :=
  .seq (.assign (fun s => { s with lastExc := some (.operational text) }))
    (.cond (!looksSqliteConcurrencyError text || decide (retries - 1 ≤ (attempt : Int)))
      (.raise (.operation (.operational text)))
      .skip)      -- `close_old_connections()` and `time.sleep(delay)`

/-- `except OperationalError`. -/
def operationalClause (retries : Int) (attempt : Nat) : LoopError → Option (RetryStmt β)
  | .operation (.operational text) => some (onOperationalError retries attempt text)
  | _ => none

/-- The statements after a loop. -/
def raiseLast (exhausted : Str) : RetryStmt β :=
  .reading RetryLocals.lastExc (fun
    | some exc => .raise (.operation exc)
    | none => .raise (.runtimeError exhausted))

/-- The loop of the two helpers that are given the operation. -/
def helperLoop (retries : Int) (exhausted : Str) : RetryStmt β :=
  .seq
    (.forElse
      (fun attempt => .tryExcept (.evaluate (callOperation outcome) .return_)
        (operationalClause retries attempt))
      .skip (attempts retries))
    (raiseLast exhausted)

/-- `_with_sqlite_retry`. -/
def withSqliteRetryLoop (retries : Int) (label : Str) : RetryStmt β :=
  helperLoop outcome retries ("SQLite retry exhausted for ".toList ++ label)

/-- `max_retries or int(getattr(settings, 'SQLITE_LOCKED_RETRY_COUNT', 15))`. -/
def retriesOr (maxRetries : Option Int) (setting : Int) : Int :=
  match maxRetries with
  | none => setting
  | some n => if n = 0 then setting else n

/-- `_fetch_with_sqlite_retry`. -/
def fetchWithSqliteRetryLoop (maxRetries : Option Int) (setting : Int) : RetryStmt β :=
  helperLoop outcome (retriesOr maxRetries setting) "_fetch_with_sqlite_retry exhausted".toList

/-- `_fetch_inbound_sms`, which has a clause for a missing row before the other one. -/
def fetchInboundSmsLoop (retries : Int) : RetryStmt β :=
  .seq
    (.forElse
      (fun attempt => .tryExcept (.evaluate (callOperation outcome) .return_)
        (fun
          | .operation .doesNotExist => some (.raise (.operation .doesNotExist))
          | exc => operationalClause retries attempt exc))
      .skip (attempts retries))
    (raiseLast "_fetch_inbound_sms exhausted retries".toList)

/-- `assert obj is not None`, and the row that the rest of the function goes on with. -/
def assertObj : RetryStmt β :=
  .reading RetryLocals.obj (fun
    | some obj => .return_ obj
    | none => .raise .assertionError)

/-- The loop of `persist_inbound_sms`, which a `break` ends before its `else` clause. -/
def persistInboundSmsLoop (retries : Int) : RetryStmt β :=
  .seq
    (.forElse
      (fun attempt => .tryExcept
        (.seq
          (.evaluate (callOperation outcome)
            (fun obj => .assign (fun s => { s with obj := some obj })))
          .breakLoop)
        (operationalClause retries attempt))
      (raiseLast "persist_inbound_sms exhausted retries without OperationalError".toList)
      (attempts retries))
    assertObj

end Loops

/-- How a loop ends, and after how many calls. -/
structure LoopEnd (β : Type) where
  calls : Nat
  out : Flow LoopError β
  deriving DecidableEq, Repr

def runLoop {β : Type} (loop : RetryStmt β) : LoopEnd β :=
  ⟨(loop {}).1.calls, (loop {}).2⟩

/-! ## What they have in common -/

/-- A lock error, after which a loop tries again. -/
def OperationError.busy : OperationError → Bool
  | .operational text => looksSqliteConcurrencyError text
  | _ => false

section Common
variable {β : Type} (outcome : Nat → Except OperationError β)

/-- The call fails with a lock error. -/
def LockedAt (k : Nat) : Prop := ∃ exc, outcome k = .error exc ∧ exc.busy = true

/-- The call with which a loop ends: all calls before it fail with a lock error, and it does so
    itself only where it is the last one that is permitted. -/
structure Decisive (retries : Int) (k : Nat) : Prop where
  permitted : (k : Int) < retries
  before : ∀ j < k, LockedAt outcome j
  last : LockedAt outcome k → (k : Int) + 1 = retries

/-- A loop returns the value of the operation, or raises its exception. -/
def asFlow : Except OperationError β → Flow LoopError β
  | .ok value => .ret value
  | .error exc => .exc (.operation exc)

/-- One turn of a loop, which `accepts` a value in its own way. -/
structure RetryTurn (retries : Int) (body : Nat → RetryStmt β)
    (accepts : β → RetryLocals β → Flow LoopError β → Prop) : Prop where
  value : ∀ attempt s v, outcome s.calls = .ok v →
    Stmt.AfterTurn (fun _ => False) (fun s' out => s'.calls = s.calls + 1 ∧ accepts v s' out)
      (body attempt s)
  again : ∀ (attempt : Nat) s exc, outcome s.calls = .error exc → exc.busy = true →
    (attempt : Int) + 1 < retries → ∃ s', body attempt s = (s', .normal) ∧ s'.calls = s.calls + 1
  fails : ∀ (attempt : Nat) s exc, outcome s.calls = .error exc →
    (exc.busy = true → retries ≤ (attempt : Int) + 1) →
    ∃ s', body attempt s = (s', .exc (.operation exc)) ∧ s'.calls = s.calls + 1

variable {outcome} {retries : Int} {body : Nat → RetryStmt β} {orElse : RetryStmt β}
  {accepts : β → RetryLocals β → Flow LoopError β → Prop}

/-- What a loop has come to. -/
def LoopDecided (outcome : Nat → Except OperationError β) (retries : Int)
    (accepts : β → RetryLocals β → Flow LoopError β → Prop) (s : RetryLocals β)
    (out : Flow LoopError β) : Prop :=
  ∃ k, Decisive outcome retries k ∧ s.calls = k + 1 ∧
    match outcome k with
    | .ok v => accepts v s out
    | .error exc => out = .exc (.operation exc)

/-- The attempts that are left begin with the number of calls so far, and there is one. -/
structure BeforeTurn (outcome : Nat → Except OperationError β) (retries : Int)
    (left : List Nat) (s : RetryLocals β) : Prop where
  permitted : (s.calls : Int) < retries
  left_eq : left = List.range' s.calls (retries.toNat - s.calls)
  before : ∀ j < s.calls, LockedAt outcome j

/-- The `else` clause of the loop is not reached. -/
theorem not_beforeTurn_nil {s : RetryLocals β} (h : BeforeTurn outcome retries [] s) : False := by
  have hlen := congrArg List.length h.left_eq
  have hlt := h.permitted
  rw [List.length_nil, List.length_range'] at hlen
  omega

theorem afterTurn_of_retryTurn (hbody : RetryTurn outcome retries body accepts) {attempt : Nat}
    {left : List Nat} {s : RetryLocals β} (h : BeforeTurn outcome retries (attempt :: left) s) :
    Stmt.AfterTurn (BeforeTurn outcome retries left) (LoopDecided outcome retries accepts)
      (body attempt s) := by
  obtain ⟨hlt, hleft, hbefore⟩ := h
  obtain ⟨n, hn⟩ : ∃ n, retries.toNat - s.calls = n + 1 :=
    Nat.exists_eq_succ_of_ne_zero (by omega)
  rw [hn, List.range'_succ, List.cons.injEq] at hleft
  obtain ⟨rfl, hleft⟩ := hleft
  cases hout : outcome s.calls with
  | ok v =>
    refine (hbody.value _ s v hout).mono (fun _ hfalse => hfalse.elim) ?_
    rintro s' out ⟨hcalls, haccepts⟩
    refine ⟨s.calls, ⟨hlt, hbefore, ?_⟩, hcalls, by rw [hout]; exact haccepts⟩
    rintro ⟨exc, hexc, _⟩
    rw [hout] at hexc
    cases hexc
  | error exc =>
    -- the loop goes on only after a lock error that is not the last permitted call
    by_cases hagain : exc.busy = true ∧ (s.calls : Int) + 1 < retries
    · obtain ⟨s', hs', hcalls⟩ := hbody.again _ s exc hout hagain.1 hagain.2
      rw [hs']
      refine ⟨by omega, ?_, ?_⟩
      · rw [hleft, hcalls]
        congr 1
        omega
      · intro j hj
        rcases Nat.lt_succ_iff_lt_or_eq.mp (hcalls ▸ hj) with hj | rfl
        · exact hbefore j hj
        · exact ⟨exc, hout, hagain.1⟩
    · have hlast : exc.busy = true → retries ≤ (s.calls : Int) + 1 := by
        intro hbusy
        by_contra hnot
        exact hagain ⟨hbusy, by omega⟩
      obtain ⟨s', hs', hcalls⟩ := hbody.fails _ s exc hout hlast
      rw [hs']
      refine ⟨s.calls, ⟨hlt, hbefore, ?_⟩, hcalls, by rw [hout]⟩
      rintro ⟨exc', hexc', hbusy⟩
      rw [hout] at hexc'
      cases hexc'
      exact le_antisymm (by omega) (hlast hbusy)

/-- A loop of such turns ends with its decisive call. -/
theorem loopDecided_of_retryTurn (hbody : RetryTurn outcome retries body accepts)
    (hretries : 1 ≤ retries) (orElse : RetryStmt β) :
    LoopDecided outcome retries accepts (Stmt.forElse body orElse (attempts retries) {}).1
      (Stmt.forElse body orElse (attempts retries) {}).2 := by
  refine Stmt.forElse_rule (BeforeTurn outcome retries) _
    (fun _ _ _ => afterTurn_of_retryTurn hbody)
    (fun s hs => (not_beforeTurn_nil hs).elim) ?_
  have hpermitted : ((0 : Nat) : Int) < retries := by omega
  exact ⟨hpermitted, by simp [attempts, List.range_eq_range'],
    fun j hj => absurd hj (Nat.not_lt_zero j)⟩

/-! ## The four bodies -/

theorem onOperationalError_again {attempt : Nat} {text : Str} {s : RetryLocals β}
    (hbusy : looksSqliteConcurrencyError text = true) (hleft : (attempt : Int) + 1 < retries) :
    onOperationalError retries attempt text s =
      ({ s with lastExc := some (.operational text) }, .normal) := by
  have htest : (!looksSqliteConcurrencyError text || decide (retries - 1 ≤ (attempt : Int))) =
      false := by
    rw [hbusy, decide_eq_false (by omega)]
    rfl
  unfold onOperationalError
  rw [htest]
  rfl

theorem onOperationalError_fails {attempt : Nat} {text : Str} {s : RetryLocals β}
    (hlast : looksSqliteConcurrencyError text = true → retries ≤ (attempt : Int) + 1) :
    onOperationalError retries attempt text s =
      ({ s with lastExc := some (.operational text) },
        .exc (.operation (.operational text))) := by
  have htest : (!looksSqliteConcurrencyError text || decide (retries - 1 ≤ (attempt : Int))) =
      true := by
    cases hbusy : looksSqliteConcurrencyError text with
    | false => rfl
    | true =>
      have hle := hlast hbusy
      rw [decide_eq_true (by omega)]
      rfl
  unfold onOperationalError
  rw [htest]
  rfl

/-- A `try` around the call is such a turn if its clauses let everything through but the
    `OperationalError`s. -/
theorem retryTurn_tryExcept {call : RetryStmt β}
    {clauses : Nat → LoopError → Option (RetryStmt β)}
    (hvalue : ∀ s v, outcome s.calls = .ok v → ∃ s' out, call s = (s', out) ∧
      (∀ error, out ≠ .exc error) ∧ Stmt.AfterTurn (fun _ => False)
        (fun s' out => s'.calls = s.calls + 1 ∧ accepts v s' out) (s', out))
    (hfails : ∀ s exc, outcome s.calls = .error exc →
      call s = ({ s with calls := s.calls + 1 }, .exc (.operation exc)))
    (hoperational : ∀ attempt text, clauses attempt (.operation (.operational text)) =
      some (onOperationalError retries attempt text))
    (hother : ∀ attempt exc, (∀ text, exc ≠ .operational text) →
      clauses attempt (.operation exc) = none ∨
      clauses attempt (.operation exc) = some (.raise (.operation exc))) :
    RetryTurn outcome retries (fun attempt => .tryExcept call (clauses attempt)) accepts := by
  refine ⟨?_, ?_, ?_⟩
  · intro attempt s v hout
    obtain ⟨s', out, hcall, hnot, hafter⟩ := hvalue s v hout
    have hsame : Stmt.tryExcept call (clauses attempt) s = (s', out) := by
      unfold Stmt.tryExcept
      rw [hcall]
      cases out with
      | exc error => exact absurd rfl (hnot error)
      | normal => rfl
      | brk => rfl
      | ret value => rfl
    rw [hsame]
    exact hafter
  · intro attempt s exc hout hbusy hleft
    cases exc with
    | operational text =>
      unfold Stmt.tryExcept
      simp only [hfails s _ hout, hoperational]
      exact ⟨_, onOperationalError_again hbusy hleft, rfl⟩
    | doesNotExist => cases hbusy
    | other name => cases hbusy
  · intro attempt s exc hout hlast
    unfold Stmt.tryExcept
    simp only [hfails s _ hout]
    by_cases hoper : ∃ text, exc = .operational text
    · obtain ⟨text, rfl⟩ := hoper
      simp only [hoperational]
      exact ⟨_, onOperationalError_fails hlast, rfl⟩
    · rcases hother attempt exc (fun text htext => hoper ⟨text, htext⟩) with hnone | hraise
      · simp only [hnone]
        exact ⟨_, rfl, rfl⟩
      · simp only [hraise]
        exact ⟨_, rfl, rfl⟩

theorem callOperation_eq (s : RetryLocals β) :
    callOperation outcome s =
      ({ s with calls := s.calls + 1 }, (outcome s.calls).mapError .operation) := rfl

theorem retryTurn_return {clauses : Nat → LoopError → Option (RetryStmt β)}
    (hoperational : ∀ attempt text, clauses attempt (.operation (.operational text)) =
      some (onOperationalError retries attempt text))
    (hother : ∀ attempt exc, (∀ text, exc ≠ .operational text) →
      clauses attempt (.operation exc) = none ∨
      clauses attempt (.operation exc) = some (.raise (.operation exc))) :
    RetryTurn outcome retries
      (fun attempt => .tryExcept (.evaluate (callOperation outcome) .return_) (clauses attempt))
      (fun v _ out => out = .ret v) := by
  refine retryTurn_tryExcept ?_ ?_ hoperational hother
  · intro s v hout
    refine ⟨{ s with calls := s.calls + 1 }, .ret v, ?_, (fun _ h => by cases h), rfl, rfl⟩
    unfold Stmt.evaluate
    rw [callOperation_eq, hout]
    rfl
  · intro s exc hout
    unfold Stmt.evaluate
    rw [callOperation_eq, hout]
    rfl

theorem operationalClause_other {attempt : Nat} {exc : OperationError}
    (h : ∀ text, exc ≠ .operational text) :
    operationalClause retries attempt (.operation exc) = (none : Option (RetryStmt β)) := by
  cases exc with
  | operational text => exact absurd rfl (h text)
  | doesNotExist => rfl
  | other name => rfl

theorem retryTurn_break :
    RetryTurn outcome retries
      (fun attempt => .tryExcept
        (.seq
          (.evaluate (callOperation outcome)
            (fun obj => .assign (fun s => { s with obj := some obj })))
          .breakLoop)
        (operationalClause retries attempt))
      (fun v s out => out = .normal ∧ s.obj = some v) := by
  refine retryTurn_tryExcept ?_ ?_ (fun _ _ => rfl)
    (fun _ _ h => Or.inl (operationalClause_other h))
  · intro s v hout
    refine ⟨{ s with calls := s.calls + 1, obj := some v }, .brk, ?_, (fun _ h => by cases h),
      rfl, rfl, rfl⟩
    unfold Stmt.seq Stmt.evaluate
    rw [callOperation_eq, hout]
    rfl
  · intro s exc hout
    apply Stmt.seq_exc
    unfold Stmt.evaluate
    rw [callOperation_eq, hout]
    rfl

/-! ## The same loop -/

/-- There is one decisive call. -/
theorem decisive_unique {k k' : Nat} (h : Decisive outcome retries k)
    (h' : Decisive outcome retries k') : k = k' := by
  have hle : ∀ {i j : Nat}, Decisive outcome retries i → Decisive outcome retries j → j ≤ i := by
    intro i j hi hj
    by_contra hlt
    have hlast := hi.last (hj.before i (Nat.not_le.mp hlt))
    have hpermitted := hj.permitted
    omega
  exact le_antisymm (hle h' h) (hle h h')

theorem runLoop_return (hbody : RetryTurn outcome retries body (fun v _ out => out = .ret v))
    (hretries : 1 ≤ retries) (after : RetryStmt β) :
    ∃ k, Decisive outcome retries k ∧
      runLoop (.seq (.forElse body orElse (attempts retries)) after) =
        ⟨k + 1, asFlow (outcome k)⟩ := by
  obtain ⟨k, hk, hcalls, hout⟩ := loopDecided_of_retryTurn hbody hretries orElse
  refine ⟨k, hk, ?_⟩
  cases hloop : Stmt.forElse body orElse (attempts retries) {} with
  | mk s out =>
    rw [hloop] at hcalls hout
    have hseq : Stmt.seq (.forElse body orElse (attempts retries)) after {} =
        (s, asFlow (outcome k)) := by
      cases houtcome : outcome k with
      | ok v =>
        simp only [houtcome] at hout
        subst hout
        exact Stmt.seq_ret hloop
      | error exc =>
        simp only [houtcome] at hout
        subst hout
        exact Stmt.seq_exc hloop
    rw [runLoop, hseq, hcalls]

theorem runLoop_break
    (hbody : RetryTurn outcome retries body (fun v s out => out = .normal ∧ s.obj = some v))
    (hretries : 1 ≤ retries) :
    ∃ k, Decisive outcome retries k ∧
      runLoop (.seq (.forElse body orElse (attempts retries)) assertObj) =
        ⟨k + 1, asFlow (outcome k)⟩ := by
  obtain ⟨k, hk, hcalls, hout⟩ := loopDecided_of_retryTurn hbody hretries orElse
  refine ⟨k, hk, ?_⟩
  cases hloop : Stmt.forElse body orElse (attempts retries) {} with
  | mk s out =>
    rw [hloop] at hcalls hout
    have hseq : Stmt.seq (.forElse body orElse (attempts retries)) assertObj {} =
        (s, asFlow (outcome k)) := by
      cases houtcome : outcome k with
      | ok v =>
        simp only [houtcome] at hout
        obtain ⟨rfl, hobj⟩ := hout
        rw [Stmt.seq_normal hloop, assertObj, Stmt.reading, hobj]
        rfl
      | error exc =>
        simp only [houtcome] at hout
        subst hout
        exact Stmt.seq_exc hloop
    rw [runLoop, hseq, hcalls]

theorem retryTurn_helper : RetryTurn outcome retries
    (fun attempt => .tryExcept (.evaluate (callOperation outcome) .return_)
      (operationalClause retries attempt)) (fun v _ out => out = .ret v) :=
  retryTurn_return (fun _ _ => rfl) (fun _ _ h => Or.inl (operationalClause_other h))

theorem runLoop_helperLoop (hretries : 1 ≤ retries) (exhausted : Str) :
    ∃ k, Decisive outcome retries k ∧
      runLoop (helperLoop outcome retries exhausted) = ⟨k + 1, asFlow (outcome k)⟩ :=
  runLoop_return retryTurn_helper hretries _

theorem runLoop_fetchInboundSmsLoop (hretries : 1 ≤ retries) :
    ∃ k, Decisive outcome retries k ∧
      runLoop (fetchInboundSmsLoop outcome retries) = ⟨k + 1, asFlow (outcome k)⟩ := by
  refine runLoop_return (retryTurn_return (fun _ _ => rfl) ?_) hretries _
  intro attempt exc h
  cases exc with
  | operational text => exact absurd rfl (h text)
  | doesNotExist => exact Or.inr rfl      -- raised again by a clause of its own
  | other name => exact Or.inl rfl

/-- The loop that the database helpers of the worker are stated with makes the same calls. -/
theorem retry_of_decisive {n k : Nat} {exhausted : OperationError}
    (hk : Decisive outcome n k) :
    retry OperationError.busy exhausted (fun i calls => (calls + 1, outcome i)) n 0 0 =
      (k + 1, outcome k) := by
  have hfrom : ∀ m i, i ≤ k → i + m = n →
      retry OperationError.busy exhausted (fun i calls => (calls + 1, outcome i)) m i i =
        (k + 1, outcome k) := by
    intro m
    induction m with
    | zero =>
      intro i hi hn
      have hpermitted := hk.permitted
      omega
    | succ m ih =>
      intro i hi hn
      rcases Nat.lt_or_eq_of_le hi with hlt | rfl
      · obtain ⟨exc, hexc, hbusy⟩ := hk.before i hlt
        have hgo : ¬ (m = 0 ∨ exc.busy = false) := by
          have hpermitted := hk.permitted
          rintro (hzero | hnot)
          · omega
          · rw [hbusy] at hnot
            cases hnot
        simp only [retry, hexc, if_neg hgo]
        exact ih (i + 1) hlt (by omega)
      · cases hout : outcome i with
        | ok v => simp only [retry, hout]
        | error exc =>
          have hstop : m = 0 ∨ exc.busy = false := by
            by_contra hgo
            rw [not_or, Bool.not_eq_false] at hgo
            have hlast := hk.last ⟨exc, hout, hgo.2⟩
            omega
          simp only [retry, hout, if_pos hstop]
  exact hfrom n 0 (Nat.zero_le k) (Nat.zero_add n)

end Common

/-- The four loops are one: each calls the operation up to its decisive call and returns or raises
    what that comes to, so that the `RuntimeError` after each loop is not reached. -/
theorem retry_loops_agree {β : Type} (outcome : Nat → Except OperationError β) (retries : Int)
    (hretries : 1 ≤ retries) :
    ∃ k, Decisive outcome retries k ∧
      (∀ label, runLoop (withSqliteRetryLoop outcome retries label) =
        ⟨k + 1, asFlow (outcome k)⟩) ∧
      (∀ maxRetries setting, retriesOr maxRetries setting = retries →
        runLoop (fetchWithSqliteRetryLoop outcome maxRetries setting) =
          ⟨k + 1, asFlow (outcome k)⟩) ∧
      runLoop (fetchInboundSmsLoop outcome retries) = ⟨k + 1, asFlow (outcome k)⟩ ∧
      runLoop (persistInboundSmsLoop outcome retries) = ⟨k + 1, asFlow (outcome k)⟩ := by
  obtain ⟨k, hk, hfetchInbound⟩ := @runLoop_fetchInboundSmsLoop _ outcome _ hretries
  refine ⟨k, hk, ?_, ?_, hfetchInbound, ?_⟩
  · intro label
    obtain ⟨k', hk', hrun⟩ := @runLoop_helperLoop _ outcome _ hretries
      ("SQLite retry exhausted for ".toList ++ label)
    rw [decisive_unique hk hk']
    exact hrun
  · intro maxRetries setting hsame
    subst hsame
    obtain ⟨k', hk', hrun⟩ := @runLoop_helperLoop _ outcome _ hretries
      "_fetch_with_sqlite_retry exhausted".toList
    rw [decisive_unique hk hk']
    exact hrun
  · obtain ⟨k', hk', hrun⟩ := runLoop_break (@retryTurn_break _ outcome _) hretries
    rw [decisive_unique hk hk']
    exact hrun

/-- Two locks, then a missing row. -/
def lockedTwice (k : Nat) : Except OperationError Unit :=
  if k < 2 then .error (.operational "database is locked".toList) else .error .doesNotExist

theorem retry_loops_agree_locked_twice :
    ∃ k, Decisive lockedTwice 3 k ∧ runLoop (fetchInboundSmsLoop lockedTwice 3) =
      ⟨k + 1, asFlow (lockedTwice k)⟩ ∧ runLoop (persistInboundSmsLoop lockedTwice 3) =
      ⟨k + 1, asFlow (lockedTwice k)⟩ := by
  obtain ⟨k, hk, _, _, hfetch, hpersist⟩ := retry_loops_agree lockedTwice 3 (by decide)
  exact ⟨k, hk, hfetch, hpersist⟩

end HiWaveTel
