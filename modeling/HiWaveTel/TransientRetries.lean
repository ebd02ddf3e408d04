import HiWaveTel.ShowSms

/- Which failures of `mmcli` are run again (`MMCLIClient._retrying_run`). `should_retry` calls a
   timeout transient, but `_run` raises it outside the `try` of the loop, so that it ends the
   loop at once. `retryingRun_retries_iff`: the loop does what `should_retry` says exactly
   when no run times out while there are attempts left. -/
namespace HiWaveTel
open Foundation

/-- The error of a run that timed out. -/
def timedOut (cfg : MmcliSettings) : MmcliError :=
  { message := "mmcli timed out (".toList ++ cfg.timeoutSec ++ "s)".toList
    exitCode := some (-1) }

/-- What one attempt comes to: `_run`, and `_ensure_ok` on its output. -/
def attemptRun (cfg : MmcliSettings) (what : Str) : RunResult → Except Raised CompletedProcess
  | .completed returncode stdout stderr =>
    match notOk ⟨returncode, stdout, stderr⟩ what with
    | none => .ok ⟨returncode, stdout, stderr⟩
    | some exc => .error (.mmcli exc)
  | .timeout => .error (.mmcli (timedOut cfg))
  | .launchFailed => .error .other

/-- `should_retry`. -/
def shouldRetry : Raised → Bool
  | .mmcli exc => defaultShouldRetry exc
  | .other => false

section Retrying
variable {σ : Type} {cfg : MmcliSettings} {what : Str}

/-- A timeout is a failure that `should_retry` wants to be run again. -/
theorem failsForNow_timeout : FailsForNow (attemptRun cfg what) shouldRetry .timeout :=
  ⟨_, rfl, rfl⟩

theorem failsForNow_completed {returncode : Int} {stdout stderr : Str} :
    FailsForNow (attemptRun cfg what) shouldRetry (.completed returncode stdout stderr) ↔
      ∃ exc, notOk ⟨returncode, stdout, stderr⟩ what = some exc ∧
        defaultShouldRetry exc = true := by
  simp only [FailsForNow, attemptRun]
  cases notOk ⟨returncode, stdout, stderr⟩ what with
  | none => simp
  | some exc => simp [shouldRetry]

theorem not_failsForNow_launchFailed :
    ¬ FailsForNow (attemptRun cfg what) shouldRetry .launchFailed := by
  intro h
  obtain ⟨e, he, hretry⟩ := h
  cases he
  cases hretry

theorem retryingRunLoop_ok {returncode : Int} {stdout stderr : Str}
    (h : notOk ⟨returncode, stdout, stderr⟩ what = none) (n : Nat) (s : σ) (rs : List RunResult) :
    retryingRunLoop cfg what (n + 1) s (.completed returncode stdout stderr :: rs) =
      some (.ok ⟨returncode, stdout, stderr⟩, s, rs) := by
  show (match notOk ⟨returncode, stdout, stderr⟩ what with
    | none => Script.pure ⟨returncode, stdout, stderr⟩
    | some exc =>
      if n = 0 ∨ defaultShouldRetry exc = false then Script.raise (.mmcli exc)
      else retryingRunLoop cfg what n : Mmcli σ CompletedProcess) s rs = _
  rw [h]
  rfl

/-- The loop goes on after a run that fails for a moment, or it ends with the run. -/
theorem retryingRunLoop_cons (n : Nat) (s : σ) (r : RunResult) (rs : List RunResult) :
    (FailsForNow (attemptRun cfg what) shouldRetry r ∧ r ≠ .timeout ∧ n ≠ 0 ∧
      retryingRunLoop cfg what (n + 1) s (r :: rs) = retryingRunLoop cfg what n s rs) ∨
    ((FailsForNow (attemptRun cfg what) shouldRetry r → n = 0 ∨ r = .timeout) ∧
      retryingRunLoop cfg what (n + 1) s (r :: rs) = some (attemptRun cfg what r, s, rs)) := by
  cases r with
  | timeout => exact Or.inr ⟨fun _ => Or.inr rfl, rfl⟩
  | launchFailed => exact Or.inr ⟨fun h => absurd h not_failsForNow_launchFailed, rfl⟩
  | completed returncode stdout stderr =>
    cases hexc : notOk ⟨returncode, stdout, stderr⟩ what with
    | none =>
      refine Or.inr ⟨?_, ?_⟩
      · intro h
        obtain ⟨exc, hsome, _⟩ := failsForNow_completed.mp h
        rw [hexc] at hsome
        cases hsome
      · rw [retryingRunLoop_ok hexc]
        simp only [attemptRun, hexc]
    | some exc =>
      rw [retryingRunLoop_failed hexc]
      by_cases hstop : n = 0 ∨ defaultShouldRetry exc = false
      · rw [if_pos hstop]
        refine Or.inr ⟨?_, ?_⟩
        · intro h
          obtain ⟨exc', hsome, hretry⟩ := failsForNow_completed.mp h
          rw [hexc] at hsome
          cases hsome
          rw [hretry] at hstop
          exact Or.inl (hstop.resolve_right Bool.noConfusion)
        · simp only [attemptRun, hexc]
      · rw [if_neg hstop]
        rw [not_or, Bool.not_eq_false] at hstop
        refine Or.inl ⟨?_, RunResult.noConfusion, hstop.1, rfl⟩
        exact failsForNow_completed.mpr ⟨exc, hexc, hstop.2⟩

/-- Up to the first timeout the loop does what `should_retry` says. -/
theorem retryingRunLoop_retried (n : Nat) (s : σ) (rs : List RunResult)
    (hlen : n + 1 ≤ rs.length) :
    ∃ res rest, retryingRunLoop cfg what (n + 1) s rs = some (res, s, rest) ∧
      (Retried (attemptRun cfg what) shouldRetry (n + 1) rs res rest ↔
        ¬ AnsweredEarly (attemptRun cfg what) shouldRetry (· = .timeout) (n + 1) rs) := by
  induction n generalizing rs with
  | zero =>
    cases rs with
    | nil => cases hlen
    | cons r rs =>
      have hlate : ¬ AnsweredEarly (attemptRun cfg what) shouldRetry (· = .timeout) 1 (r :: rs) :=
        fun h => absurd (lt_of_answeredEarly h) (Nat.lt_irrefl 1)
      rcases retryingRunLoop_cons 0 s r rs with ⟨_, _, hne, _⟩ | ⟨_, hend⟩
      · exact absurd rfl hne
      · exact ⟨_, _, hend,
          iff_of_true (retried_cons.mpr (Or.inl ⟨rfl, rfl, fun _ => rfl⟩)) hlate⟩
  | succ n ih =>
    cases rs with
    | nil => cases hlen
    | cons r rs =>
      rcases retryingRunLoop_cons (n + 1) s r rs with ⟨hfails, hnot, _, hnext⟩ | ⟨hstop, hend⟩
      · obtain ⟨res, rest, hrun, hiff⟩ := ih rs (Nat.le_of_succ_le_succ hlen)
        refine ⟨res, rest, hnext.trans hrun, ?_⟩
        rw [retried_cons, answeredEarly_cons]
        simp only [hfails, hnot, false_and, false_or, true_and, Nat.succ_ne_zero, imp_false,
          not_true_eq_false, and_false, hiff]
      · refine ⟨_, _, hend, ?_⟩
        -- the run is the last one made; the question is whether it ought to be
        have hshort : ¬ Retried (attemptRun cfg what) shouldRetry (n + 1) rs
            (attemptRun cfg what r) rs := fun h => Nat.lt_irrefl _ (length_lt_of_retried h)
        rw [retried_cons, answeredEarly_cons]
        by_cases hfails : FailsForNow (attemptRun cfg what) shouldRetry r
        · have htimeout : r = .timeout := (hstop hfails).resolve_left (Nat.succ_ne_zero n)
          apply iff_of_false
          · intro h
            rcases h with ⟨_, _, hlast⟩ | ⟨_, hagain⟩
            · exact Nat.succ_ne_zero n (hlast hfails)
            · exact hshort hagain
          · exact not_not_intro (Or.inl ⟨htimeout, Nat.succ_pos n⟩)
        · have hnot : r ≠ .timeout := by
            rintro rfl
            exact hfails failsForNow_timeout
          simp [hfails, hnot]

/-- For every sequence of outcomes: each transient failure is run again while attempts are left,
    exactly when none of them before the last is a timeout. -/
theorem retryingRun_retries_iff (s : σ) (rs : List RunResult)
    (hlen : cfg.maxRetries ≤ rs.length) :
    (∃ res rest, retryingRun cfg what s rs = some (res, s, rest) ∧
        Retried (attemptRun cfg what) shouldRetry cfg.maxRetries rs res rest) ↔
      ¬ AnsweredEarly (attemptRun cfg what) shouldRetry (· = .timeout) cfg.maxRetries rs := by
  obtain ⟨n, hn⟩ := Nat.exists_eq_succ_of_ne_zero (Nat.ne_of_gt cfg.maxRetries_pos)
  rw [hn] at hlen ⊢
  obtain ⟨res, rest, hrun, hiff⟩ := retryingRunLoop_retried n s rs hlen
  rw [retryingRun, hn, ← hiff]
  constructor
  · intro h
    obtain ⟨res', rest', hrun', hretried⟩ := h
    rw [hrun] at hrun'
    cases hrun'
    exact hretried
  · exact fun h => ⟨res, rest, hrun, h⟩

end Retrying

/-- A timeout, and the run that would have succeeded after it. -/
def timeoutThenOk : List RunResult := [.timeout, .completed 0 [] [], .completed 0 [] []]

theorem timeout_not_retried :
    ¬ ∀ (cfg : MmcliSettings) (what : Str) (rs : List RunResult), cfg.maxRetries ≤ rs.length →
      ∃ res rest, retryingRun cfg what () rs = some (res, (), rest) ∧
        Retried (attemptRun cfg what) shouldRetry cfg.maxRetries rs res rest := by
  intro h
  obtain ⟨res, rest, hrun, hretried⟩ := h ⟨"45".toList, 3, by decide⟩ [] timeoutThenOk (by decide)
  cases hrun
  rcases retried_cons.mp hretried with ⟨_, _, hlast⟩ | ⟨_, hagain⟩
  · exact absurd (hlast failsForNow_timeout) (by decide)
  · exact absurd (length_lt_of_retried hagain) (Nat.lt_irrefl _)

/-- Failures by exit code are run again. -/
theorem retryingRun_retries_in_progress :
    ∃ res rest, retryingRun ⟨"45".toList, 3, by decide⟩ [] ()
        [.completed 1 [] "operation in progress".toList, .completed 0 [] [], .timeout] =
          some (res, (), rest) ∧
      Retried (attemptRun ⟨"45".toList, 3, by decide⟩ []) shouldRetry 3
        [.completed 1 [] "operation in progress".toList, .completed 0 [] [], .timeout] res rest := by
  apply (retryingRun_retries_iff () _ (by decide)).mpr
  rw [answeredEarly_cons, answeredEarly_cons]
  simp [failsForNow_completed, notOk]

end HiWaveTel
