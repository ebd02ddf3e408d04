import HiWaveTel.Foundation.Retry
import HiWaveTel.Foundation.Run
import HiWaveTel.WebhookOutbox

/- One thread of `run_webhook_worker`, with the errors its database calls can raise.
   `_with_sqlite_retry` repeats a closure while the database is busy; the closures of
   `process_webhook_job` change the job in memory before they save it, so a try that
   fails leaves its change behind. What the helper does not absorb ends
   `process_webhook_job`, and `worker_loop` logs it and goes on.

   `claimed_jobs_released_iff` — the job of an iteration is left PROCESSING exactly when
   the save of the bump or that of the final status does not get through. -/
namespace HiWaveTel
open Foundation

/-! ## _with_sqlite_retry -/

/-- What a database call raises. -/
inductive DbError where
  | operational (text : Str)   -- an `OperationalError`
  | other
  deriving DecidableEq, Repr

/-- `_looks_sqlite_concurrency_error`, on `str(exc)`. -/
def looksSqliteConcurrencyError (text : Str) : Bool :=
  let lowered := Text.lower text
  Text.contains lowered "locked".toList || Text.contains lowered "busy".toList

/-- The helper tries again after it. -/
def DbError.busy : DbError → Bool
  | .operational text => looksSqliteConcurrencyError text
  | .other => false

/-- One try of a database statement. -/
structure DbTry where
  fault : Option DbError
  now : Nat

/-- `SQLITE_LOCKED_RETRY_COUNT`, which the settings replace by 15 unless it is positive. -/
structure SqliteSettings where
  retries : Nat
  retries_pos : 0 < retries

def defaultSqlite : SqliteSettings := ⟨15, by decide⟩

/-- `_with_sqlite_retry` around a closure that changes memory and then saves. -/
def withSqliteRetry {σ β : Type} (cfg : SqliteSettings) (change : DbTry → σ → σ)
    (save : DbTry → σ → σ × β) (tries : Nat → DbTry) (s : σ) : σ × Except DbError β :=
  retry DbError.busy .other
    (saving (fun i => change (tries i)) (fun i => save (tries i)) (fun i => (tries i).fault))
    cfg.retries 0 s

/-- A try is free of faults before the tries run out, and the helper gets to it. -/
def GetsThrough (cfg : SqliteSettings) (tries : Nat → DbTry) : Prop :=
  ∃ k < cfg.retries, (tries k).fault = none ∧ ∀ j < k, (tries j).fault.any DbError.busy = true

instance (cfg : SqliteSettings) (tries : Nat → DbTry) : Decidable (GetsThrough cfg tries) :=
  inferInstanceAs (Decidable (∃ k < cfg.retries, _))

/-- The result of the first try that is free of faults, or an error without a save. -/
theorem withSqliteRetry_cases {σ β : Type} (cfg : SqliteSettings) (change : DbTry → σ → σ)
    (save : DbTry → σ → σ × β) (tries : Nat → DbTry) (s : σ) :
    (GetsThrough cfg tries ∧ ∃ k, ((tries 0).fault = none ↔ k = 0) ∧
        withSqliteRetry cfg change save tries s =
          ((save (tries k) (changes (fun i => change (tries i)) (k + 1) 0 s)).1,
            .ok (save (tries k) (changes (fun i => change (tries i)) (k + 1) 0 s)).2)) ∨
    (¬ GetsThrough cfg tries ∧ ∃ k e, withSqliteRetry cfg change save tries s =
        (changes (fun i => change (tries i)) k 0 s, .error e)) := by
  have h := retry_saving DbError.busy .other (fun i => change (tries i))
    (fun i => save (tries i)) (fun i => (tries i).fault) cfg.retries 0 s
  simp only [Nat.zero_add, Absorbed] at h
  rcases h with ⟨k, hk, hnone, hbefore, he⟩ | ⟨hnot, k, e, he⟩
  · refine Or.inl ⟨⟨k, hk, hnone, hbefore⟩, k, ?_, he⟩
    constructor
    · intro hfirst
      by_contra hpos
      have hbusy := hbefore 0 (Nat.pos_of_ne_zero hpos)
      rw [hfirst] at hbusy
      exact Bool.noConfusion hbusy
    · intro hzero
      rw [hzero] at hnone
      exact hnone
  · exact Or.inr ⟨hnot, k, e, he⟩

/-! ## process_webhook_job -/

/-- The database, and the job as the worker has it in memory. -/
structure Holding where
  jobs : JobTable
  job : WebhookDeliveryJob

/-- `_bump_attempts`, retried. -/
def retryBump (cfg : SqliteSettings) (tries : Nat → DbTry) (h : Holding) :
    Holding × Except DbError Unit :=
  withSqliteRetry cfg (fun _ h => { h with job := bumpAttempts h.job })
    (fun t h => ({ h with jobs := h.jobs.update h.job.pk (saveAttempts h.job t.now) }, ())) tries h

/-- `_finalize`, retried. -/
def retryFinalize (env : WebhookEnv) (cfg : SqliteSettings) (ok : Bool) (tries : Nat → DbTry)
    (h : Holding) : Holding × Except DbError Unit :=
  withSqliteRetry cfg (fun t h => { h with job := finalized env h.job ok t.now })
    (fun t h => ({ h with
      jobs := h.jobs.update h.job.pk
        (if ok then saveDelivered h.job t.now else saveStatus h.job t.now) }, ())) tries h

/-- `claim_next_job`. -/
def retryClaim (cfg : SqliteSettings) (tries : Nat → DbTry) (jobs : JobTable) :
    JobTable × Except DbError (Option WebhookDeliveryJob) :=
  withSqliteRetry cfg (fun _ jobs => jobs) (fun t jobs => claimNextJob jobs t.now) tries jobs

/-- How `deliver_*_webhooks(job.*_sms)` ends; the argument is read from the database first. -/
inductive Delivery where
  | smsNotRead (error : Str)
  | returned (ok : Bool)
  | raised (error : Str)
  deriving DecidableEq, Repr

def missingSms : JobKind → Str
  | .inbound => "Inbound webhook job missing inbound_sms".toList
  | .outbound => "Outbound webhook job missing outbound_sms".toList

/-- What the `try` of `process_webhook_job` comes to. -/
def deliveryEnded (job : WebhookDeliveryJob) (delivery : Delivery) : Except Str Bool :=
  if smsIdOf job.kind job = none then .error (missingSms job.kind)
  else match delivery with
    | .smsNotRead error => .error error
    | .returned ok => .ok ok
    | .raised error => .error error

/-- The choices of the environment in one iteration of `worker_loop`. -/
structure WorkerPass where
  claim : Nat → DbTry
  bump : Nat → DbTry
  delivery : Delivery
  finalize : Nat → DbTry

/-- `process_webhook_job`: the job table afterwards, and what it returned or raised. -/
def tryProcessWebhookJob (env : WebhookEnv) (cfg : SqliteSettings) (pass : WorkerPass)
    (jobs : JobTable) (job : WebhookDeliveryJob) : JobTable × Except DbError Bool :=
  match retryBump cfg pass.bump ⟨jobs, job⟩ with
  | (h, .error e) => (h.jobs, .error e)
  | (h, .ok ()) =>
    let ended := deliveryEnded h.job pass.delivery
    let ok := deliveryOk ended
    match retryFinalize env cfg ok pass.finalize ⟨h.jobs, withDeliveryError h.job ended⟩ with
    | (h, .error e) => (h.jobs, .error e)
    | (h, .ok ()) => (h.jobs, .ok ok)

/-- One iteration of `worker_loop`: the job table afterwards, and the job it processed. All
    exceptions are logged, and the loop goes on. -/
def workerIteration (env : WebhookEnv) (cfg : SqliteSettings) (jobs : JobTable)
    (pass : WorkerPass) : JobTable × Option WebhookDeliveryJob :=
  match retryClaim cfg pass.claim jobs with
  | (jobs, .error _) => (jobs, none)
  | (jobs, .ok none) => (jobs, none)
  | (jobs, .ok (some job)) => ((tryProcessWebhookJob env cfg pass jobs job).1, some job)

/-- Without a fault at the first try the helper runs its closure once. -/
theorem withSqliteRetry_of_clean {σ β : Type} (cfg : SqliteSettings) (change : DbTry → σ → σ)
    (save : DbTry → σ → σ × β) {tries : Nat → DbTry} (s : σ) (h : (tries 0).fault = none) :
    withSqliteRetry cfg change save tries s =
      ((save (tries 0) (change (tries 0) s)).1, .ok (save (tries 0) (change (tries 0) s)).2) := by
  obtain ⟨n, hn⟩ := Nat.exists_eq_succ_of_ne_zero (Nat.ne_of_gt cfg.retries_pos)
  rw [withSqliteRetry, hn]
  exact retry_saving_none h

/-- Without faults, and with the delivery of `deliverJob`, this is `processWebhookJob`. -/
theorem tryProcessWebhookJob_of_clean {env : WebhookEnv} {cfg : SqliteSettings}
    {pass : WorkerPass} {jobs : JobTable} {job : WebhookDeliveryJob} {http : Http}
    {inbound : Table InboundSms} {outbound : Table OutboundSms} {now : Nat}
    (hbump : pass.bump 0 = ⟨none, now⟩) (hfinalize : pass.finalize 0 = ⟨none, now⟩)
    (hended : deliveryEnded job pass.delivery = (deliverJob env http inbound outbound job).2) :
    (tryProcessWebhookJob env cfg pass jobs job).1 =
      (processWebhookJob env http inbound outbound jobs job now).1 := by
  have hb : (pass.bump 0).fault = none := by rw [hbump]
  have hf : (pass.finalize 0).fault = none := by rw [hfinalize]
  have hsame : deliveryEnded (bumpAttempts job) pass.delivery =
      (deliverJob env http inbound outbound (bumpAttempts job)).2 := hended
  unfold tryProcessWebhookJob retryBump retryFinalize processWebhookJob
  simp only [withSqliteRetry_of_clean _ _ _ _ hb, withSqliteRetry_of_clean _ _ _ _ hf, hsame,
    hbump, hfinalize]
  rfl

/-! ## What each part leaves behind -/

theorem changes_bump (k i : Nat) (h : Holding) :
    changes (fun _ h => { h with job := bumpAttempts h.job }) k i h =
      { h with job := { h.job with attempts := h.job.attempts + k } } := by
  induction k generalizing i h with
  | zero => rfl
  | succ k ih =>
    rw [changes, ih]
    simp only [bumpAttempts, Nat.add_right_comm _ 1 k, Nat.add_assoc]

/-- The bump is saved with one attempt more for each try, or not at all. -/
theorem retryBump_cases (cfg : SqliteSettings) (tries : Nat → DbTry) (h : Holding) :
    (GetsThrough cfg tries ∧ ∃ k now job, ((tries 0).fault = none ↔ k = 0) ∧
        job = { h.job with attempts := h.job.attempts + (k + 1) } ∧
        retryBump cfg tries h = (⟨h.jobs.update h.job.pk (saveAttempts job now), job⟩, .ok ())) ∨
    (¬ GetsThrough cfg tries ∧ ∃ job e, retryBump cfg tries h = (⟨h.jobs, job⟩, .error e)) := by
  unfold retryBump
  rcases withSqliteRetry_cases cfg (fun _ h => { h with job := bumpAttempts h.job })
    (fun t h => ({ h with jobs := h.jobs.update h.job.pk (saveAttempts h.job t.now) }, ()))
    tries h with ⟨hthrough, k, hk, he⟩ | ⟨hnot, k, e, he⟩
  · rw [changes_bump] at he
    exact Or.inl ⟨hthrough, k, (tries k).now, _, hk, rfl, he⟩
  · rw [changes_bump] at he
    exact Or.inr ⟨hnot, _, e, he⟩

/-- The closure of `_finalize` can be run twice. -/
theorem finalized_finalized (env : WebhookEnv) (job : WebhookDeliveryJob) (ok : Bool)
    (now now' : Nat) :
    finalized env (finalized env job ok now) ok now' = finalized env job ok now' := by
  cases ok
  · by_cases hmax : env.maxAttempts ≤ job.attempts <;> simp [finalized, hmax]
  · simp [finalized]

theorem changes_finalized (env : WebhookEnv) (ok : Bool) (tries : Nat → DbTry) (k i : Nat)
    (h : Holding) :
    changes (fun i h => { h with job := finalized env h.job ok (tries i).now }) (k + 1) i h =
      { h with job := finalized env h.job ok (tries (i + k)).now } := by
  induction k generalizing i h with
  | zero => rfl
  | succ k ih =>
    rw [changes, ih, finalized_finalized, show i + 1 + k = i + (k + 1) by omega]

theorem changes_finalized_jobs (env : WebhookEnv) (ok : Bool) (tries : Nat → DbTry) (k i : Nat)
    (h : Holding) :
    ∃ job, changes (fun i h => { h with job := finalized env h.job ok (tries i).now }) k i h =
      ⟨h.jobs, job⟩ := by
  cases k with
  | zero => exact ⟨h.job, rfl⟩
  | succ k => exact ⟨_, changes_finalized env ok tries k i h⟩

theorem retryFinalize_cases (env : WebhookEnv) (cfg : SqliteSettings) (ok : Bool)
    (tries : Nat → DbTry) (h : Holding) :
    (GetsThrough cfg tries ∧ ∃ now, retryFinalize env cfg ok tries h =
        (⟨finalizeSave env h.jobs h.job ok now, finalized env h.job ok now⟩, .ok ())) ∨
    (¬ GetsThrough cfg tries ∧ ∃ job e,
        retryFinalize env cfg ok tries h = (⟨h.jobs, job⟩, .error e)) := by
  unfold retryFinalize
  rcases withSqliteRetry_cases cfg (fun t h => { h with job := finalized env h.job ok t.now })
    (fun t h => ({ h with
      jobs := h.jobs.update h.job.pk
        (if ok then saveDelivered h.job t.now else saveStatus h.job t.now) }, ()))
    tries h with ⟨hthrough, k, _, he⟩ | ⟨hnot, k, e, he⟩
  · rw [changes_finalized, Nat.zero_add] at he
    exact Or.inl ⟨hthrough, (tries k).now, he⟩
  · obtain ⟨job, hjob⟩ := changes_finalized_jobs env ok tries k 0 h
    rw [hjob] at he
    exact Or.inr ⟨hnot, job, e, he⟩

theorem changes_id {σ : Type} (k i : Nat) (s : σ) : changes (fun _ s => s) k i s = s := by
  induction k generalizing i with
  | zero => rfl
  | succ k ih => exact ih (i + 1)

theorem retryClaim_cases (cfg : SqliteSettings) (tries : Nat → DbTry) (jobs : JobTable) :
    (GetsThrough cfg tries ∧ ∃ now, retryClaim cfg tries jobs =
        ((claimNextJob jobs now).1, .ok (claimNextJob jobs now).2)) ∨
    (¬ GetsThrough cfg tries ∧ ∃ e, retryClaim cfg tries jobs = (jobs, .error e)) := by
  unfold retryClaim
  rcases withSqliteRetry_cases cfg (fun _ jobs => jobs) (fun t jobs => claimNextJob jobs t.now)
    tries jobs with ⟨hthrough, k, _, he⟩ | ⟨hnot, k, e, he⟩
  · rw [changes_id] at he
    exact Or.inl ⟨hthrough, (tries k).now, he⟩
  · rw [changes_id] at he
    exact Or.inr ⟨hnot, e, he⟩

/-- Both saves of `process_webhook_job` get through. -/
def Releases (cfg : SqliteSettings) (pass : WorkerPass) : Prop :=
  GetsThrough cfg pass.bump ∧ GetsThrough cfg pass.finalize

instance (cfg : SqliteSettings) (pass : WorkerPass) : Decidable (Releases cfg pass) :=
  inferInstanceAs (Decidable (_ ∧ _))

/-- The ends of `process_webhook_job`: an error at the bump, one at the final save, or none. -/
inductive ProcessEnd (env : WebhookEnv) (cfg : SqliteSettings) (pass : WorkerPass)
    (jobs : JobTable) (job : WebhookDeliveryJob) : JobTable × Except DbError Bool → Prop
  | bumpLost {e} (hb : ¬ GetsThrough cfg pass.bump) :
      ProcessEnd env cfg pass jobs job (jobs, .error e)
  | finalizeLost {e k now bumped} (hb : GetsThrough cfg pass.bump)
      (hf : ¬ GetsThrough cfg pass.finalize) (hk : (pass.bump 0).fault = none ↔ k = 0)
      (hbumped : bumped = { job with attempts := job.attempts + (k + 1) }) :
      ProcessEnd env cfg pass jobs job
        (jobs.update job.pk (saveAttempts bumped now), .error e)
  | finished {k now now' bumped} (hr : Releases cfg pass)
      (hk : (pass.bump 0).fault = none ↔ k = 0)
      (hbumped : bumped = { job with attempts := job.attempts + (k + 1) }) :
      ProcessEnd env cfg pass jobs job
        (finalizeSave env (jobs.update job.pk (saveAttempts bumped now))
            (withDeliveryError bumped (deliveryEnded bumped pass.delivery))
            (deliveryOk (deliveryEnded bumped pass.delivery)) now',
          .ok (deliveryOk (deliveryEnded bumped pass.delivery)))

theorem tryProcessWebhookJob_end (env : WebhookEnv) (cfg : SqliteSettings) (pass : WorkerPass)
    (jobs : JobTable) (job : WebhookDeliveryJob) :
    ProcessEnd env cfg pass jobs job (tryProcessWebhookJob env cfg pass jobs job) := by
  unfold tryProcessWebhookJob
  rcases retryBump_cases cfg pass.bump ⟨jobs, job⟩ with
    ⟨hb, k, now, bumped, hk, hbumped, he⟩ | ⟨hb, bumped, e, he⟩
  · simp only [he]
    rcases retryFinalize_cases env cfg (deliveryOk (deliveryEnded bumped pass.delivery))
      pass.finalize ⟨jobs.update job.pk (saveAttempts bumped now),
        withDeliveryError bumped (deliveryEnded bumped pass.delivery)⟩ with
      ⟨hf, now', he'⟩ | ⟨hf, job', e, he'⟩
    · simp only [he']
      exact .finished ⟨hb, hf⟩ hk hbumped
    · simp only [he']
      exact .finalizeLost hb hf hk hbumped
  · simp only [he]
    exact .bumpLost hb

/-- The copy of a job that `claim_next_job` returns. -/
def claimedCopy (job : WebhookDeliveryJob) : WebhookDeliveryJob := { job with status := .processing }

@[simp] theorem claimedCopy_pk (job : WebhookDeliveryJob) : (claimedCopy job).pk = job.pk := rfl

/-- The iteration claims `job`, the oldest pending one. -/
def Claims (cfg : SqliteSettings) (jobs : JobTable) (pass : WorkerPass)
    (job : WebhookDeliveryJob) : Prop :=
  GetsThrough cfg pass.claim ∧ oldestPending jobs = some job

/-- An iteration does nothing, or processes the job it claims. -/
theorem workerIteration_cases (env : WebhookEnv) (cfg : SqliteSettings) (jobs : JobTable)
    (pass : WorkerPass) :
    ((∀ job, ¬ Claims cfg jobs pass job) ∧ workerIteration env cfg jobs pass = (jobs, none)) ∨
    (∃ job now, Claims cfg jobs pass job ∧ workerIteration env cfg jobs pass =
      ((tryProcessWebhookJob env cfg pass (jobs.update job.pk (saveClaim (claimedCopy job) now))
          (claimedCopy job)).1, some (claimedCopy job))) := by
  unfold workerIteration Claims
  rcases retryClaim_cases cfg pass.claim jobs with ⟨hc, now, he⟩ | ⟨hc, e, he⟩
  · rw [he]
    unfold claimNextJob
    cases hold : oldestPending jobs with
    | none => exact Or.inl ⟨by simp, rfl⟩
    | some job => exact Or.inr ⟨job, now, ⟨hc, rfl⟩, rfl⟩
  · rw [he]
    exact Or.inl ⟨fun _ h => hc h.1, rfl⟩

/-! ## Which rows are PROCESSING -/

def Processing (q : Nat) (jobs : JobTable) : Prop :=
  ∃ j ∈ jobs.rows, j.pk = q ∧ j.status = .processing

instance (q : Nat) (jobs : JobTable) : Decidable (Processing q jobs) :=
  inferInstanceAs (Decidable (∃ j ∈ jobs.rows, _))

theorem processing_saveAttempts {jobs : JobTable} {p q now : Nat} {job : WebhookDeliveryJob} :
    Processing q (jobs.update p (saveAttempts job now)) ↔ Processing q jobs :=
  Table.exists_mem_update (fun _ => Iff.rfl)

/-- An UPDATE of the status of one row. -/
theorem processing_update {jobs : JobTable} {job : WebhookDeliveryJob} (hj : job ∈ jobs.rows)
    {u : RowUpdate WebhookDeliveryJob} {st : JobStatus} (hu : ∀ j, (u.set j).status = st) {q : Nat} :
    Processing q (jobs.update job.pk u) ↔
      (q = job.pk ∧ st = .processing) ∨ (q ≠ job.pk ∧ Processing q jobs) := by
  simp only [Processing, Table.mem_update, job_pk]
  constructor
  · intro h
    obtain ⟨j, ⟨i, _, hi, rfl⟩ | ⟨hj, hne⟩, hq, hst⟩ := h
    · refine Or.inl ⟨?_, (hu i).symm.trans hst⟩
      rw [← hq, ← hi]
      exact u.pk_set i
    · exact Or.inr ⟨hq ▸ hne, j, hj, hq, hst⟩
  · intro h
    rcases h with ⟨rfl, hst⟩ | ⟨hne, j, hj, rfl, hst⟩
    · exact ⟨u.set job, Or.inl ⟨job, hj, rfl, rfl⟩, u.pk_set job, (hu job).trans hst⟩
    · exact ⟨j, Or.inr ⟨hj, hne⟩, rfl, hst⟩

/-- The final save takes its row out of PROCESSING. -/
theorem processing_finalizeSave {env : WebhookEnv} {jobs : JobTable} {r job : WebhookDeliveryJob}
    (hr : r ∈ jobs.rows) (hpk : job.pk = r.pk) {ok : Bool} {now q : Nat} :
    Processing q (finalizeSave env jobs job ok now) ↔ q ≠ r.pk ∧ Processing q jobs := by
  have hu : ∀ j, ((if ok then saveDelivered (finalized env job ok now) now
      else saveStatus (finalized env job ok now) now).set j).status =
        (finalized env job ok now).status := by
    intro j
    cases ok <;> rfl
  unfold finalizeSave
  simp only [finalized_pk, hpk]
  rw [processing_update hr hu]
  simp [finalized_status]

/-- A worker that ends `process_webhook_job` with both saves through leaves no PROCESSING row
    behind, and any other one leaves its own. -/
theorem processing_tryProcess {env : WebhookEnv} {cfg : SqliteSettings} {pass : WorkerPass}
    {jobs : JobTable} {job : WebhookDeliveryJob} (hj : Processing job.pk jobs) {q : Nat} :
    Processing q (tryProcessWebhookJob env cfg pass jobs job).1 ↔
      Processing q jobs ∧ ¬ (q = job.pk ∧ Releases cfg pass) := by
  have hend := tryProcessWebhookJob_end env cfg pass jobs job
  generalize tryProcessWebhookJob env cfg pass jobs job = res at hend
  cases hend with
  | bumpLost hb => simp [Releases, hb]
  | finalizeLost hb hf hk hbumped =>
    rw [processing_saveAttempts]
    simp [Releases, hf]
  | @finished k now now' bumped hr hk hbumped =>
    obtain ⟨j, hj, hpk, _⟩ := hj
    have hbump : (saveAttempts bumped now).set j ∈
        (jobs.update job.pk (saveAttempts bumped now)).rows :=
      Table.mem_update.mpr (Or.inl ⟨j, hj, hpk, rfl⟩)
    have hpk' : (withDeliveryError bumped (deliveryEnded bumped pass.delivery)).pk =
        ((saveAttempts bumped now).set j).pk := by
      rw [withDeliveryError_pk, hbumped]
      exact hpk.symm
    have hrow : ((saveAttempts bumped now).set j).pk = job.pk := hpk
    rw [processing_finalizeSave hbump hpk', processing_saveAttempts, hrow]
    simp [hr, and_comm]

theorem not_processing_of_pending {jobs : JobTable} {job : WebhookDeliveryJob}
    (hj : job ∈ jobs.rows) (hs : job.status = .pending) : ¬ Processing job.pk jobs := by
  intro h
  obtain ⟨j, hj', hpk, hst⟩ := h
  rw [jobs.pk_injOn hj' hj hpk, hs] at hst
  cases hst

/-- Exactly what an iteration does to the PROCESSING rows. -/
theorem processing_workerIteration (env : WebhookEnv) (cfg : SqliteSettings) (jobs : JobTable)
    (pass : WorkerPass) (q : Nat) :
    Processing q (workerIteration env cfg jobs pass).1 ↔ Processing q jobs ∨
      ∃ job, Claims cfg jobs pass job ∧ ¬ Releases cfg pass ∧ q = job.pk := by
  rcases workerIteration_cases env cfg jobs pass with ⟨hnone, he⟩ | ⟨job, now, hc, he⟩
  · rw [he]
    refine ⟨Or.inl, ?_⟩
    intro h
    rcases h with h | ⟨job, hc, _⟩
    · exact h
    · exact absurd hc (hnone job)
  · have hclaim := oldestPending_mem hc.2
    have hnot := not_processing_of_pending hclaim.1 hclaim.2
    have hset : ∀ q, Processing q (jobs.update job.pk (saveClaim (claimedCopy job) now)) ↔
        q = job.pk ∨ Processing q jobs := by
      intro q
      have hclaimed : ∀ j, ((saveClaim (claimedCopy job) now).set j).status = .processing :=
        fun _ => rfl
      rw [processing_update hclaim.1 hclaimed]
      by_cases hq : q = job.pk <;> simp [hq]
    have honly : ∀ j, Claims cfg jobs pass j → j = job := by
      intro j hj
      exact Option.some.inj (hj.2.symm.trans hc.2)
    have hcopy : Processing (claimedCopy job).pk
        (jobs.update job.pk (saveClaim (claimedCopy job) now)) := (hset job.pk).mpr (Or.inl rfl)
    rw [he, processing_tryProcess hcopy, hset q, claimedCopy_pk]
    constructor
    · intro h
      obtain ⟨hq | hq, hrel⟩ := h
      · exact Or.inr ⟨job, hc, fun hr => hrel ⟨hq, hr⟩, hq⟩
      · exact Or.inl hq
    · intro h
      rcases h with hq | ⟨j, hj, hr, rfl⟩
      · exact ⟨Or.inr hq, fun h => hnot (h.1 ▸ hq)⟩
      · exact ⟨Or.inl (by rw [honly j hj]), fun h => hr h.2⟩

/-! ## A job that is processed to the end -/

/-- The status `_finalize` gives a job with this many attempts. -/
def finalStatus (env : WebhookEnv) (attempts : Nat) (ok : Bool) : JobStatus :=
  if ok then .delivered else if env.maxAttempts ≤ attempts then .failed else .pending

theorem finalStatus_cases (env : WebhookEnv) (attempts : Nat) (ok : Bool) :
    finalStatus env attempts ok = .delivered ∨
      (finalStatus env attempts ok = .failed ∧ env.maxAttempts ≤ attempts) ∨
      (finalStatus env attempts ok = .pending ∧ attempts < env.maxAttempts) := by
  unfold finalStatus
  by_cases hmax : env.maxAttempts ≤ attempts
  · cases ok <;> simp [hmax]
  · cases ok <;> simp [hmax, Nat.lt_of_not_le hmax]

/-- What an iteration has made of its job when both saves got through, after `tries` tries of
    the bump. -/
structure Processed (env : WebhookEnv) (job r : WebhookDeliveryJob) (ok : Bool) (tries : Nat) :
    Prop where
  pk : r.pk = job.pk
  kind : r.kind = job.kind
  inboundSmsId : r.inboundSmsId = job.inboundSmsId
  outboundSmsId : r.outboundSmsId = job.outboundSmsId
  createdAt : r.createdAt = job.createdAt
  attempts : r.attempts = job.attempts + tries
  status : r.status = finalStatus env (job.attempts + tries) ok

/-- The UPDATE of `_finalize`. -/
def finalUpdate (env : WebhookEnv) (job : WebhookDeliveryJob) (ok : Bool) (now : Nat) :
    RowUpdate WebhookDeliveryJob :=
  if ok then saveDelivered (finalized env job ok now) now
  else saveStatus (finalized env job ok now) now

theorem finalizeSave_eq_update (env : WebhookEnv) (jobs : JobTable) (job : WebhookDeliveryJob)
    (ok : Bool) (now : Nat) :
    finalizeSave env jobs job ok now = jobs.update job.pk (finalUpdate env job ok now) := by
  unfold finalizeSave finalUpdate
  simp only [finalized_pk]

/-- The final save of a copy that has the attempts of the row. -/
theorem finalUpdate_processed (env : WebhookEnv) {job r : WebhookDeliveryJob}
    (h : r.attempts = job.attempts) (ok : Bool) (now : Nat) :
    Processed env r ((finalUpdate env job ok now).set r) ok 0 := by
  have hstatus : (finalized env job ok now).status = finalStatus env (r.attempts + 0) ok := by
    unfold finalized finalStatus
    rw [Nat.add_zero, h]
    split_ifs <;> rfl
  cases ok
  · exact ⟨rfl, rfl, rfl, rfl, rfl, rfl, hstatus⟩
  · exact ⟨rfl, rfl, rfl, rfl, rfl, rfl, hstatus⟩

theorem withDeliveryError_attempts (job : WebhookDeliveryJob) (ended : Except Str Bool) :
    (withDeliveryError job ended).attempts = job.attempts := by
  unfold withDeliveryError
  split <;> rfl

/-- An iteration whose saves get through is one UPDATE of the row it claims. -/
theorem workerIteration_released (env : WebhookEnv) {cfg : SqliteSettings} {jobs : JobTable}
    {pass : WorkerPass} {job : WebhookDeliveryJob} (hc : Claims cfg jobs pass job)
    (hr : Releases cfg pass) :
    ∃ k u, ((pass.bump 0).fault = none ↔ k = 0) ∧
      workerIteration env cfg jobs pass = (jobs.update job.pk u, some (claimedCopy job)) ∧
      Processed env job (u.set job) (deliveryOk (deliveryEnded job pass.delivery)) (k + 1) := by
  rcases workerIteration_cases env cfg jobs pass with ⟨hnone, _⟩ | ⟨job', now, hc', he⟩
  · exact absurd hc (hnone job)
  · have hsame : job' = job := Option.some.inj (hc'.2.symm.trans hc.2)
    subst hsame
    rw [he]
    have hend := tryProcessWebhookJob_end env cfg pass
      (jobs.update job'.pk (saveClaim (claimedCopy job') now)) (claimedCopy job')
    generalize tryProcessWebhookJob env cfg pass _ _ = res at hend ⊢
    cases hend with
    | bumpLost hb => exact absurd hr.1 hb
    | finalizeLost hb hf hk hbumped => exact absurd hr.2 hf
    | @finished k now₁ now₂ bumped _ hk hbumped =>
      have hended : deliveryEnded bumped pass.delivery = deliveryEnded job' pass.delivery := by
        rw [hbumped]
        rfl
      rw [hended]
      generalize deliveryEnded job' pass.delivery = ended
      have hpk : (withDeliveryError bumped ended).pk = job'.pk := by
        rw [withDeliveryError_pk, hbumped]
        rfl
      have hattempts : (withDeliveryError bumped ended).attempts = job'.attempts + (k + 1) := by
        rw [withDeliveryError_attempts, hbumped]
        rfl
      have hbump : ((saveAttempts bumped now₁).set
          ((saveClaim (claimedCopy job') now).set job')).attempts = job'.attempts + (k + 1) := by
        rw [hbumped]
        rfl
      have hfinal := finalUpdate_processed env (hbump.trans hattempts.symm) (deliveryOk ended) now₂
      refine ⟨k, (saveClaim (claimedCopy job') now).comp ((saveAttempts bumped now₁).comp
        (finalUpdate env (withDeliveryError bumped ended) (deliveryOk ended) now₂)), hk, ?_, ?_⟩
      · rw [finalizeSave_eq_update, claimedCopy_pk, hpk, Table.update_update, Table.update_update]
      · refine ⟨hfinal.pk, hfinal.kind, hfinal.inboundSmsId, hfinal.outboundSmsId,
          hfinal.createdAt, hfinal.attempts.trans hbump, hfinal.status.trans ?_⟩
        rw [Nat.add_zero, hbump]

/-- One that does not get through them all is an UPDATE that leaves the row PROCESSING. -/
theorem workerIteration_unreleased (env : WebhookEnv) {cfg : SqliteSettings} {jobs : JobTable}
    {pass : WorkerPass} {job : WebhookDeliveryJob} (hc : Claims cfg jobs pass job)
    (hr : ¬ Releases cfg pass) :
    ∃ u, workerIteration env cfg jobs pass = (jobs.update job.pk u, some (claimedCopy job)) ∧
      (u.set job).status = .processing := by
  rcases workerIteration_cases env cfg jobs pass with ⟨hnone, _⟩ | ⟨job', now, hc', he⟩
  · exact absurd hc (hnone job)
  · have hsame : job' = job := Option.some.inj (hc'.2.symm.trans hc.2)
    subst hsame
    rw [he]
    have hend := tryProcessWebhookJob_end env cfg pass
      (jobs.update job'.pk (saveClaim (claimedCopy job') now)) (claimedCopy job')
    generalize tryProcessWebhookJob env cfg pass _ _ = res at hend ⊢
    cases hend with
    | bumpLost hb => exact ⟨_, rfl, rfl⟩
    | @finalizeLost e k now₁ bumped hb hf hk hbumped =>
      refine ⟨(saveClaim (claimedCopy job') now).comp (saveAttempts bumped now₁), ?_, rfl⟩
      rw [claimedCopy_pk, Table.update_update]
    | finished hr' hk hbumped => exact absurd hr' hr

/-! ## Released jobs -/

/-- `worker_loop`. -/
def workerLoop (env : WebhookEnv) (cfg : SqliteSettings) (jobs : JobTable) (pass : WorkerPass) :
    Option JobTable :=
  some (workerIteration env cfg jobs pass).1

/-- If the iteration claims a job, both saves of `process_webhook_job` get through. -/
def ReleasesClaimed (cfg : SqliteSettings) (jobs : JobTable) (pass : WorkerPass) : Prop :=
  (∃ job, Claims cfg jobs pass job) → Releases cfg pass

/-- A claimed job is out of PROCESSING after the iteration exactly when both saves get through. -/
theorem released_iff {env : WebhookEnv} {cfg : SqliteSettings} {jobs : JobTable}
    {pass : WorkerPass} {job : WebhookDeliveryJob} (hc : Claims cfg jobs pass job) :
    ¬ Processing job.pk (workerIteration env cfg jobs pass).1 ↔ Releases cfg pass := by
  have hclaim := oldestPending_mem hc.2
  have hnot := not_processing_of_pending hclaim.1 hclaim.2
  rw [processing_workerIteration, not_iff_comm]
  constructor
  · intro hr
    exact Or.inr ⟨job, hc, hr, rfl⟩
  · intro hp
    rcases hp with hp | ⟨_, _, hr, _⟩
    · exact absurd hp hnot
    · exact hr

/-- A job is left in PROCESSING that was not in it at the start: some iteration did not release
    the one it claimed. -/
theorem left_processing_iff {env : WebhookEnv} {cfg : SqliteSettings} {jobs jobs' : JobTable}
    {passes : List WorkerPass} (h : exec (workerLoop env cfg) jobs passes = some jobs') :
    (∃ q, Processing q jobs' ∧ ¬ Processing q jobs) ↔
      ¬ Meets (workerLoop env cfg) (ReleasesClaimed cfg) jobs passes := by
  have hstart : ¬ ∃ q, Processing q jobs ∧ ¬ Processing q jobs := by
    rintro ⟨q, hq, hnot⟩
    exact hnot hq
  rw [exec_latch (F := fun t => ∃ q, Processing q t ∧ ¬ Processing q jobs)
    (I := fun t => ∀ q, Processing q jobs → Processing q t) ?_ ?_ (fun _ hq => hq) h]
  · exact or_iff_right hstart
  · intro s pass t hs hstep q hq
    cases hstep
    exact (processing_workerIteration env cfg s pass q).mpr (Or.inl (hs q hq))
  · intro s pass t hs hstep
    cases hstep
    simp only [processing_workerIteration, ReleasesClaimed, Classical.not_imp]
    constructor
    · intro hf
      obtain ⟨q, hq | ⟨job, hc, hr, _⟩, hnew⟩ := hf
      · exact Or.inl ⟨q, hq, hnew⟩
      · exact Or.inr ⟨⟨job, hc⟩, hr⟩
    · intro hf
      rcases hf with ⟨q, hq, hnew⟩ | ⟨⟨job, hc⟩, hr⟩
      · exact ⟨q, Or.inl hq, hnew⟩
      · -- the claimed row was PENDING, so it is not one of the rows PROCESSING at the start
        have hclaim := oldestPending_mem hc.2
        refine ⟨job.pk, Or.inr ⟨job, hc, hr, rfl⟩, ?_⟩
        intro hstart
        exact not_processing_of_pending hclaim.1 hclaim.2 (hs _ hstart)

/-- After an iteration that claims one its row is out of PROCESSING exactly when both saves
    get through, and the loop leaves none it claimed in that status exactly when this is so in
    every iteration. -/
theorem claimed_jobs_released_iff (env : WebhookEnv) (cfg : SqliteSettings)
    {jobs jobs' : JobTable} {passes : List WorkerPass}
    (h : exec (workerLoop env cfg) jobs passes = some jobs') :
    (∀ pass job, Claims cfg jobs' pass job →
      (¬ Processing job.pk (workerIteration env cfg jobs' pass).1 ↔ Releases cfg pass)) ∧
    ((∀ q, Processing q jobs' → Processing q jobs) ↔
      Meets (workerLoop env cfg) (ReleasesClaimed cfg) jobs passes) := by
  refine ⟨fun pass job hc => released_iff hc, ?_⟩
  have hleft := left_processing_iff h
  constructor
  · intro hkeep
    by_contra hmeets
    obtain ⟨q, hq, hnew⟩ := hleft.mpr hmeets
    exact hnew (hkeep q hq)
  · intro hmeets q hq
    by_contra hnew
    exact hleft.mp ⟨q, hq, hnew⟩ hmeets

/-! ## Sample data of the runs -/

def pendingJob : WebhookDeliveryJob :=
  { pk := 1, kind := .inbound, inboundSmsId := some 1, outboundSmsId := none, status := .pending,
    attempts := 0, lastError := [], createdAt := 0, updatedAt := 0, deliveredAt := none }

def onePendingJob : JobTable :=
  ⟨[pendingJob], 2, by decide, List.pairwise_singleton _ _, List.pairwise_singleton _ _⟩

def databaseIsLocked : DbError := .operational "database is locked".toList

/-- No fault at any try. -/
def cleanTries : Nat → DbTry := fun _ => ⟨none, 0⟩

/-- The first `n` tries find the database locked. -/
def lockedTries (n : Nat) : Nat → DbTry :=
  fun i => ⟨if i < n then some databaseIsLocked else none, 0⟩

/-- The database stays locked for all tries of the bump. -/
def lockedPass : WorkerPass :=
  { claim := cleanTries, bump := lockedTries 15, delivery := .returned true, finalize := cleanTries }

/-- The job is stranded: no later iteration can claim it. -/
theorem claimed_job_can_be_stranded :
    ¬ ∀ (env : WebhookEnv) (cfg : SqliteSettings) (jobs jobs' : JobTable)
      (passes : List WorkerPass), exec (workerLoop env cfg) jobs passes = some jobs' →
      ∀ q, Processing q jobs' → Processing q jobs := by
  intro h
  have hstranded : Processing 1 (workerIteration defaultEnv defaultSqlite onePendingJob
      lockedPass).1 := by decide
  have hstart := h defaultEnv defaultSqlite onePendingJob _ [lockedPass] rfl 1 hstranded
  exact absurd hstart (by decide)

/-- Three lock errors in the bump and two in the final save are absorbed. -/
theorem claimed_jobs_released_iff_absorbed :
    ∃ jobs', exec (workerLoop defaultEnv defaultSqlite) onePendingJob
        [{ lockedPass with bump := lockedTries 3, finalize := lockedTries 2 }] = some jobs' ∧
      ((∀ q, Processing q jobs' → Processing q onePendingJob) ↔
        Meets (workerLoop defaultEnv defaultSqlite) (ReleasesClaimed defaultSqlite) onePendingJob
          [{ lockedPass with bump := lockedTries 3, finalize := lockedTries 2 }]) :=
  ⟨_, rfl, (claimed_jobs_released_iff defaultEnv defaultSqlite rfl).2⟩

end HiWaveTel
