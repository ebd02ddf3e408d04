import HiWaveTel.WebhookWorker

/- The attempts counter of a job, against what a worker really did: the log has an entry
   for every `process_webhook_job` call and one for every call of a delivery function.
   `_bump_attempts` adds one in memory before it saves, and the helper runs it again when
   the database is locked, so a call counts once for each try of its first save.

   `attempts_truthful_iff` — the counters tell the truth in every state of a run exactly
   when no lock error hits inside a bump. -/
namespace HiWaveTel
open Foundation

/-- The job table, and the jobs of all `process_webhook_job` calls and of all calls of a
    delivery function. -/
structure WorkerLog where
  jobs : JobTable
  calls : List Nat
  invoked : List Nat

inductive WorkerAction where
  | schedule (kind : JobKind) (smsPk now : Nat)
  | iterate (pass : WorkerPass)

/-- The argument of the delivery function could be read from the database. -/
def Delivery.readsSms : Delivery → Bool
  | .smsNotRead _ => false
  | .returned _ | .raised _ => true

/-- `process_webhook_job` gets as far as the delivery function. -/
def Invokes (cfg : SqliteSettings) (pass : WorkerPass) (job : WebhookDeliveryJob) : Prop :=
  GetsThrough cfg pass.bump ∧ (smsIdOf job.kind job).isSome = true ∧
    pass.delivery.readsSms = true

instance (cfg : SqliteSettings) (pass : WorkerPass) (job : WebhookDeliveryJob) :
    Decidable (Invokes cfg pass job) := inferInstanceAs (Decidable (_ ∧ _ ∧ _))

def workerLogStep (env : WebhookEnv) (cfg : SqliteSettings) (s : WorkerLog) :
    WorkerAction → Option WorkerLog
  | .schedule kind smsPk now => some { s with jobs := scheduleWebhook kind s.jobs smsPk now }
  | .iterate pass =>
    match workerIteration env cfg s.jobs pass with
    | (jobs, none) => some { s with jobs }
    | (jobs, some job) =>
      some ⟨jobs, s.calls ++ [job.pk],
        if Invokes cfg pass job then s.invoked ++ [job.pk] else s.invoked⟩

/-- The helper absorbs every error of the database, and the SMS row can be read. -/
def OnlyAbsorbed (cfg : SqliteSettings) (_ : WorkerLog) : WorkerAction → Prop
  | .schedule _ _ _ => True
  | .iterate pass =>
    GetsThrough cfg pass.claim ∧ Releases cfg pass ∧ pass.delivery.readsSms = true

instance (cfg : SqliteSettings) (s : WorkerLog) (a : WorkerAction) :
    Decidable (OnlyAbsorbed cfg s a) :=
  match a with
  | .schedule _ _ _ => isTrue trivial
  | .iterate _ => inferInstanceAs (Decidable (_ ∧ _ ∧ _))

/-- If the iteration claims a job, the first save of the bump goes through. -/
def BumpsOnce (cfg : SqliteSettings) (s : WorkerLog) : WorkerAction → Prop
  | .schedule _ _ _ => True
  | .iterate pass => (∃ job, Claims cfg s.jobs pass job) → (pass.bump 0).fault = none

/-- Every counter has the number of calls, and a job failed after enough deliveries. -/
structure Truthful (env : WebhookEnv) (s : WorkerLog) : Prop where
  attempts : ∀ j ∈ s.jobs.rows, j.attempts = s.calls.count j.pk
  failed : ∀ j ∈ s.jobs.rows, j.status = .failed → env.maxAttempts ≤ s.invoked.count j.pk

/-- What absorbed errors do not change: every job has an SMS, the log is about the jobs of the
    table, each call has invoked the delivery function, and no counter is behind. -/
structure WellLogged (env : WebhookEnv) (s : WorkerLog) : Prop where
  hasSms : ∀ j ∈ s.jobs.rows, (smsIdOf j.kind j).isSome = true
  known : ∀ p ∈ s.calls, p < s.jobs.nextPk
  invoked : ∀ p, s.invoked.count p = s.calls.count p
  behind : ∀ j ∈ s.jobs.rows, s.calls.count j.pk ≤ j.attempts
  failed : ∀ j ∈ s.jobs.rows, j.status = .failed → env.maxAttempts ≤ j.attempts

/-- Jobs that have not been processed. -/
theorem wellLogged_start {env : WebhookEnv} {jobs : JobTable}
    (hsms : ∀ j ∈ jobs.rows, (smsIdOf j.kind j).isSome = true)
    (hfailed : ∀ j ∈ jobs.rows, j.status ≠ .failed) : WellLogged env ⟨jobs, [], []⟩ :=
  ⟨hsms, by simp, fun _ => rfl, by simp, fun j hj h => absurd h (hfailed j hj)⟩

/-! ## What a schedule call does to the counters -/

/-- A row as it was before, but for its status, which has not become FAILED. -/
structure SameCounters (j r : WebhookDeliveryJob) : Prop where
  pk : r.pk = j.pk
  attempts : r.attempts = j.attempts
  sms : smsIdOf r.kind r = smsIdOf j.kind j
  failed : r.status = .failed → j.status = .failed

theorem sameCounters_refl (j : WebhookDeliveryJob) : SameCounters j j := ⟨rfl, rfl, rfl, id⟩

theorem smsIdOf_newJob (kind : JobKind) (smsPk now n : Nat) :
    smsIdOf kind ((newJob kind smsPk now).make n) = some smsPk := by
  cases kind <;> rfl

/-- Every old row keeps its counter, and a new row starts at zero. -/
theorem scheduleWebhook_counters (kind : JobKind) (jobs : JobTable) (smsPk now : Nat) :
    jobs.nextPk ≤ (scheduleWebhook kind jobs smsPk now).nextPk ∧
    (∀ j ∈ jobs.rows, ∃ r ∈ (scheduleWebhook kind jobs smsPk now).rows, SameCounters j r) ∧
    ∀ r ∈ (scheduleWebhook kind jobs smsPk now).rows,
      (∃ j ∈ jobs.rows, SameCounters j r) ∨
      (r.pk = jobs.nextPk ∧ r.attempts = 0 ∧ (smsIdOf r.kind r).isSome = true ∧
        r.status = .pending) := by
  rcases scheduleWebhook_cases kind jobs smsPk now with
    ⟨h, he⟩ | ⟨i, hi, _, ⟨_, he⟩ | ⟨_, he⟩⟩
  · rw [he]
    refine ⟨Nat.le_succ _, ?_, ?_⟩
    · intro j hj
      exact ⟨j, List.mem_append_left _ hj, sameCounters_refl j⟩
    · intro r hr
      rcases List.mem_append.mp hr with hr | hr
      · exact Or.inl ⟨r, hr, sameCounters_refl r⟩
      · rw [List.mem_singleton.mp hr]
        refine Or.inr ⟨rfl, rfl, ?_, rfl⟩
        show (smsIdOf kind ((newJob kind smsPk now).make jobs.nextPk)).isSome = true
        rw [smsIdOf_newJob]
        rfl
  · rw [he]
    exact ⟨Nat.le_refl _, fun j hj => ⟨j, hj, sameCounters_refl j⟩,
      fun r hr => Or.inl ⟨r, hr, sameCounters_refl r⟩⟩
  · rw [he]
    have hset : ∀ j, SameCounters j ((saveStatus (toPending i) now).set j) := by
      intro j
      exact ⟨rfl, rfl, rfl, fun h => JobStatus.noConfusion h⟩
    refine ⟨Nat.le_refl _, ?_, ?_⟩
    · intro j hj
      refine ⟨_, Table.mem_update_of_mem hj i.pk (saveStatus (toPending i) now), ?_⟩
      split
      · exact hset j
      · exact sameCounters_refl j
    · intro r hr
      obtain ⟨j, hj, _, rfl⟩ | ⟨hr, _⟩ := Table.mem_update.mp hr
      · exact Or.inl ⟨j, hj, hset j⟩
      · exact Or.inl ⟨r, hr, sameCounters_refl r⟩

/-! ## One action -/

/-- A counter is ahead of the log. -/
def Ahead (s : WorkerLog) : Prop := ∃ j ∈ s.jobs.rows, s.calls.count j.pk < j.attempts

theorem truthful_iff {env : WebhookEnv} {s : WorkerLog} (h : WellLogged env s) :
    Truthful env s ↔ ¬ Ahead s := by
  constructor
  · intro ht hahead
    obtain ⟨j, hj, hlt⟩ := hahead
    have := ht.attempts j hj
    omega
  · intro hnot
    have heq : ∀ j ∈ s.jobs.rows, j.attempts = s.calls.count j.pk := by
      intro j hj
      have hle := h.behind j hj
      by_contra hne
      exact hnot ⟨j, hj, by omega⟩
    refine ⟨heq, ?_⟩
    intro j hj hf
    rw [h.invoked, ← heq j hj]
    exact h.failed j hj hf

/-- What an action does to the log and to the counters. -/
structure LogSpec (env : WebhookEnv) (cfg : SqliteSettings) (s t : WorkerLog)
    (a : WorkerAction) : Prop where
  wellLogged : WellLogged env t
  ahead : Ahead t ↔ Ahead s ∨ ¬ BumpsOnce cfg s a

theorem schedule_spec {env : WebhookEnv} {cfg : SqliteSettings} {s : WorkerLog}
    (hs : WellLogged env s) (kind : JobKind) (smsPk now : Nat) :
    LogSpec env cfg s { s with jobs := scheduleWebhook kind s.jobs smsPk now }
      (.schedule kind smsPk now) := by
  obtain ⟨hpk, hold, hnew⟩ := scheduleWebhook_counters kind s.jobs smsPk now
  -- the key of a new row is not in the log
  have hunused : s.calls.count s.jobs.nextPk = 0 := by
    apply List.count_eq_zero_of_not_mem
    intro hmem
    exact Nat.lt_irrefl _ (hs.known _ hmem)
  refine ⟨⟨?_, ?_, hs.invoked, ?_, ?_⟩, ?_⟩
  · intro r hr
    rcases hnew r hr with ⟨j, hj, hsame⟩ | ⟨_, _, hsms, _⟩
    · rw [hsame.sms]
      exact hs.hasSms j hj
    · exact hsms
  · intro p hp
    exact Nat.lt_of_lt_of_le (hs.known p hp) hpk
  · intro r hr
    rcases hnew r hr with ⟨j, hj, hsame⟩ | ⟨hr, _, _, _⟩
    · rw [hsame.pk, hsame.attempts]
      exact hs.behind j hj
    · rw [hr, hunused]
      exact Nat.zero_le _
  · intro r hr hf
    rcases hnew r hr with ⟨j, hj, hsame⟩ | ⟨_, _, _, hpending⟩
    · rw [hsame.attempts]
      exact hs.failed j hj (hsame.failed hf)
    · rw [hpending] at hf
      cases hf
  · have hok : BumpsOnce cfg s (.schedule kind smsPk now) := trivial
    simp only [hok, not_true_eq_false, or_false]
    constructor
    · intro h
      obtain ⟨r, hr, hlt⟩ := h
      rcases hnew r hr with ⟨j, hj, hsame⟩ | ⟨_, hzero, _, _⟩
      · rw [hsame.pk, hsame.attempts] at hlt
        exact ⟨j, hj, hlt⟩
      · rw [hzero] at hlt
        exact absurd hlt (Nat.not_lt_zero _)
    · intro h
      obtain ⟨j, hj, hlt⟩ := h
      obtain ⟨r, hr, hsame⟩ := hold j hj
      refine ⟨r, hr, ?_⟩
      rw [hsame.pk, hsame.attempts]
      exact hlt

theorem count_concat (l : List Nat) (p q : Nat) :
    (l ++ [p]).count q = l.count q + if q = p then 1 else 0 := by
  rw [List.count_append, List.count_singleton]
  by_cases h : q = p
  · simp [h]
  · simp [h, Ne.symm h]

section Iterate
variable {env : WebhookEnv} {s : WorkerLog} {job : WebhookDeliveryJob} {ok : Bool} {k : Nat}
  {u : RowUpdate WebhookDeliveryJob}

/-- A call that is processed to the end is in the log, and its row has the tries of its bump. -/
def WorkerLog.processed (s : WorkerLog) (job : WebhookDeliveryJob)
    (u : RowUpdate WebhookDeliveryJob) : WorkerLog :=
  ⟨s.jobs.update job.pk u, s.calls ++ [job.pk], s.invoked ++ [job.pk]⟩

theorem Processed.sms {r : WebhookDeliveryJob} (hp : Processed env job r ok k) :
    smsIdOf r.kind r = smsIdOf job.kind job := by
  rw [hp.kind]
  unfold smsIdOf
  rw [hp.inboundSmsId, hp.outboundSmsId]

/-- A job ends FAILED only when its counter has reached the maximum. -/
theorem Processed.max_le {r : WebhookDeliveryJob} (hp : Processed env job r ok k)
    (hf : r.status = .failed) : env.maxAttempts ≤ r.attempts := by
  rw [hp.status] at hf
  rw [hp.attempts]
  rcases finalStatus_cases env (job.attempts + k) ok with hst | ⟨_, hmax⟩ | ⟨hst, _⟩
  · rw [hst] at hf
    cases hf
  · exact hmax
  · rw [hst] at hf
    cases hf

theorem wellLogged_processed (hs : WellLogged env s) (hj : job ∈ s.jobs.rows)
    (hp : Processed env job (u.set job) ok (k + 1)) : WellLogged env (s.processed job u) := by
  have hrow : ∀ {r}, r ∈ (s.jobs.update job.pk u).rows ↔
      r = u.set job ∨ (r ∈ s.jobs.rows ∧ r.pk ≠ job.pk) := Table.mem_update_self hj
  refine ⟨?_, ?_, ?_, ?_, ?_⟩
  · intro r hr
    rcases hrow.mp hr with rfl | ⟨hr, _⟩
    · rw [hp.sms]
      exact hs.hasSms job hj
    · exact hs.hasSms r hr
  · intro p hmem
    rcases List.mem_append.mp hmem with hmem | hmem
    · exact hs.known p hmem
    · rw [List.mem_singleton.mp hmem]
      exact s.jobs.pk_lt job hj
  · intro p
    show (s.invoked ++ [job.pk]).count p = (s.calls ++ [job.pk]).count p
    rw [count_concat, count_concat, hs.invoked]
  · intro r hr
    show (s.calls ++ [job.pk]).count r.pk ≤ r.attempts
    rw [count_concat]
    rcases hrow.mp hr with rfl | ⟨hr, hne⟩
    · have hle := hs.behind job hj
      rw [hp.pk, hp.attempts, if_pos rfl]
      omega
    · rw [if_neg hne, Nat.add_zero]
      exact hs.behind r hr
  · intro r hr hf
    rcases hrow.mp hr with rfl | ⟨hr, _⟩
    · exact hp.max_le hf
    · exact hs.failed r hr hf

/-- Every try of the bump but the one that is saved puts the counter ahead. -/
theorem ahead_processed (hs : WellLogged env s) (hj : job ∈ s.jobs.rows)
    (hp : Processed env job (u.set job) ok (k + 1)) :
    Ahead (s.processed job u) ↔ Ahead s ∨ ¬ k = 0 := by
  have hrow : ∀ {r}, r ∈ (s.jobs.update job.pk u).rows ↔
      r = u.set job ∨ (r ∈ s.jobs.rows ∧ r.pk ≠ job.pk) := Table.mem_update_self hj
  have hown : (s.calls ++ [job.pk]).count (u.set job).pk < (u.set job).attempts ↔
      s.calls.count job.pk < job.attempts + k := by
    rw [count_concat, hp.pk, hp.attempts, if_pos rfl]
    omega
  have hother : ∀ {r : WebhookDeliveryJob}, r.pk ≠ job.pk →
      (s.calls ++ [job.pk]).count r.pk = s.calls.count r.pk := by
    intro r hne
    rw [count_concat, if_neg hne, Nat.add_zero]
  constructor
  · intro hahead
    obtain ⟨r, hr, hlt⟩ := hahead
    have hlt : (s.calls ++ [job.pk]).count r.pk < r.attempts := hlt
    rcases hrow.mp hr with rfl | ⟨hr, hne⟩
    · rw [hown] at hlt
      by_cases hzero : k = 0
      · exact Or.inl ⟨job, hj, by omega⟩
      · exact Or.inr hzero
    · rw [hother hne] at hlt
      exact Or.inl ⟨r, hr, hlt⟩
  · intro hahead
    rcases hahead with ⟨r, hr, hlt⟩ | hpos
    · by_cases hne : r.pk = job.pk
      · obtain rfl := s.jobs.pk_injOn hr hj hne
        exact ⟨u.set r, hrow.mpr (Or.inl rfl), hown.mpr (by omega)⟩
      · refine ⟨r, hrow.mpr (Or.inr ⟨hr, hne⟩), ?_⟩
        show (s.calls ++ [job.pk]).count r.pk < r.attempts
        rw [hother hne]
        exact hlt
    · have hle := hs.behind job hj
      exact ⟨u.set job, hrow.mpr (Or.inl rfl), hown.mpr (by omega)⟩

end Iterate

/-- A call that is processed to the end is counted once for each try of its bump. -/
theorem iterate_spec {env : WebhookEnv} {cfg : SqliteSettings} {s t : WorkerLog}
    {pass : WorkerPass} (hs : WellLogged env s) (hdom : OnlyAbsorbed cfg s (.iterate pass))
    (h : workerLogStep env cfg s (.iterate pass) = some t) :
    LogSpec env cfg s t (.iterate pass) := by
  obtain ⟨_, hrel, hreads⟩ := hdom
  by_cases hclaims : ∃ job, Claims cfg s.jobs pass job
  · obtain ⟨job, hc⟩ := hclaims
    have hj := (oldestPending_mem hc.2).1
    obtain ⟨k, u, hk, he, hp⟩ := workerIteration_released env hc hrel
    have hinvokes : Invokes cfg pass (claimedCopy job) := ⟨hrel.1, hs.hasSms job hj, hreads⟩
    simp only [workerLogStep, he, claimedCopy_pk, if_pos hinvokes, Option.some.injEq] at h
    subst h
    have hbumps : BumpsOnce cfg s (.iterate pass) ↔ k = 0 :=
      ⟨fun h => hk.mp (h ⟨job, hc⟩), fun h _ => hk.mpr h⟩
    refine ⟨wellLogged_processed hs hj hp, ?_⟩
    rw [hbumps]
    exact ahead_processed hs hj hp
  · have hnone : workerIteration env cfg s.jobs pass = (s.jobs, none) := by
      rcases workerIteration_cases env cfg s.jobs pass with ⟨_, he⟩ | ⟨job, _, hc, _⟩
      · exact he
      · exact absurd ⟨job, hc⟩ hclaims
    simp only [workerLogStep, hnone, Option.some.injEq] at h
    subst h
    refine ⟨hs, ?_⟩
    have hok : BumpsOnce cfg s (.iterate pass) := fun h => absurd h hclaims
    simp only [hok, not_true_eq_false, or_false]

theorem workerLogStep_spec {env : WebhookEnv} {cfg : SqliteSettings} {s t : WorkerLog}
    {a : WorkerAction} (hs : WellLogged env s) (hdom : OnlyAbsorbed cfg s a)
    (h : workerLogStep env cfg s a = some t) : LogSpec env cfg s t a := by
  cases a with
  | schedule kind smsPk now =>
    cases h
    exact schedule_spec hs kind smsPk now
  | iterate pass => exact iterate_spec hs hdom h

/-! ## Runs -/

/-- The attempts that are stored for a job. -/
def storedAttempts (jobs : JobTable) (p : Nat) : Option Nat :=
  (jobs.get? p).map WebhookDeliveryJob.attempts

/-- One call counts as one exactly when the first save of its bump goes through. -/
theorem storedAttempts_iff {env : WebhookEnv} {cfg : SqliteSettings} {jobs : JobTable}
    {pass : WorkerPass} {job : WebhookDeliveryJob} (hc : Claims cfg jobs pass job)
    (hr : Releases cfg pass) :
    storedAttempts (workerIteration env cfg jobs pass).1 job.pk = some (job.attempts + 1) ↔
      (pass.bump 0).fault = none := by
  obtain ⟨k, u, hk, he, hp⟩ := workerIteration_released env hc hr
  have hj := (oldestPending_mem hc.2).1
  have hget : (jobs.update job.pk u).get? job.pk = some (u.set job) := by
    apply Table.get?_eq_some.mpr
    exact ⟨(Table.mem_update_self hj).mpr (Or.inl rfl), u.pk_set job⟩
  rw [he, hk]
  show ((jobs.update job.pk u).get? job.pk).map _ = _ ↔ _
  rw [hget, Option.map_some, Option.some.injEq, hp.attempts]
  omega

/-- In a run of a worker whose database errors are all absorbed, a call raises the counter of
    its job by one exactly when no lock error hits inside its bump, and the counters tell the
    truth at the end exactly when that was so in every call. -/
theorem attempts_truthful_iff {env : WebhookEnv} {cfg : SqliteSettings} {s t : WorkerLog}
    {actions : List WorkerAction} (hs : WellLogged env s) (htrue : Truthful env s)
    (hdom : Meets (workerLogStep env cfg) (OnlyAbsorbed cfg) s actions)
    (h : exec (workerLogStep env cfg) s actions = some t) :
    (∀ pass job, Claims cfg t.jobs pass job → Releases cfg pass →
      (storedAttempts (workerIteration env cfg t.jobs pass).1 job.pk = some (job.attempts + 1) ↔
        (pass.bump 0).fault = none)) ∧
    (Truthful env t ↔ Meets (workerLogStep env cfg) (BumpsOnce cfg) s actions) := by
  refine ⟨fun pass job hc hr => storedAttempts_iff hc hr, ?_⟩
  have hreach : Reaches (workerLogStep env cfg) (OnlyAbsorbed cfg) s t := ⟨actions, hdom, h⟩
  have hwell : WellLogged env t :=
    hreach.invariant (fun s a t hs hd hstep => (workerLogStep_spec hs hd hstep).wellLogged) hs
  have hahead : Ahead t ↔ Ahead s ∨ ¬ Meets (workerLogStep env cfg) (BumpsOnce cfg) s actions := by
    refine exec_latch_within (I := WellLogged env) ?_ ?_ hs hdom h
    · exact fun s a t hs hd hstep => (workerLogStep_spec hs hd hstep).wellLogged
    · exact fun s a t hs hd hstep => (workerLogStep_spec hs hd hstep).ahead
  have hstart : ¬ Ahead s := (truthful_iff hs).mp htrue
  rw [truthful_iff hwell, hahead, not_or, not_not]
  exact and_iff_right hstart

/-- One lock error inside the bump, and a single call counts as two. -/
theorem attempts_can_run_ahead :
    ¬ ∀ (env : WebhookEnv) (cfg : SqliteSettings) (s t : WorkerLog) (actions : List WorkerAction),
      WellLogged env s → Truthful env s →
      Meets (workerLogStep env cfg) (OnlyAbsorbed cfg) s actions →
      exec (workerLogStep env cfg) s actions = some t → Truthful env t := by
  intro h
  have hwell : WellLogged defaultEnv ⟨onePendingJob, [], []⟩ :=
    wellLogged_start (by decide) (by decide)
  have htrue : Truthful defaultEnv ⟨onePendingJob, [], []⟩ := ⟨by decide, by decide⟩
  have hrun : (execIf (workerLogStep defaultEnv defaultSqlite) (OnlyAbsorbed defaultSqlite)
      ⟨onePendingJob, [], []⟩ [.iterate { lockedPass with bump := lockedTries 1 }]).map
      (fun t => (t.jobs.rows.map (fun j => (j.pk, j.attempts)), t.calls)) =
        some ([(1, 2)], [1]) := by decide
  obtain ⟨t, ht, hshape⟩ := Option.map_eq_some_iff.mp hrun
  have hfinal := h _ _ _ t _ hwell htrue (meets_of_execIf ht) (exec_of_execIf ht)
  obtain ⟨hrows, hcalls⟩ := Prod.mk.inj hshape
  have hmem : (1, 2) ∈ t.jobs.rows.map (fun j => (j.pk, j.attempts)) := by
    rw [hrows]
    exact List.mem_singleton_self _
  obtain ⟨j, hj, hpair⟩ := List.mem_map.mp hmem
  obtain ⟨hpk, hatt⟩ := Prod.mk.inj hpair
  have hone := hfinal.attempts j hj
  rw [hcalls, hpk, hatt] at hone
  exact absurd hone (by decide)

/-- A new job that is delivered at the second call, with lock errors in the final saves only. -/
theorem attempts_truthful_iff_two_calls :
    ∃ t, exec (workerLogStep defaultEnv defaultSqlite) ⟨Table.empty, [], []⟩
        [.schedule .inbound 7 0,
          .iterate { lockedPass with bump := cleanTries, delivery := .returned false },
          .iterate { lockedPass with bump := cleanTries, finalize := lockedTries 2 }] = some t ∧
      (Truthful defaultEnv t ↔ Meets (workerLogStep defaultEnv defaultSqlite)
        (BumpsOnce defaultSqlite) ⟨Table.empty, [], []⟩
        [.schedule .inbound 7 0,
          .iterate { lockedPass with bump := cleanTries, delivery := .returned false },
          .iterate { lockedPass with bump := cleanTries, finalize := lockedTries 2 }]) := by
  have hwell : WellLogged defaultEnv ⟨Table.empty, [], []⟩ :=
    wellLogged_start (by decide) (by decide)
  have htrue : Truthful defaultEnv ⟨Table.empty, [], []⟩ := ⟨by decide, by decide⟩
  have hrun : (execIf (workerLogStep defaultEnv defaultSqlite) (OnlyAbsorbed defaultSqlite)
      ⟨Table.empty, [], []⟩ [.schedule .inbound 7 0,
          .iterate { lockedPass with bump := cleanTries, delivery := .returned false },
          .iterate { lockedPass with bump := cleanTries, finalize := lockedTries 2 }]).map
      (fun t => t.jobs.rows.map WebhookDeliveryJob.status) = some [.delivered] := by decide
  obtain ⟨t, ht, _⟩ := Option.map_eq_some_iff.mp hrun
  have he := exec_of_execIf ht
  exact ⟨t, he, (attempts_truthful_iff hwell htrue (meets_of_execIf ht) he).2⟩

end HiWaveTel
