import HiWaveTel.WebhookWorker
import Mathlib.Algebra.BigOperators.Group.List.Basic
import Mathlib.Algebra.GroupWithZero.Nat
import Mathlib.Data.Nat.Find

/- The outbox under a single worker when nothing is scheduled, nothing is deleted and the
   database raises no errors. A job whose delivery fails is PENDING again and, being the
   oldest, claimed again at once: `callsLeft` bounds how often. What a failed delivery was,
   an exception or a refused POST, makes no difference to the table.

   `outbox_drains` — for every stream of delivery outcomes the worker finds nothing to
   claim after at most `callsToDrain` calls, every job that was PENDING has got its final
   status, each before the next one in the order of (created_at, pk), and the other rows
   are what they were. -/
namespace HiWaveTel
open Foundation

/-- One iteration of the worker, without database errors. -/
structure CleanPass where
  delivery : Delivery
  claimedAt : Nat
  bumpedAt : Nat
  finalizedAt : Nat

def CleanPass.toPass (p : CleanPass) : WorkerPass :=
  { claim := fun _ => ⟨none, p.claimedAt⟩, bump := fun _ => ⟨none, p.bumpedAt⟩,
    delivery := p.delivery, finalize := fun _ => ⟨none, p.finalizedAt⟩ }

section Drain
variable (env : WebhookEnv) (cfg : SqliteSettings) (passes : Nat → CleanPass) (jobs : JobTable)

/-- The job table after `n` iterations. -/
def drain : Nat → JobTable
  | 0 => jobs
  | n + 1 => (workerIteration env cfg (drain n) (passes n).toPass).1

/-- How many more calls a PENDING job can need; a negative WEBHOOK_JOB_MAX_ATTEMPTS compares
    like 0. -/
def callsLeft (job : WebhookDeliveryJob) : Nat := max 1 (env.maxAttempts - job.attempts)

/-- How many calls the table can need. -/
def callsToDrain : Nat :=
  ((jobs.rows.filter (fun j => j.status == .pending)).map (callsLeft env)).sum

end Drain

/-- `.order_by('created_at', 'pk')`. -/
def claimOrder (job : WebhookDeliveryJob) : Nat ×ₗ Nat := toLex (job.createdAt, job.pk)

/-- DELIVERED or FAILED. -/
def JobStatus.isFinal : JobStatus → Prop
  | .delivered | .failed => True
  | .pending | .processing => False

/-- The job `p` has its final status. -/
def Finished (p : Nat) (jobs : JobTable) : Prop := ∃ r ∈ jobs.rows, r.pk = p ∧ r.status.isFinal

/-! ## One iteration -/

theorem getsThrough_of_clean {cfg : SqliteSettings} {tries : Nat → DbTry}
    (h : (tries 0).fault = none) : GetsThrough cfg tries :=
  ⟨0, cfg.retries_pos, h, fun j hj => absurd hj (Nat.not_lt_zero j)⟩

theorem releases_toPass (cfg : SqliteSettings) (p : CleanPass) : Releases cfg p.toPass :=
  ⟨getsThrough_of_clean rfl, getsThrough_of_clean rfl⟩

theorem claims_toPass {cfg : SqliteSettings} {jobs : JobTable} {p : CleanPass}
    {job : WebhookDeliveryJob} : Claims cfg jobs p.toPass job ↔ oldestPending jobs = some job :=
  and_iff_right (getsThrough_of_clean rfl)

/-- An iteration finds nothing to claim, or processes the oldest pending job. -/
theorem cleanIteration_cases (env : WebhookEnv) (cfg : SqliteSettings) (jobs : JobTable)
    (p : CleanPass) :
    (oldestPending jobs = none ∧ workerIteration env cfg jobs p.toPass = (jobs, none)) ∨
    (∃ job u ok, oldestPending jobs = some job ∧
      workerIteration env cfg jobs p.toPass = (jobs.update job.pk u, some (claimedCopy job)) ∧
      Processed env job (u.set job) ok 1) := by
  cases hold : oldestPending jobs with
  | none =>
    rcases workerIteration_cases env cfg jobs p.toPass with ⟨_, he⟩ | ⟨job, _, hc, _⟩
    · exact Or.inl ⟨rfl, he⟩
    · rw [claims_toPass, hold] at hc
      cases hc
  | some job =>
    obtain ⟨k, u, hk, he, hp⟩ := workerIteration_released env
      (claims_toPass.mpr hold) (releases_toPass cfg p)
    have hzero : k = 0 := hk.mp rfl
    rw [hzero] at hp
    exact Or.inr ⟨job, u, _, rfl, he, hp⟩

/-! ## The measure -/

/-- A sum over a table whose one row changes. -/
theorem sum_update {jobs : JobTable} {job : WebhookDeliveryJob} (hj : job ∈ jobs.rows)
    (u : RowUpdate WebhookDeliveryJob) (f : WebhookDeliveryJob → Nat) :
    ((jobs.update job.pk u).rows.map f).sum + f job = (jobs.rows.map f).sum + f (u.set job) := by
  obtain ⟨before, after, hrows⟩ := List.append_of_mem hj
  have hpk := jobs.pk_ne
  rw [hrows, List.pairwise_append, List.pairwise_cons] at hpk
  obtain ⟨_, ⟨hafter, _⟩, hbefore⟩ := hpk
  have hothers : ∀ l : List WebhookDeliveryJob, (∀ r ∈ l, r.pk ≠ job.pk) →
      l.map (fun r => if Row.pk r == job.pk then u.set r else r) = l := by
    intro l hl
    refine (List.map_congr_left ?_).trans (List.map_id l)
    intro r hr
    simp [hl r hr]
  have hb := hothers before (fun r hr => hbefore r hr job (by simp))
  have ha := hothers after (fun r hr => (hafter r hr).symm)
  show ((jobs.rows.map _).map f).sum + f job = _
  rw [hrows, List.map_append, List.map_cons, hb, ha]
  simp only [List.map_append, List.map_cons, List.sum_append, List.sum_cons, job_pk, beq_self_eq_true,
    if_true]
  omega

/-- What a row adds to `callsToDrain`. -/
def weight (env : WebhookEnv) (job : WebhookDeliveryJob) : Nat :=
  if job.status = .pending then callsLeft env job else 0

theorem callsToDrain_eq (env : WebhookEnv) (jobs : JobTable) :
    callsToDrain env jobs = (jobs.rows.map (weight env)).sum := by
  unfold callsToDrain
  induction jobs.rows with
  | nil => rfl
  | cons j rows ih =>
    by_cases hs : j.status = .pending
    · rw [List.filter_cons_of_pos (by simpa using hs), List.map_cons, List.sum_cons, ih,
        List.map_cons, List.sum_cons, weight, if_pos hs]
    · rw [List.filter_cons_of_neg (by simpa using hs), ih, List.map_cons, List.sum_cons, weight,
        if_neg hs, Nat.zero_add]

theorem weight_processed {env : WebhookEnv} {job r : WebhookDeliveryJob} {ok : Bool}
    (hs : job.status = .pending) (hp : Processed env job r ok 1) :
    weight env r + 1 ≤ weight env job := by
  have hjob : weight env job = max 1 (env.maxAttempts - job.attempts) := by
    rw [weight, if_pos hs, callsLeft]
  have hr : weight env r = if finalStatus env (job.attempts + 1) ok = .pending then
      max 1 (env.maxAttempts - (job.attempts + 1)) else 0 := by
    rw [weight, callsLeft, hp.status, hp.attempts]
  rw [hjob, hr]
  rcases finalStatus_cases env (job.attempts + 1) ok with hst | ⟨hst, _⟩ | ⟨hst, hlt⟩
  · rw [hst, if_neg JobStatus.noConfusion]
    omega
  · rw [hst, if_neg JobStatus.noConfusion]
    omega
  · rw [hst, if_pos rfl]
    omega

/-- Each call takes at least one off. -/
theorem callsToDrain_step {env : WebhookEnv} {cfg : SqliteSettings} {jobs : JobTable}
    {p : CleanPass} (h : oldestPending jobs ≠ none) :
    callsToDrain env (workerIteration env cfg jobs p.toPass).1 + 1 ≤ callsToDrain env jobs := by
  rcases cleanIteration_cases env cfg jobs p with ⟨hnone, _⟩ | ⟨job, u, ok, hold, he, hp⟩
  · exact absurd hnone h
  · obtain ⟨hj, hs⟩ := oldestPending_mem hold
    have hsum := sum_update hj u (weight env)
    have hw := weight_processed hs hp
    rw [he, callsToDrain_eq, callsToDrain_eq]
    show ((jobs.update job.pk u).rows.map (weight env)).sum + 1 ≤ _
    omega

/-- As long as there is something to claim, the calls made are calls the table needed. -/
theorem callsToDrain_drain (env : WebhookEnv) (cfg : SqliteSettings) (passes : Nat → CleanPass)
    (jobs : JobTable) {n : Nat} (h : ∀ m < n, oldestPending (drain env cfg passes jobs m) ≠ none) :
    callsToDrain env (drain env cfg passes jobs n) + n ≤ callsToDrain env jobs := by
  induction n with
  | zero => exact Nat.le_refl _
  | succ n ih =>
    have hstep : callsToDrain env (drain env cfg passes jobs (n + 1)) + 1 ≤
        callsToDrain env (drain env cfg passes jobs n) := callsToDrain_step (h n (Nat.lt_succ_self n))
    have hbefore := ih (fun m hm => h m (Nat.lt_succ_of_lt hm))
    omega

/-! ## The rows -/

/-- What has become of a job that was PENDING. -/
def Follows (env : WebhookEnv) (j : WebhookDeliveryJob) (t : JobTable) : Prop :=
  ∃ r ∈ t.rows, r.pk = j.pk ∧ r.createdAt = j.createdAt ∧
    (r.status = .pending ∨ r.status = .delivered ∨
      (r.status = .failed ∧ env.maxAttempts ≤ r.attempts))

/-- A row that is not PENDING is left alone. -/
theorem mem_cleanIteration {env : WebhookEnv} {cfg : SqliteSettings} {jobs : JobTable}
    {p : CleanPass} {j : WebhookDeliveryJob} (hj : j ∈ jobs.rows) (hs : j.status ≠ .pending) :
    j ∈ (workerIteration env cfg jobs p.toPass).1.rows := by
  rcases cleanIteration_cases env cfg jobs p with ⟨_, he⟩ | ⟨job, u, ok, hold, he, _⟩
  · rw [he]
    exact hj
  · obtain ⟨hjob, hpending⟩ := oldestPending_mem hold
    rw [he]
    refine (Table.mem_update_self hjob).mpr (Or.inr ⟨hj, ?_⟩)
    intro hpk
    rw [jobs.pk_injOn hj hjob hpk] at hs
    exact hs hpending

theorem follows_cleanIteration {env : WebhookEnv} {cfg : SqliteSettings} {t : JobTable}
    {p : CleanPass} {j : WebhookDeliveryJob} (h : Follows env j t) :
    Follows env j (workerIteration env cfg t p.toPass).1 := by
  obtain ⟨r, hr, hpk, hcreated, hst⟩ := h
  rcases cleanIteration_cases env cfg t p with ⟨_, he⟩ | ⟨job, u, ok, hold, he, hp⟩
  · rw [he]
    exact ⟨r, hr, hpk, hcreated, hst⟩
  · have hjob := (oldestPending_mem hold).1
    rw [he]
    by_cases hclaimed : r.pk = job.pk
    · have hsame : r = job := t.pk_injOn hr hjob hclaimed
      subst hsame
      refine ⟨u.set r, (Table.mem_update_self hr).mpr (Or.inl rfl), hp.pk.trans hpk,
        hp.createdAt.trans hcreated, ?_⟩
      rw [hp.status, hp.attempts]
      rcases finalStatus_cases env (r.attempts + 1) ok with h | h | h
      · exact Or.inr (Or.inl h)
      · exact Or.inr (Or.inr h)
      · exact Or.inl h.1
    · exact ⟨r, (Table.mem_update_self hjob).mpr (Or.inr ⟨hr, hclaimed⟩), hpk, hcreated, hst⟩

section Runs
variable {env : WebhookEnv} {cfg : SqliteSettings} {passes : Nat → CleanPass} {jobs : JobTable}

theorem mem_drain {j : WebhookDeliveryJob} (hj : j ∈ jobs.rows) (hs : j.status ≠ .pending)
    (n : Nat) : j ∈ (drain env cfg passes jobs n).rows := by
  induction n with
  | zero => exact hj
  | succ n ih => exact mem_cleanIteration ih hs

theorem follows_drain {j : WebhookDeliveryJob} (hj : j ∈ jobs.rows) (hs : j.status = .pending)
    (n : Nat) : Follows env j (drain env cfg passes jobs n) := by
  induction n with
  | zero => exact ⟨j, hj, rfl, rfl, Or.inl hs⟩
  | succ n ih => exact follows_cleanIteration ih

/-- A final status stays. -/
theorem finished_cleanIteration {t : JobTable} {p : CleanPass} {q : Nat} (h : Finished q t) :
    Finished q (workerIteration env cfg t p.toPass).1 := by
  obtain ⟨r, hr, hpk, hfinal⟩ := h
  refine ⟨r, mem_cleanIteration hr ?_, hpk, hfinal⟩
  intro hpending
  rw [hpending] at hfinal
  exact hfinal

/-- A call gives a final status to no job but the oldest pending one. -/
theorem finished_step {t : JobTable} {p : CleanPass} {q : Nat}
    (h : Finished q (workerIteration env cfg t p.toPass).1) :
    Finished q t ∨ ∃ job, oldestPending t = some job ∧ job.pk = q := by
  rcases cleanIteration_cases env cfg t p with ⟨_, he⟩ | ⟨job, u, ok, hold, he, hp⟩
  · rw [he] at h
    exact Or.inl h
  · rw [he] at h
    obtain ⟨r, hr, hpk, hfinal⟩ := h
    rcases (Table.mem_update_self (oldestPending_mem hold).1).mp hr with rfl | ⟨hr, _⟩
    · exact Or.inr ⟨job, hold, hp.pk.symm.trans hpk⟩
    · exact Or.inl ⟨r, hr, hpk, hfinal⟩

theorem not_finished_of_pending {t : JobTable} {j : WebhookDeliveryJob} (hj : j ∈ t.rows)
    (hs : j.status = .pending) : ¬ Finished j.pk t := by
  intro h
  obtain ⟨r, hr, hpk, hfinal⟩ := h
  rw [t.pk_injOn hr hj hpk, hs] at hfinal
  exact hfinal

/-- When the oldest pending job is not older than `a`, a job that was PENDING has finished. -/
theorem finished_of_older {a b job : WebhookDeliveryJob} {t : JobTable}
    (ha : Follows env a t) (hb : Follows env b t) (hold : oldestPending t = some job)
    (hjob : job.pk = b.pk) (hlt : claimOrder a < claimOrder b) : Finished a.pk t := by
  obtain ⟨r, hr, hpk, hcreated, hst⟩ := ha
  obtain ⟨s, hs, hspk, hscreated, _⟩ := hb
  have hsame : s = job := t.pk_injOn hs (oldestPending_mem hold).1 (hspk.trans hjob.symm)
  subst hsame
  have hkeys : claimOrder r = claimOrder a ∧ claimOrder s = claimOrder b := by
    unfold claimOrder
    rw [hpk, hcreated, hspk, hscreated]
    exact ⟨rfl, rfl⟩
  rcases hst with hst | hst | ⟨hst, _⟩
  · -- an older pending job would have been claimed first
    have hmem : r ∈ t.rows.filter (fun j => j.status == .pending) :=
      List.mem_filter.mpr ⟨hr, by simpa using hst⟩
    have hmin := List.not_lt_of_mem_argmin hmem (Option.mem_def.mpr hold)
    have hlt : claimOrder r < claimOrder s := by rw [hkeys.1, hkeys.2]; exact hlt
    exact absurd hlt hmin
  · exact ⟨r, hr, hpk, by rw [hst]; trivial⟩
  · exact ⟨r, hr, hpk, by rw [hst]; trivial⟩

/-- A job has finished before the next one in the order does. -/
theorem finished_in_order {a b : WebhookDeliveryJob} (ha : a ∈ jobs.rows)
    (hsa : a.status = .pending) (hb : b ∈ jobs.rows) (hsb : b.status = .pending)
    (hlt : claimOrder a < claimOrder b) {n : Nat}
    (h : Finished b.pk (drain env cfg passes jobs (n + 1))) :
    Finished a.pk (drain env cfg passes jobs n) := by
  induction n with
  | zero =>
    rcases finished_step h with h | ⟨job, hold, hpk⟩
    · exact absurd h (not_finished_of_pending hb hsb)
    · exact finished_of_older (follows_drain ha hsa 0) (follows_drain hb hsb 0) hold hpk hlt
  | succ n ih =>
    rcases finished_step h with h | ⟨job, hold, hpk⟩
    · exact finished_cleanIteration (ih h)
    · exact finished_of_older (follows_drain ha hsa _) (follows_drain hb hsb _) hold hpk hlt

end Runs

/-! ## The outbox drains -/

theorem oldestPending_eq_none {jobs : JobTable} :
    oldestPending jobs = none ↔ ∀ j ∈ jobs.rows, j.status ≠ .pending := by
  unfold oldestPending
  rw [List.argmin_eq_none, List.filter_eq_nil_iff]
  simp

/-- The worker finds nothing to claim after at most `callsToDrain` calls. -/
theorem exists_drained (env : WebhookEnv) (cfg : SqliteSettings) (passes : Nat → CleanPass)
    (jobs : JobTable) :
    ∃ n ≤ callsToDrain env jobs, oldestPending (drain env cfg passes jobs n) = none ∧
      ∀ m < n, oldestPending (drain env cfg passes jobs m) ≠ none := by
  have hex : ∃ n, oldestPending (drain env cfg passes jobs n) = none := by
    by_contra hnever
    have hbound := callsToDrain_drain env cfg passes jobs (n := callsToDrain env jobs + 1)
      (fun m _ hm => hnever ⟨m, hm⟩)
    omega
  have hbefore : ∀ m < Nat.find hex, oldestPending (drain env cfg passes jobs m) ≠ none :=
    fun m hm => Nat.find_min hex hm
  refine ⟨Nat.find hex, ?_, Nat.find_spec hex, hbefore⟩
  have hbound := callsToDrain_drain env cfg passes jobs hbefore
  omega

/-- A single worker without schedule calls, deletions and database errors drains the outbox:
    after `n` calls of `process_webhook_job`, no more than the table needed, `claim_next_job`
    returns None; every job that was PENDING is DELIVERED, or FAILED with all its attempts
    used; the other rows have not been touched at any time; and the jobs finish one after the
    other in the order of (created_at, pk). -/
theorem outbox_drains (env : WebhookEnv) (cfg : SqliteSettings) (passes : Nat → CleanPass)
    (jobs : JobTable) :
    (∃ n ≤ callsToDrain env jobs,
      (∀ m < n, (workerIteration env cfg (drain env cfg passes jobs m) (passes m).toPass).2 ≠ none) ∧
      (∀ now, (claimNextJob (drain env cfg passes jobs n) now).2 = none) ∧
      ∀ j ∈ jobs.rows, j.status = .pending → ∃ r ∈ (drain env cfg passes jobs n).rows,
        r.pk = j.pk ∧ (r.status = .delivered ∨
          (r.status = .failed ∧ env.maxAttempts ≤ r.attempts))) ∧
    (∀ n, ∀ j ∈ jobs.rows, j.status ≠ .pending → j ∈ (drain env cfg passes jobs n).rows) ∧
    (∀ n, ∀ a ∈ jobs.rows, a.status = .pending → ∀ b ∈ jobs.rows, b.status = .pending →
      claimOrder a < claimOrder b → Finished b.pk (drain env cfg passes jobs (n + 1)) →
      Finished a.pk (drain env cfg passes jobs n)) := by
  refine ⟨?_, fun n j hj hs => mem_drain hj hs n, ?_⟩
  · obtain ⟨n, hn, hnone, hbefore⟩ := exists_drained env cfg passes jobs
    refine ⟨n, hn, ?_, ?_, ?_⟩
    · intro m hm
      rcases cleanIteration_cases env cfg (drain env cfg passes jobs m) (passes m) with
        ⟨hno, _⟩ | ⟨job, u, ok, _, he, _⟩
      · exact absurd hno (hbefore m hm)
      · rw [he]
        exact Option.some_ne_none _
    · intro now
      unfold claimNextJob
      rw [hnone]
    · intro j hj hs
      have hfollows : Follows env j (drain env cfg passes jobs n) := follows_drain hj hs n
      obtain ⟨r, hr, hpk, _, hst⟩ := hfollows
      rcases hst with hst | hst
      · exact absurd hst (oldestPending_eq_none.mp hnone r hr)
      · exact ⟨r, hr, hpk, hst⟩
  · intro n a ha hsa b hb hsb hlt h
    exact finished_in_order ha hsa hb hsb hlt h

end HiWaveTel
