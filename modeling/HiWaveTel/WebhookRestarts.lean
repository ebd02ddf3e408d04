import HiWaveTel.OutboxInterleaving

/- The webhook worker over many lives (`run_webhook_worker.py`). The process can be killed
   between any two statements of its threads, and so can a process that schedules; the job
   table stays. Before the threads of a new life start, `reset_stale_processing_jobs` returns
   the PROCESSING jobs that are older than `WEBHOOK_JOB_STALE_SEC` to PENDING.

   What is proved:
     1. `jobs_survive_restarts` — when each restart comes later than that age after the end
        of the life before, every PROCESSING job of a running process is in the hands of a
        thread, unless a database error made one give it up in this life.
     2. `early_restart_strands` — a restart within that age leaves the job that was being
        processed PROCESSING, and in that life no thread ever takes it: only a schedule call
        for its message frees it. -/
namespace HiWaveTel
open Foundation

structure WorkerLives (ω κ : Type) where
  outbox : OutboxState ω κ
  running : Bool
  clock : Nat          -- the last reading
  endedAt : Nat        -- that of the end of the last life

inductive LifeAction (ω κ : Type) where
  | work (a : OutboxAction ω κ)
  | kill
  | killCaller (c : κ)
  | start (now : Nat)

/-- The clock reading that a step takes. -/
def OutboxAction.now? {ω κ : Type} : OutboxAction ω κ → Option Nat
  | .lookup _ _ _ now | .save _ now | .claim _ now | .bump _ now | .finalize _ now => some now
  | .read _ _ _ _ | .abort _ | .resetStale _ => none

/-- A thread claims only in a running process; the reset belongs to its start. -/
def OutboxAction.open {ω κ : Type} (running : Bool) : OutboxAction ω κ → Bool
  | .claim _ _ => running
  | .resetStale _ => false
  | _ => true

/-- `timezone.now() - timedelta(seconds=age)`; no row is older than time zero. -/
def staleCutoff (age : Int) (now : Nat) : Nat := ((now : Int) - age).toNat

section Step
variable {ω κ : Type} [DecidableEq ω] [DecidableEq κ]

def lifeStep (env : WebhookEnv) (age : Int) (s : WorkerLives ω κ) :
    LifeAction ω κ → Option (WorkerLives ω κ)
  | .work a =>
    if a.open s.running then
      (outboxStep env s.outbox a).map
        (fun outbox => { s with outbox, clock := a.now?.getD s.clock })
    else none
  -- its threads are gone, wherever they were
  | .kill =>
    if s.running then
      some { s with outbox := { s.outbox with worker := fun _ => .idle }
                    running := false, endedAt := s.clock }
    else none
  | .killCaller c => some { s with outbox := s.outbox.setCaller c .idle }
  | .start now =>
    if s.running then none
    else
      some { s with outbox := { s.outbox with
                      jobs := resetStaleProcessingJobs s.outbox.jobs (staleCutoff age now) }
                    running := true, clock := now }

/-- Before the first life, with any jobs that were there. -/
def WorkerLives.start (jobs : JobTable) (now : Nat) : WorkerLives ω κ :=
  ⟨.start jobs, false, now, now⟩

/-- Every way a step can go. -/
inductive LifeMove (env : WebhookEnv) (age : Int) (s : WorkerLives ω κ) :
    LifeAction ω κ → WorkerLives ω κ → Prop
  | work {a outbox} (hopen : a.open s.running = true) (hmove : OutboxMove env s.outbox a outbox) :
      LifeMove env age s (.work a) { s with outbox, clock := a.now?.getD s.clock }
  | kill (hrunning : s.running = true) :
      LifeMove env age s .kill
        { s with outbox := { s.outbox with worker := fun _ => .idle }
                 running := false, endedAt := s.clock }
  | killCaller {c} : LifeMove env age s (.killCaller c) { s with outbox := s.outbox.setCaller c .idle }
  | start {now} (hstopped : s.running = false) :
      LifeMove env age s (.start now)
        { s with outbox := { s.outbox with
                   jobs := resetStaleProcessingJobs s.outbox.jobs (staleCutoff age now) }
                 running := true, clock := now }

theorem lifeStep_cases {env : WebhookEnv} {age : Int} {s t : WorkerLives ω κ} {a : LifeAction ω κ}
    (h : lifeStep env age s a = some t) : LifeMove env age s a t := by
  cases a with
  | work a =>
    simp only [lifeStep] at h
    split at h
    · next hopen =>
      obtain ⟨outbox, houtbox, rfl⟩ := Option.map_eq_some_iff.mp h
      exact .work hopen (outboxStep_cases houtbox)
    · cases h
  | kill =>
    simp only [lifeStep] at h
    split at h
    · next hrunning => cases h; exact .kill hrunning
    · cases h
  | killCaller c => cases h; exact .killCaller
  | start now =>
    simp only [lifeStep] at h
    split at h
    · cases h
    · next hstopped => cases h; exact .start (Bool.not_eq_true _ ▸ hstopped)

end Step

/-! ## The PROCESSING rows after a statement -/

theorem processing_of_lookup {kind : JobKind} {jobs : JobTable} {smsPk now : Nat}
    {r : WebhookDeliveryJob} (hr : r ∈ (scheduleLookup kind jobs smsPk now).1.rows)
    (hst : r.status = .processing) : r ∈ jobs.rows := by
  unfold scheduleLookup at hr
  obtain ⟨_, _, he⟩ | ⟨_, he⟩ := jobs.getOrCreate_cases (newJob kind smsPk now)
  · rw [he] at hr
    exact hr
  · rw [he] at hr
    cases List.mem_append.mp hr with
    | inl hold => exact hold
    | inr hnew =>
      rw [List.mem_singleton.mp hnew] at hst
      cases hst

/-- An UPDATE by key that writes another status. -/
theorem processing_of_update {jobs : JobTable} {p : Nat} {u : RowUpdate WebhookDeliveryJob}
    (hu : ∀ j, (u.set j).status ≠ .processing) {r : WebhookDeliveryJob}
    (hr : r ∈ (jobs.update p u).rows) (hst : r.status = .processing) :
    r ∈ jobs.rows ∧ r.pk ≠ p := by
  obtain ⟨j, _, _, rfl⟩ | hold := Table.mem_update.mp hr
  · exact absurd hst (hu j)
  · exact hold

theorem processing_of_scheduleSave {jobs : JobTable} {job : WebhookDeliveryJob} {created : Bool}
    {now : Nat} {r : WebhookDeliveryJob} (hr : r ∈ (scheduleSave jobs job created now).rows)
    (hst : r.status = .processing) : r ∈ jobs.rows := by
  unfold scheduleSave at hr
  split at hr
  · exact (processing_of_update (fun _ => JobStatus.noConfusion) hr hst).1
  · exact hr

theorem processing_of_finalizeSave {env : WebhookEnv} {jobs : JobTable} {job : WebhookDeliveryJob}
    {ok : Bool} {now : Nat} {r : WebhookDeliveryJob}
    (hr : r ∈ (finalizeSave env jobs job ok now).rows) (hst : r.status = .processing) :
    r ∈ jobs.rows ∧ r.pk ≠ job.pk := by
  have hwrites : ∀ j, ((if ok then saveDelivered (finalized env job ok now) now
      else saveStatus (finalized env job ok now) now).set j).status ≠ .processing := by
    intro j
    cases ok <;> exact finalized_status env job _ now
  have h := processing_of_update hwrites hr hst
  rw [finalized_pk] at h
  exact h

theorem processing_of_resetStale {jobs : JobTable} {cutoff : Nat} {r : WebhookDeliveryJob}
    (hr : r ∈ (resetStaleProcessingJobs jobs cutoff).rows) (hst : r.status = .processing) :
    r ∈ jobs.rows ∧ cutoff ≤ r.updatedAt := by
  obtain ⟨j, hj, he⟩ := Table.mem_updateWhere.mp hr
  by_cases hstale : (j.status == .processing && decide (j.updatedAt < cutoff)) = true
  · rw [if_pos hstale] at he
    rw [he] at hst
    cases hst
  · rw [if_neg hstale] at he
    subst he
    simp [hst] at hstale
    exact ⟨hj, hstale⟩

theorem mem_resetStale {jobs : JobTable} {cutoff : Nat} {r : WebhookDeliveryJob}
    (hr : r ∈ jobs.rows) (hfresh : cutoff ≤ r.updatedAt) :
    r ∈ (resetStaleProcessingJobs jobs cutoff).rows := by
  apply Table.mem_updateWhere.mpr
  refine ⟨r, hr, ?_⟩
  rw [if_neg]
  simp [hfresh]

section Attention
variable {ω κ : Type}

/-- A thread has the job. -/
def HeldBySome (s : OutboxState ω κ) (p : Nat) : Prop :=
  ∃ w, ∃ job, (s.worker w).job? = some job ∧ job.pk = p

/-- Every PROCESSING job is in the hands of a thread. -/
def Attended (s : OutboxState ω κ) : Prop :=
  ∀ r ∈ s.jobs.rows, r.status = .processing → HeldBySome s r.pk

theorem heldBySome_record {s : OutboxState ω κ} {p : Nat} (b : Bool) (e : OutboxEvent) :
    HeldBySome (s.record b e) p ↔ HeldBySome s p := by
  unfold HeldBySome
  rw [record_worker]

variable [DecidableEq ω]

/-- A thread that moves on with its job, or holds another one, takes no job from the threads. -/
theorem heldBySome_setWorker {s : OutboxState ω κ} {p : Nat} (h : HeldBySome s p) {w : ω}
    {phase : WorkerPhase}
    (hw : ∀ job, (s.worker w).job? = some job → job.pk = p →
      ∃ job', phase.job? = some job' ∧ job'.pk = p) (jobs : JobTable) :
    HeldBySome ({ s with jobs }.setWorker w phase) p := by
  obtain ⟨v, job, hv, hpk⟩ := h
  obtain ⟨rfl, hphase⟩ | ⟨_, hphase⟩ := setWorker_phase { s with jobs } w v phase
  · obtain ⟨job', hjob', hpk'⟩ := hw job hv hpk
    exact ⟨v, job', (congrArg _ hphase).trans hjob', hpk'⟩
  · exact ⟨v, job, (congrArg _ hphase).trans hv, hpk⟩

variable [DecidableEq κ]

/-- A PROCESSING row was there before, unless a thread has just claimed or bumped it. -/
theorem processing_move {env : WebhookEnv} {s t : OutboxState ω κ} {a : OutboxAction ω κ}
    (hmove : OutboxMove env s a t) {r : WebhookDeliveryJob} (hr : r ∈ t.jobs.rows)
    (hst : r.status = .processing) :
    r ∈ s.jobs.rows ∨
      ∃ w now, (a = .claim w now ∨ a = .bump w now ∧ s.worker w ≠ .idle) ∧ r.updatedAt = now := by
  cases hmove with
  | lookup =>
    rw [record_jobs] at hr
    exact Or.inl (processing_of_lookup hr hst)
  | save =>
    rw [record_jobs] at hr
    exact Or.inl (processing_of_scheduleSave hr hst)
  | claimNone | abort => exact Or.inl hr
  | claim =>
    obtain ⟨j, _, _, rfl⟩ | ⟨hold, _⟩ := Table.mem_update.mp hr
    · exact Or.inr ⟨_, _, Or.inl rfl, rfl⟩
    · exact Or.inl hold
  | bump hw =>
    obtain ⟨j, _, _, rfl⟩ | ⟨hold, _⟩ := Table.mem_update.mp hr
    · refine Or.inr ⟨_, _, Or.inr ⟨rfl, ?_⟩, rfl⟩
      rw [hw]
      exact WorkerPhase.noConfusion
    · exact Or.inl hold
  | read =>
    rw [record_jobs] at hr
    exact Or.inl hr
  | finalize =>
    rw [record_jobs] at hr
    exact Or.inl (processing_of_finalizeSave hr hst).1
  | resetStale => exact Or.inl (processing_of_resetStale hr hst).1

/-- Only a thread that gives its job up leaves it PROCESSING behind. -/
theorem attended_move {env : WebhookEnv} {s t : OutboxState ω κ} {a : OutboxAction ω κ}
    (hmove : OutboxMove env s a t) (hkeep : ∀ w, a ≠ .abort w) (h : Attended s) : Attended t := by
  intro r hr hst
  cases hmove with
  | lookup =>
    rw [record_jobs] at hr
    rw [heldBySome_record]
    exact h r (processing_of_lookup hr hst) hst
  | save =>
    rw [record_jobs] at hr
    rw [heldBySome_record]
    exact h r (processing_of_scheduleSave hr hst) hst
  | claimNone => exact h r hr hst
  | @claim w now job hw hj _ =>
    obtain ⟨j, _, hpk, rfl⟩ | ⟨hold, _⟩ := Table.mem_update.mp hr
    · refine ⟨w, { job with status := .processing }, ?_, hpk.symm⟩
      show (Function.update s.worker w _ w).job? = _
      rw [Function.update_self]
      rfl
    · refine heldBySome_setWorker (h r hold hst) ?_ _
      intro job' hjob'
      rw [hw] at hjob'
      cases hjob'
  | @bump w now job hw =>
    have hrow : ∃ r₀ ∈ s.jobs.rows, r₀.pk = r.pk ∧ r₀.status = .processing := by
      obtain ⟨j, hj, _, rfl⟩ | ⟨hold, _⟩ := Table.mem_update.mp hr
      · exact ⟨j, hj, rfl, hst⟩
      · exact ⟨r, hold, rfl, hst⟩
    obtain ⟨r₀, hr₀, hpk, hst₀⟩ := hrow
    refine heldBySome_setWorker (hpk ▸ h r₀ hr₀ hst₀) ?_ _
    intro job' hjob' hpk'
    rw [hw] at hjob'
    cases hjob'
    exact ⟨_, rfl, hpk'⟩
  | @read w http inbound outbound job hw =>
    rw [record_jobs] at hr
    rw [heldBySome_record]
    refine heldBySome_setWorker (h r hr hst) ?_ s.jobs
    intro job' hjob' hpk'
    rw [hw] at hjob'
    cases hjob'
    exact ⟨_, rfl, (withDeliveryError_pk _ _).trans hpk'⟩
  | @finalize w now job ok hw =>
    rw [record_jobs] at hr
    rw [heldBySome_record]
    obtain ⟨hold, hne⟩ := processing_of_finalizeSave hr hst
    refine heldBySome_setWorker (h r hold hst) ?_ _
    intro job' hjob' hpk'
    rw [hw] at hjob'
    cases hjob'
    exact absurd hpk'.symm hne
  | abort => exact absurd rfl (hkeep _)
  | resetStale => exact h r (processing_of_resetStale hr hst).1 hst

end Attention

/-! ## Over many lives -/

section Lives
variable {ω κ : Type}

/-- The clock does not go back, and a life starts later than `age` after the end of the one
    before. -/
def LateRestart (age : Int) (s : WorkerLives ω κ) : LifeAction ω κ → Prop
  | .work a => ∀ now ∈ a.now?, s.clock ≤ now
  | .start now => s.clock ≤ now ∧ (s.endedAt : Int) + age < now
  | _ => True

instance decidableLateRestart (age : Int) (s : WorkerLives ω κ) (a : LifeAction ω κ) :
    Decidable (LateRestart age s a) := by
  cases a <;> (unfold LateRestart; infer_instance)

/-- A process that does not run has no threads. -/
def StoppedIdle (s : WorkerLives ω κ) : Prop :=
  s.running = false → ∀ w, s.outbox.worker w = .idle

structure LivesInv (s : WorkerLives ω κ) : Prop where
  fresh : ∀ r ∈ s.outbox.jobs.rows, r.status = .processing → r.updatedAt ≤ s.clock
  idle : StoppedIdle s
  ended : s.running = false →
    ∀ r ∈ s.outbox.jobs.rows, r.status = .processing → r.updatedAt ≤ s.endedAt

/-- A restart that is late enough leaves nothing PROCESSING. -/
theorem late_start_resets {age : Int} {s : WorkerLives ω κ} (h : LivesInv s) {now : Nat}
    (hstopped : s.running = false) (hlate : (s.endedAt : Int) + age < now) :
    ∀ r ∈ (resetStaleProcessingJobs s.outbox.jobs (staleCutoff age now)).rows,
      r.status ≠ .processing := by
  intro r hr hst
  obtain ⟨hold, hfresh⟩ := processing_of_resetStale hr hst
  have hended := h.ended hstopped r hold hst
  unfold staleCutoff at hfresh
  omega

variable [DecidableEq ω] [DecidableEq κ]

/-- While no thread runs, the PROCESSING rows are those that were left. -/
theorem processing_stopped {env : WebhookEnv} {s t : OutboxState ω κ} {a : OutboxAction ω κ}
    (hmove : OutboxMove env s a t) (hopen : a.open false = true) (hidle : ∀ w, s.worker w = .idle)
    {r : WebhookDeliveryJob} (hr : r ∈ t.jobs.rows) (hst : r.status = .processing) :
    r ∈ s.jobs.rows := by
  cases processing_move hmove hr hst with
  | inl hold => exact hold
  | inr hnew =>
    obtain ⟨w, now, hclaim | ⟨_, hbusy⟩, _⟩ := hnew
    · rw [hclaim] at hopen
      cases hopen
    -- a bump is of a thread that has a job
    · exact absurd (hidle w) hbusy

theorem idle_stopped {env : WebhookEnv} {s t : OutboxState ω κ} {a : OutboxAction ω κ}
    (hmove : OutboxMove env s a t) (hopen : a.open false = true) (hidle : ∀ w, s.worker w = .idle)
    (w : ω) : t.worker w = .idle := by
  cases hmove with
  | lookup | save =>
    rw [record_worker]
    exact hidle w
  | claimNone => exact hidle w
  | claim => cases hopen
  | bump hw | read hw | finalize hw =>
    rw [hidle] at hw
    cases hw
  | abort hw => exact absurd (hidle _) hw
  | resetStale => exact hidle w

theorem stoppedIdle_step {env : WebhookEnv} {age : Int} {s t : WorkerLives ω κ}
    {a : LifeAction ω κ} (h : StoppedIdle s) (hstep : lifeStep env age s a = some t) :
    StoppedIdle t := by
  intro hstopped
  cases lifeStep_cases hstep with
  | work hopen hmove =>
    have hclosed : s.running = false := hstopped
    exact idle_stopped hmove (hclosed ▸ hopen) (h hclosed)
  | kill => exact fun _ => rfl
  | killCaller => exact h hstopped
  | start => cases hstopped

theorem livesInv_step {env : WebhookEnv} {age : Int} {s t : WorkerLives ω κ} {a : LifeAction ω κ}
    (h : LivesInv s) (hlate : LateRestart age s a) (hstep : lifeStep env age s a = some t) :
    LivesInv t := by
  cases lifeStep_cases hstep with
  | @work a outbox hopen hmove =>
    have hclock : s.clock ≤ a.now?.getD s.clock := by
      cases hnow : a.now? with
      | none => exact Nat.le_refl _
      | some now => exact hlate now hnow
    refine ⟨?_, stoppedIdle_step h.idle hstep, ?_⟩
    · intro r hr hst
      cases processing_move hmove hr hst with
      | inl hold => exact Nat.le_trans (h.fresh r hold hst) hclock
      | inr hnew =>
        obtain ⟨w, now, rfl | ⟨rfl, _⟩, hat⟩ := hnew
        · exact Nat.le_of_eq hat
        · exact Nat.le_of_eq hat
    -- schedule calls of other processes leave what is PROCESSING
    · intro hstopped r hr hst
      have hopen' : a.open false = true := hstopped ▸ hopen
      exact h.ended hstopped r (processing_stopped hmove hopen' (h.idle hstopped) hr hst) hst
  | kill _ => exact ⟨h.fresh, stoppedIdle_step h.idle hstep, fun _ => h.fresh⟩
  | killCaller => exact ⟨h.fresh, h.idle, h.ended⟩
  | start hstopped =>
    refine ⟨?_, stoppedIdle_step h.idle hstep, fun hfalse => Bool.noConfusion hfalse⟩
    intro r hr hst
    exact absurd hst (late_start_resets h hstopped hlate.2 r hr)

/-- In a life, and in those that follow. -/
theorem attended_step {env : WebhookEnv} {age : Int} {s t : WorkerLives ω κ} {a : LifeAction ω κ}
    (h : LivesInv s ∧ (s.running = true → Attended s.outbox)) (hlate : LateRestart age s a)
    (hkeep : ∀ w, a ≠ .work (.abort w)) (hstep : lifeStep env age s a = some t) :
    LivesInv t ∧ (t.running = true → Attended t.outbox) := by
  obtain ⟨hinv, hattended⟩ := h
  refine ⟨livesInv_step hinv hlate hstep, ?_⟩
  intro hrunning
  cases lifeStep_cases hstep with
  | @work a outbox _ hmove =>
    exact attended_move hmove (fun w he => hkeep w (congrArg _ he)) (hattended hrunning)
  | kill => cases hrunning
  | killCaller => exact hattended hrunning
  | start hstopped =>
    intro r hr hst
    exact absurd hst (late_start_resets hinv hstopped hlate.2 r hr)

/-- In every run whose restarts come later than `age` after the end of the life before, with
    schedule calls, workers and kills in any order: from a restart on, as long as no database
    error makes a thread give its job up, every PROCESSING job of a running process is in the
    hands of one of its threads. -/
theorem jobs_survive_restarts (env : WebhookEnv) (age : Int) {jobs : JobTable} {began : Nat}
    (hjobs : ∀ r ∈ jobs.rows, r.status = .processing → r.updatedAt ≤ began)
    {before after : List (LifeAction ω κ)} {now : Nat} {t : WorkerLives ω κ}
    (hlate : Meets (lifeStep env age) (LateRestart age) (WorkerLives.start jobs began)
      (before ++ .start now :: after))
    (hkeep : ∀ w, .work (.abort w) ∉ after)
    (hrun : exec (lifeStep env age) (WorkerLives.start jobs began)
      (before ++ .start now :: after) = some t)
    (hrunning : t.running = true) : Attended t.outbox := by
  obtain ⟨s, hbefore, hrest⟩ := exec_append_eq_some.mp hrun
  obtain ⟨hlateBefore, hlateRest⟩ := meets_append.mp hlate
  obtain ⟨u, hstart, hafter⟩ := exec_cons_eq_some.mp hrest
  have hinit : LivesInv (WorkerLives.start jobs began : WorkerLives ω κ) :=
    ⟨hjobs, fun _ _ => rfl, fun _ => hjobs⟩
  have hs : LivesInv s :=
    Reaches.invariant (fun _ _ _ h hok hstep => livesInv_step h hok hstep)
      ⟨before, hlateBefore, hbefore⟩ hinit
  obtain ⟨hlateStart, hlateAfter⟩ := hlateRest s hbefore
  have hu : LivesInv u ∧ (u.running = true → Attended u.outbox) := by
    refine ⟨livesInv_step hs hlateStart hstart, ?_⟩
    intro _
    cases lifeStep_cases hstart with
    | start hstopped =>
      intro r hr hst
      exact absurd hst (late_start_resets hs hstopped hlateStart.2 r hr)
  have hboth : Meets (lifeStep env age)
      (fun s a => LateRestart age s a ∧ ∀ w, a ≠ .work (.abort w)) u after :=
    meets_and_forall (hlateAfter u hstart) (fun a ha w he => hkeep w (he ▸ ha))
  exact (Reaches.invariant
    (I := fun s : WorkerLives ω κ => LivesInv s ∧ (s.running = true → Attended s.outbox))
    (fun _ _ _ h hok hstep => attended_step h hok.1 hok.2 hstep) ⟨after, hboth, hafter⟩ hu).2 hrunning

end Lives

/-- The process is killed between the bump and the delivery of its job. -/
def interruptedLife : List (LifeAction Unit Unit) :=
  [.start 301, .work (.lookup () .inbound 1 310), .work (.claim () 320), .work (.bump () 321),
    .kill]

/-- Restarted after more than the 300 seconds, a thread has the job again. -/
theorem jobs_survive_restarts_late :
    ∃ t : WorkerLives Unit Unit, t.running = true ∧
      t.outbox.jobs.rows.map (fun j => (j.pk, j.status, j.attempts)) = [(1, .processing, 1)] ∧
      Attended t.outbox := by
  have hlife : (execIf (lifeStep defaultEnv 300) (LateRestart 300) (WorkerLives.start Table.empty 0)
      (interruptedLife ++ .start 700 :: [.work (.claim () 701)])).map
        (fun t => (t.running, t.outbox.jobs.rows.map (fun j => (j.pk, j.status, j.attempts)))) =
      some (true, [(1, .processing, 1)]) := by decide
  obtain ⟨t, ht, hshape⟩ := Option.map_eq_some_iff.mp hlife
  obtain ⟨hrunning, hrows⟩ := Prod.mk.inj hshape
  refine ⟨t, hrunning, hrows, ?_⟩
  exact jobs_survive_restarts defaultEnv 300 (by decide) (meets_of_execIf ht) (by simp)
    (exec_of_execIf ht) hrunning

/-! ## A restart that comes too early -/

section Stranded
variable {ω κ : Type}

/-- No schedule call saves the job, and no new life begins. -/
def Unaided (p : Nat) (s : WorkerLives ω κ) : LifeAction ω κ → Prop
  | .work (.save c _) => ∀ job ∈ (s.outbox.caller c).saving?, job.pk ≠ p
  | .start _ => False
  | _ => True

instance decidableUnaided (p : Nat) (s : WorkerLives ω κ) :
    (a : LifeAction ω κ) → Decidable (Unaided p s a)
  | .work (.save c _) =>
    inferInstanceAs (Decidable (∀ job ∈ (s.outbox.caller c).saving?, job.pk ≠ p))
  | .start _ => .isFalse id
  | .work (.lookup ..) | .work (.claim ..) | .work (.bump ..) | .work (.read ..)
  | .work (.finalize ..) | .work (.abort _) | .work (.resetStale _) | .kill | .killCaller _ =>
    .isTrue trivial

/-- The row is in the table, and no thread has its job. -/
structure Stranded (r : WebhookDeliveryJob) (s : OutboxState ω κ) : Prop where
  row : r ∈ s.jobs.rows
  unheld : ∀ w job, (s.worker w).job? = some job → job.pk ≠ r.pk

theorem stranded_record {r : WebhookDeliveryJob} {s : OutboxState ω κ} (h : Stranded r s) (b : Bool)
    (e : OutboxEvent) : Stranded r (s.record b e) := by
  refine ⟨?_, ?_⟩
  · rw [record_jobs]
    exact h.row
  · rw [record_worker]
    exact h.unheld

variable [DecidableEq ω]

/-- Threads go on with other jobs. -/
theorem stranded_setWorker {r : WebhookDeliveryJob} {s : OutboxState ω κ} (h : Stranded r s)
    {jobs : JobTable} (hrow : r ∈ jobs.rows) (w : ω) {phase : WorkerPhase}
    (hphase : ∀ job, phase.job? = some job → job.pk ≠ r.pk) :
    Stranded r ({ s with jobs }.setWorker w phase) := by
  refine ⟨hrow, ?_⟩
  intro v job hv
  obtain ⟨_, hq⟩ | ⟨_, hq⟩ := setWorker_phase { s with jobs } w v phase
  · exact hphase job (hq ▸ hv)
  · exact h.unheld v job (hq ▸ hv)

variable [DecidableEq κ]

/-- A thread claims PENDING jobs only, and saves only what it holds. -/
theorem stranded_move {env : WebhookEnv} {s t : OutboxState ω κ} {a : OutboxAction ω κ}
    {r : WebhookDeliveryJob} (hst : r.status = .processing) (h : Stranded r s)
    (hmove : OutboxMove env s a t) (hreset : ∀ cutoff, a ≠ .resetStale cutoff)
    (hsave : ∀ c now, a = .save c now → ∀ job ∈ (s.caller c).saving?, job.pk ≠ r.pk) :
    Stranded r t := by
  cases hmove with
  | @lookup c kind smsPk now _ =>
    have hrow : r ∈ (scheduleLookup kind s.jobs smsPk now).1.rows :=
      Table.mem_getOrCreate_of_mem h.row
    apply stranded_record
    exact ⟨hrow, h.unheld⟩
  | @save c now job created hc =>
    apply stranded_record
    refine ⟨?_, h.unheld⟩
    show r ∈ (scheduleSave s.jobs job created now).rows
    unfold scheduleSave
    split
    · next hsaves =>
      -- the caller saves the row of another message
      have hne := hsave c now rfl job (saving_looked hc hsaves)
      exact Table.mem_update.mpr (Or.inr ⟨h.row, Ne.symm hne⟩)
    · exact h.row
  | claimNone => exact h
  | @claim w now job hw hj hpending =>
    -- what is claimed is PENDING, and the stranded row is not
    have hne : job.pk ≠ r.pk := by
      intro hpk
      rw [s.jobs.pk_injOn hj h.row hpk, hst] at hpending
      cases hpending
    refine stranded_setWorker h (Table.mem_update.mpr (Or.inr ⟨h.row, Ne.symm hne⟩)) w ?_
    intro job' hjob'
    cases hjob'
    exact hne
  | @bump w now job hw =>
    have hne := h.unheld w job (hw ▸ rfl)
    refine stranded_setWorker h (Table.mem_update.mpr (Or.inr ⟨h.row, Ne.symm hne⟩)) w ?_
    intro job' hjob'
    cases hjob'
    exact hne
  | @read w http inbound outbound job hw =>
    refine stranded_record (stranded_setWorker h h.row w ?_) _ _
    intro job' hjob'
    cases hjob'
    exact (withDeliveryError_pk _ _).trans_ne (h.unheld w job (hw ▸ rfl))
  | @finalize w now job ok hw =>
    have hne := h.unheld w job (hw ▸ rfl)
    refine stranded_record (stranded_setWorker h ?_ w ?_) _ _
    · show r ∈ (s.jobs.update (finalized env job ok now).pk _).rows
      rw [finalized_pk]
      exact Table.mem_update.mpr (Or.inr ⟨h.row, Ne.symm hne⟩)
    · intro job' hjob'
      cases hjob'
  | @abort w _ =>
    refine stranded_setWorker h h.row w ?_
    intro job' hjob'
    cases hjob'
  | resetStale => exact absurd rfl (hreset _)

theorem stranded_step {env : WebhookEnv} {age : Int} {s t : WorkerLives ω κ} {a : LifeAction ω κ}
    {r : WebhookDeliveryJob} (hst : r.status = .processing) (h : Stranded r s.outbox)
    (halone : Unaided r.pk s a) (hstep : lifeStep env age s a = some t) : Stranded r t.outbox := by
  cases lifeStep_cases hstep with
  | @work a outbox hopen hmove =>
    refine stranded_move hst h hmove ?_ ?_
    · intro cutoff he
      rw [he] at hopen
      cases hopen
    · intro c now he
      subst he
      exact halone
  | kill =>
    refine ⟨h.row, ?_⟩
    intro w job hjob
    cases hjob
  | killCaller => exact ⟨h.row, h.unheld⟩
  | start => exact False.elim halone

/-- In every run, and with any clock: a job that was PROCESSING when the process was killed and
    whose last update is no older than `age` at the restart stays PROCESSING, as it is, and no
    thread has it, in every state up to the next restart or a schedule call for its message. -/
theorem early_restart_strands (env : WebhookEnv) (age : Int) {jobs : JobTable} {began now : Nat}
    {before after : List (LifeAction ω κ)} {s t u : WorkerLives ω κ} {r : WebhookDeliveryJob}
    (hbefore : exec (lifeStep env age) (WorkerLives.start jobs began) before = some s)
    (hstart : lifeStep env age s (.start now) = some t)
    (hr : r ∈ s.outbox.jobs.rows) (hst : r.status = .processing)
    (hearly : (now : Int) ≤ r.updatedAt + age)
    (halone : Meets (lifeStep env age) (Unaided r.pk) t after)
    (hafter : exec (lifeStep env age) t after = some u) : Stranded r u.outbox := by
  have hidle : StoppedIdle s :=
    Reaches.invariant (fun _ _ _ h _ hstep => stoppedIdle_step h hstep)
      ⟨before, meets_true _ _, hbefore⟩ (fun _ _ => rfl)
  have ht : Stranded r t.outbox := by
    cases lifeStep_cases hstart with
    | start hstopped =>
      refine ⟨mem_resetStale hr ?_, ?_⟩
      · unfold staleCutoff
        omega
      · intro w job hjob
        rw [hidle hstopped w] at hjob
        cases hjob
  exact Reaches.invariant (I := fun s : WorkerLives ω κ => Stranded r s.outbox)
    (fun _ _ _ h hok hstep => stranded_step hst h hok hstep) ⟨after, halone, hafter⟩ ht

end Stranded

/-- Restarted within the 300 seconds, the process has the job in its table and never sees it. -/
theorem early_restart_strands_interrupted :
    ∃ (u : WorkerLives Unit Unit) (r : WebhookDeliveryJob), u.running = true ∧ r.pk = 1 ∧
      r.status = .processing ∧ Stranded r u.outbox := by
  have hlife : (exec (lifeStep defaultEnv 300) (WorkerLives.start Table.empty 0) interruptedLife).map
      (fun s => (s.outbox.jobs.rows.map (fun j => (j.pk, j.status, j.updatedAt)),
        ((lifeStep defaultEnv 300 s (.start 500)).bind (fun t =>
          execIf (lifeStep defaultEnv 300) (Unaided 1) t
            [.work (.claim () 501), .work (.claim () 900)])).map WorkerLives.running)) =
      some ([(1, .processing, 321)], some true) := by decide
  obtain ⟨s, hs, hshape⟩ := Option.map_eq_some_iff.mp hlife
  obtain ⟨hrows, hlast⟩ := Prod.mk.inj hshape
  obtain ⟨u, hu, hrunning⟩ := Option.map_eq_some_iff.mp hlast
  obtain ⟨t, ht, hu⟩ := Option.bind_eq_some_iff.mp hu
  obtain ⟨r, hr⟩ := List.map_eq_singleton_iff.mp hrows
  obtain ⟨hr, hrow⟩ := hr
  obtain ⟨hpk, hrow⟩ := Prod.mk.inj hrow
  obtain ⟨hst, hupdated⟩ := Prod.mk.inj hrow
  have hmem : r ∈ s.outbox.jobs.rows := hr ▸ List.mem_singleton_self r
  have hearly : ((500 : Nat) : Int) ≤ r.updatedAt + 300 := by
    rw [hupdated]
    decide
  refine ⟨u, r, hrunning, hpk, hst, ?_⟩
  exact early_restart_strands defaultEnv 300 hs ht hmem hst hearly (hpk ▸ meets_of_execIf hu)
    (exec_of_execIf hu)

end HiWaveTel
