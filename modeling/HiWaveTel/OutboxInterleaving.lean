import HiWaveTel.Foundation.Run
import HiWaveTel.Foundation.History
import HiWaveTel.WebhookOutbox
import Mathlib.Logic.Function.Basic
import Mathlib.Data.Fintype.Basic

/- The outbox under concurrency: any number of `schedule_*_webhook` callers and of
   `run_webhook_worker` threads on one job table, at the granularity of single
   database statements. A caller looks its job up and then saves a status computed
   from that copy; a worker claims (one transaction), bumps the attempts, reads the
   SMS row and POSTs, and saves a status computed from the copy it claimed.

   What is proved:
     1. `no_lost_reschedule` — as long as no schedule call saves PENDING while a
        worker is between reading the SMS row and finalizing a successful delivery,
        a job that was re-scheduled is delivered only by an attempt that began after
        that. `reschedule_lost_of_finalize` shows that the condition leaves
        out only saves that can lose a re-schedule.
     2. `jobs_mutually_exclusive` — as long as no schedule call saves PENDING on a
        job that a worker holds, no job is held by two workers and no SMS is POSTed
        by two workers at the same time.
   Without the conditions both fail (`reschedule_can_be_lost`, `job_can_be_held_twice`):
   the save of a schedule call checks for DELIVERED only, on a copy. -/
namespace HiWaveTel
open Foundation

/-- Where a worker thread is. -/
inductive WorkerPhase where
  | idle
  | claimed (job : WebhookDeliveryJob)
  | bumped (job : WebhookDeliveryJob)
  | attempting (job : WebhookDeliveryJob) (ok : Bool)   -- the SMS row is read, POSTs go out
  deriving DecidableEq, Repr

/-- The job a worker holds, from the claim to the end of `process_webhook_job`. -/
def WorkerPhase.job? : WorkerPhase → Option WebhookDeliveryJob
  | .idle => none
  | .claimed job => some job
  | .bumped job => some job
  | .attempting job _ => some job

/-- The job of an attempt that succeeds: it will be finalized as DELIVERED. -/
def WorkerPhase.delivering? : WorkerPhase → Option WebhookDeliveryJob
  | .attempting job true => some job
  | _ => none

/-- Where a schedule call is. -/
inductive CallerPhase where
  | idle
  | looked (job : WebhookDeliveryJob) (created : Bool)
  deriving DecidableEq, Repr

/-- The job a schedule call is about to save as PENDING. -/
def CallerPhase.saving? : CallerPhase → Option WebhookDeliveryJob
  | .idle => none
  | .looked job created => if scheduleSaves job created then some job else none

/-- What the history records, with the job's key. -/
inductive OutboxEvent where
  | wrotePending (pk : Nat)
  | attemptBegan (pk : Nat)
  | delivered (pk : Nat)
  deriving DecidableEq, Repr

structure OutboxState (ω κ : Type) where
  jobs : JobTable
  worker : ω → WorkerPhase
  caller : κ → CallerPhase
  log : List OutboxEvent

/-- One atomic step of a thread, with the choices of the environment. `abort` is a
    database error in the bump or in the final save, which ends
    `process_webhook_job`; the worker goes on to its next iteration. -/
inductive OutboxAction (ω κ : Type) where
  | lookup (c : κ) (kind : JobKind) (smsPk now : Nat)
  | save (c : κ) (now : Nat)
  | claim (w : ω) (now : Nat)
  | bump (w : ω) (now : Nat)
  | read (w : ω) (http : Http) (inbound : Table InboundSms) (outbound : Table OutboundSms)
  | finalize (w : ω) (now : Nat)
  | abort (w : ω)
  | resetStale (cutoff : Nat)

section Step
variable {ω κ : Type}

def OutboxState.setWorker [DecidableEq ω] (s : OutboxState ω κ) (w : ω) (p : WorkerPhase) : OutboxState ω κ :=
  { s with worker := Function.update s.worker w p }

def OutboxState.setCaller [DecidableEq κ] (s : OutboxState ω κ) (c : κ) (p : CallerPhase) : OutboxState ω κ :=
  { s with caller := Function.update s.caller c p }

/-- Append an event when `b` holds. -/
def OutboxState.record (s : OutboxState ω κ) (b : Bool) (e : OutboxEvent) : OutboxState ω κ :=
  if b then { s with log := s.log ++ [e] } else s

def outboxStep [DecidableEq ω] [DecidableEq κ] (env : WebhookEnv) (s : OutboxState ω κ) :
    OutboxAction ω κ → Option (OutboxState ω κ)
  | .lookup c kind smsPk now =>
    match s.caller c with
    | .idle =>
      let (jobs, job, created) := scheduleLookup kind s.jobs smsPk now
      some (({ s with jobs }.setCaller c (.looked job created)).record created
        (.wrotePending job.pk))
    | _ => none
  -- the guard reads the copy of the lookup, the UPDATE goes to the row as it is now
  | .save c now =>
    match s.caller c with
    | .looked job created =>
      some (({ s with jobs := scheduleSave s.jobs job created now }.setCaller c .idle).record
        (scheduleSaves job created) (.wrotePending job.pk))
    | _ => none
  | .claim w now =>
    match s.worker w with
    | .idle =>
      match claimNextJob s.jobs now with
      | (_, none) => some s
      | (jobs, some job) => some ({ s with jobs }.setWorker w (.claimed job))
    | _ => none
  | .bump w now =>
    match s.worker w with
    | .claimed job =>
      let job := bumpAttempts job
      some ({ s with jobs := s.jobs.update job.pk (saveAttempts job now) }.setWorker w (.bumped job))
    | _ => none
  -- the SMS row is read and POSTed: here the attempt begins
  | .read w http inbound outbound =>
    match s.worker w with
    | .bumped job =>
      let ended := (deliverJob env http inbound outbound job).2
      some ((s.setWorker w (.attempting (withDeliveryError job ended) (deliveryOk ended))).record
        true (.attemptBegan job.pk))
    | _ => none
  -- the save writes the status of the claimed copy, whatever the row has
  | .finalize w now =>
    match s.worker w with
    | .attempting job ok =>
      some (({ s with jobs := finalizeSave env s.jobs job ok now }.setWorker w .idle).record
        ok (.delivered job.pk))
    | _ => none
  | .abort w =>
    match s.worker w with
    | .claimed _ => some (s.setWorker w .idle)
    | .attempting _ _ => some (s.setWorker w .idle)
    | _ => none
  | .resetStale cutoff => some { s with jobs := resetStaleProcessingJobs s.jobs cutoff }

/-- Every way a step can go, with all it changes. -/
inductive OutboxMove [DecidableEq ω] [DecidableEq κ] (env : WebhookEnv) (s : OutboxState ω κ) :
    OutboxAction ω κ → OutboxState ω κ → Prop
  | lookup {c kind smsPk now} (hc : s.caller c = .idle) :
      OutboxMove env s (.lookup c kind smsPk now)
        (({ s with jobs := (scheduleLookup kind s.jobs smsPk now).1 }.setCaller c
            (.looked (scheduleLookup kind s.jobs smsPk now).2.1
              (scheduleLookup kind s.jobs smsPk now).2.2)).record
          (scheduleLookup kind s.jobs smsPk now).2.2
          (.wrotePending (scheduleLookup kind s.jobs smsPk now).2.1.pk))
  | save {c now job created} (hc : s.caller c = .looked job created) :
      OutboxMove env s (.save c now)
        (({ s with jobs := scheduleSave s.jobs job created now }.setCaller c .idle).record
          (scheduleSaves job created) (.wrotePending job.pk))
  | claimNone {w now} (hw : s.worker w = .idle) : OutboxMove env s (.claim w now) s
  | claim {w now job} (hw : s.worker w = .idle) (hj : job ∈ s.jobs.rows)
      (hs : job.status = .pending) :
      OutboxMove env s (.claim w now)
        ({ s with jobs := s.jobs.update job.pk
                    (saveClaim { job with status := .processing } now) }.setWorker w
          (.claimed { job with status := .processing }))
  | bump {w now job} (hw : s.worker w = .claimed job) :
      OutboxMove env s (.bump w now)
        ({ s with jobs := s.jobs.update job.pk (saveAttempts (bumpAttempts job) now) }.setWorker w
          (.bumped (bumpAttempts job)))
  | read {w http inbound outbound job} (hw : s.worker w = .bumped job) :
      OutboxMove env s (.read w http inbound outbound)
        ((s.setWorker w (.attempting
            (withDeliveryError job (deliverJob env http inbound outbound job).2)
            (deliveryOk (deliverJob env http inbound outbound job).2))).record true
          (.attemptBegan job.pk))
  | finalize {w now job ok} (hw : s.worker w = .attempting job ok) :
      OutboxMove env s (.finalize w now)
        (({ s with jobs := finalizeSave env s.jobs job ok now }.setWorker w .idle).record
          ok (.delivered job.pk))
  | abort {w} (hw : s.worker w ≠ .idle) : OutboxMove env s (.abort w) (s.setWorker w .idle)
  | resetStale {cutoff} :
      OutboxMove env s (.resetStale cutoff)
        { s with jobs := resetStaleProcessingJobs s.jobs cutoff }

theorem outboxStep_cases [DecidableEq ω] [DecidableEq κ] {env : WebhookEnv} {s t : OutboxState ω κ} {a : OutboxAction ω κ}
    (h : outboxStep env s a = some t) : OutboxMove env s a t := by
  cases a with
  | lookup c kind smsPk now =>
    simp only [outboxStep] at h
    split at h
    · next hc => cases h; exact .lookup hc
    · cases h
  | save c now =>
    simp only [outboxStep] at h
    split at h
    · next hc => cases h; exact .save hc
    · cases h
  | claim w now =>
    simp only [outboxStep] at h
    split at h
    · next hw =>
      rcases claimNextJob_cases s.jobs now with hn | ⟨job, hj, hs, hc⟩
      · rw [hn] at h; cases h; exact .claimNone hw
      · rw [hc] at h; cases h; exact .claim hw hj hs
    · cases h
  | bump w now =>
    simp only [outboxStep] at h
    split at h
    · next hw => cases h; exact .bump hw
    · cases h
  | read w http inbound outbound =>
    simp only [outboxStep] at h
    split at h
    · next hw => cases h; exact .read hw
    · cases h
  | finalize w now =>
    simp only [outboxStep] at h
    split at h
    · next hw => cases h; exact .finalize hw
    · cases h
  | abort w =>
    simp only [outboxStep] at h
    split at h
    · next hw => cases h; exact .abort (by rw [hw]; exact WorkerPhase.noConfusion)
    · next hw => cases h; exact .abort (by rw [hw]; exact WorkerPhase.noConfusion)
    · cases h
  | resetStale cutoff => cases h; exact .resetStale

/-- Any job table, with every thread between two calls. -/
def OutboxState.start (jobs : JobTable) : OutboxState ω κ :=
  ⟨jobs, fun _ => .idle, fun _ => .idle, []⟩

/-! ## What the updates of a state touch -/

section Fields
variable (s : OutboxState ω κ)

@[simp] theorem record_jobs (b : Bool) (e : OutboxEvent) : (s.record b e).jobs = s.jobs := by
  unfold OutboxState.record; split <;> rfl

@[simp] theorem record_worker (b : Bool) (e : OutboxEvent) : (s.record b e).worker = s.worker := by
  unfold OutboxState.record; split <;> rfl

@[simp] theorem setCaller_jobs [DecidableEq κ] (c : κ) (p : CallerPhase) :
    (s.setCaller c p).jobs = s.jobs := rfl

/-- After `setWorker`, a phase is the new one or one of another worker. -/
theorem setWorker_phase [DecidableEq ω] (w v : ω) (p : WorkerPhase) :
    (v = w ∧ (s.setWorker w p).worker v = p) ∨
      (v ≠ w ∧ (s.setWorker w p).worker v = s.worker v) :=
  update_cases s.worker w p v

theorem record_eq (b : Bool) (e : OutboxEvent) :
    (s.record b e).log = if b then s.log ++ [e] else s.log := by
  unfold OutboxState.record; split <;> rfl

end Fields

/-! ## No lost re-schedule -/

/-- A job that was re-scheduled is delivered only by an attempt that began after that. -/
def NoLostReschedule (log : List OutboxEvent) : Prop :=
  ∀ p, Answered (· = .wrotePending p) (· = .attemptBegan p) (· = .delivered p) log

/-- A re-schedule of job `p` that no attempt has seen. -/
def Unseen (p : Nat) (log : List OutboxEvent) : Prop :=
  Open (· = .wrotePending p) (· = .attemptBegan p) log

theorem unseen_record (s : OutboxState ω κ) (b : Bool) (e : OutboxEvent) (p : Nat) :
    Unseen p (s.record b e).log ↔
      (b = true ∧ e = .wrotePending p) ∨ (Unseen p s.log ∧ ¬ (b = true ∧ e = .attemptBegan p)) := by
  rw [record_eq]
  cases b
  · simp
  · simp [Unseen, open_concat]

theorem noLostReschedule_record (s : OutboxState ω κ) (b : Bool) (e : OutboxEvent) :
    NoLostReschedule (s.record b e).log ↔
      NoLostReschedule s.log ∧ (b = true → ∀ p, e = .delivered p → ¬ Unseen p s.log) := by
  rw [record_eq]
  cases b
  · simp
  · simp only [if_true, NoLostReschedule, answered_concat, Unseen, forall_and, true_imp_iff]

/-- A schedule call does not save PENDING on a job while a worker is between reading
    the SMS row and finalizing a delivery of it that succeeds. -/
def SaveOutsideAttempt (s : OutboxState ω κ) : OutboxAction ω κ → Prop
  | .save c _ =>
    ∀ job ∈ (s.caller c).saving?, ∀ w, ∀ job' ∈ (s.worker w).delivering?, job'.pk ≠ job.pk
  | _ => True

instance [Fintype ω] (s : OutboxState ω κ) (a : OutboxAction ω κ) :
    Decidable (SaveOutsideAttempt s a) := by
  cases a <;> (unfold SaveOutsideAttempt; infer_instance)

theorem saving_looked {p : CallerPhase} {job : WebhookDeliveryJob} {created : Bool}
    (hp : p = .looked job created) (hsaves : scheduleSaves job created = true) :
    p.saving? = some job := by
  rw [hp, CallerPhase.saving?, if_pos hsaves]

theorem looked_of_saving {p : CallerPhase} {job : WebhookDeliveryJob}
    (h : p.saving? = some job) :
    ∃ created, p = .looked job created ∧ scheduleSaves job created = true := by
  cases p with
  | idle => cases h
  | looked job' created =>
    obtain ⟨hsaves, he⟩ := Option.ite_none_right_eq_some.mp h
    cases he
    exact ⟨created, rfl, hsaves⟩

theorem attempting_of_delivering {p : WorkerPhase} {job : WebhookDeliveryJob}
    (h : p.delivering? = some job) : p = .attempting job true := by
  unfold WorkerPhase.delivering? at h
  split at h
  · cases h; rfl
  · cases h

theorem job?_of_delivering {p : WorkerPhase} {job : WebhookDeliveryJob}
    (h : p.delivering? = some job) : p.job? = some job := by
  rw [attempting_of_delivering h]; rfl

structure RescheduleInv (s : OutboxState ω κ) : Prop where
  noneLost : NoLostReschedule s.log
  seen : ∀ w, ∀ job ∈ (s.worker w).delivering?, ¬ Unseen job.pk s.log
  held_lt : ∀ w job, (s.worker w).job? = some job → job.pk < s.jobs.nextPk

theorem scheduleLookup_created {kind : JobKind} {jobs : JobTable} {smsPk now : Nat}
    (h : (scheduleLookup kind jobs smsPk now).2.2 = true) :
    (scheduleLookup kind jobs smsPk now).2.1.pk = jobs.nextPk := by
  unfold scheduleLookup at h ⊢
  rcases jobs.getOrCreate_cases (newJob kind smsPk now) with ⟨r, _, he⟩ | ⟨hn, he⟩
  · rw [he] at h; exact absurd h (by simp)
  · rw [he]; rfl

theorem scheduleLookup_nextPk (kind : JobKind) (jobs : JobTable) (smsPk now : Nat) :
    jobs.nextPk ≤ (scheduleLookup kind jobs smsPk now).1.nextPk := by
  unfold scheduleLookup
  rcases jobs.getOrCreate_cases (newJob kind smsPk now) with ⟨r, _, he⟩ | ⟨hn, he⟩
  · rw [he]
  · rw [he]; exact Nat.le_succ _

theorem scheduleSave_nextPk (jobs : JobTable) (job : WebhookDeliveryJob) (created : Bool)
    (now : Nat) : (scheduleSave jobs job created now).nextPk = jobs.nextPk := by
  unfold scheduleSave
  split <;> rfl

/-- The invariant says the same of two states that differ in the callers only. -/
theorem rescheduleInv_setCaller [DecidableEq κ] {s : OutboxState ω κ} (h : RescheduleInv s)
    (c : κ) (p : CallerPhase) : RescheduleInv (s.setCaller c p) := ⟨h.noneLost, h.seen, h.held_lt⟩

/-- A job table that grows keeps the invariant. -/
theorem rescheduleInv_jobs {s : OutboxState ω κ} (h : RescheduleInv s) {jobs : JobTable}
    (hn : s.jobs.nextPk ≤ jobs.nextPk) : RescheduleInv { s with jobs } :=
  ⟨h.noneLost, h.seen, fun w job hw => Nat.lt_of_lt_of_le (h.held_lt w job hw) hn⟩

/-- A worker that starts no successful attempt keeps the invariant. -/
theorem rescheduleInv_setWorker [DecidableEq ω] {s : OutboxState ω κ} (h : RescheduleInv s)
    (w : ω) {p : WorkerPhase} (hp : p.delivering? = none)
    (hlt : ∀ job, p.job? = some job → job.pk < s.jobs.nextPk) :
    RescheduleInv (s.setWorker w p) := by
  refine ⟨h.noneLost, ?_, ?_⟩
  · intro v job hv
    rcases setWorker_phase s w v p with ⟨_, hq⟩ | ⟨_, hq⟩
    · rw [hq, hp] at hv
      cases hv
    · rw [hq] at hv
      exact h.seen v job hv
  · intro v job hv
    rcases setWorker_phase s w v p with ⟨_, hq⟩ | ⟨_, hq⟩
    · rw [hq] at hv
      exact hlt job hv
    · rw [hq] at hv
      exact h.held_lt v job hv

/-- A write of PENDING keeps the invariant if no successful attempt is under way. -/
theorem rescheduleInv_wrotePending {s : OutboxState ω κ} (h : RescheduleInv s) (b : Bool)
    (p : Nat) (hp : b = true → ∀ w, ∀ job ∈ (s.worker w).delivering?, job.pk ≠ p) :
    RescheduleInv (s.record b (.wrotePending p)) := by
  refine ⟨?_, ?_, ?_⟩
  · apply (noLostReschedule_record s b _).mpr
    exact ⟨h.noneLost, fun _ _ he => OutboxEvent.noConfusion he⟩
  · intro w job hw
    rw [record_worker] at hw
    rw [unseen_record]
    intro hu
    rcases hu with ⟨hb, he⟩ | ⟨hu, _⟩
    · exact hp hb w job hw (OutboxEvent.wrotePending.inj he).symm
    · exact h.seen w job hw hu
  · intro w job hw
    rw [record_worker] at hw
    rw [record_jobs]
    exact h.held_lt w job hw

/-- The start of an attempt has seen every re-schedule so far. -/
theorem rescheduleInv_attemptBegan [DecidableEq ω] {s : OutboxState ω κ} (h : RescheduleInv s)
    (w : ω) {job : WebhookDeliveryJob} (ok : Bool) (hlt : job.pk < s.jobs.nextPk) :
    RescheduleInv ((s.setWorker w (.attempting job ok)).record true (.attemptBegan job.pk)) := by
  refine ⟨?_, ?_, ?_⟩
  · apply (noLostReschedule_record _ _ _).mpr
    exact ⟨h.noneLost, fun _ _ he => OutboxEvent.noConfusion he⟩
  · intro v job' hv hu
    rw [record_worker] at hv
    rcases (unseen_record _ _ _ _).mp hu with ⟨_, he⟩ | ⟨hu, hne⟩
    · exact OutboxEvent.noConfusion he
    · rcases setWorker_phase s w v (.attempting job ok) with ⟨_, hq⟩ | ⟨_, hq⟩
      · -- this attempt itself
        rw [hq] at hv
        cases ok <;> cases hv
        exact hne ⟨rfl, rfl⟩
      · rw [hq] at hv
        exact h.seen v job' hv hu
  · intro v job' hv
    rw [record_worker] at hv
    rw [record_jobs]
    rcases setWorker_phase s w v (.attempting job ok) with ⟨_, hq⟩ | ⟨_, hq⟩
    · rw [hq] at hv
      cases hv
      exact hlt
    · rw [hq] at hv
      exact h.held_lt v job' hv

/-- The end of an attempt delivers what the attempt has seen. -/
theorem rescheduleInv_delivered {s t : OutboxState ω κ} (ht : RescheduleInv t) {b : Bool}
    {p : Nat} (hlog : t.log = s.log) (hseen : b = true → ¬ Unseen p s.log) :
    RescheduleInv (t.record b (.delivered p)) := by
  refine ⟨?_, ?_, ?_⟩
  · apply (noLostReschedule_record t b _).mpr
    refine ⟨ht.noneLost, ?_⟩
    intro hb p' he
    cases he
    rw [hlog]
    exact hseen hb
  · intro w job hw hu
    rw [record_worker] at hw
    rcases (unseen_record _ _ _ _).mp hu with ⟨_, he⟩ | ⟨hu, _⟩
    · exact OutboxEvent.noConfusion he
    · exact ht.seen w job hw hu
  · intro w job hw
    rw [record_worker] at hw
    rw [record_jobs]
    exact ht.held_lt w job hw

theorem rescheduleInv_step [DecidableEq ω] [DecidableEq κ] {env : WebhookEnv}
    {s t : OutboxState ω κ} {a : OutboxAction ω κ} (h : RescheduleInv s)
    (hok : SaveOutsideAttempt s a) (hmove : OutboxMove env s a t) : RescheduleInv t := by
  cases hmove with
  | @lookup c kind smsPk now hc =>
    apply rescheduleInv_wrotePending
    · exact rescheduleInv_setCaller (rescheduleInv_jobs h (scheduleLookup_nextPk _ _ _ _)) c _
    · -- a job just created is held by nobody
      intro hcreated w job hw hpk
      have hlt := h.held_lt w job (job?_of_delivering hw)
      rw [hpk, scheduleLookup_created hcreated] at hlt
      exact Nat.lt_irrefl _ hlt
  | @save c now job created hc =>
    apply rescheduleInv_wrotePending
    · exact rescheduleInv_setCaller
        (rescheduleInv_jobs h (Nat.le_of_eq (scheduleSave_nextPk _ _ _ _).symm)) c _
    · intro hsaves w job' hw
      exact hok job (saving_looked hc hsaves) w job' hw
  | claimNone hw => exact h
  | @claim w now job hw hj hs =>
    refine rescheduleInv_setWorker (rescheduleInv_jobs h ?_) w rfl ?_
    · exact Nat.le_refl _
    · intro job' he
      cases he
      exact s.jobs.pk_lt job hj
  | @bump w now job hw =>
    refine rescheduleInv_setWorker (rescheduleInv_jobs h ?_) w rfl ?_
    · exact Nat.le_refl _
    · intro job' he
      cases he
      exact h.held_lt w job (by rw [hw]; rfl)
  | @read w http inbound outbound job hw =>
    rw [← withDeliveryError_pk job (deliverJob env http inbound outbound job).2]
    apply rescheduleInv_attemptBegan h
    rw [withDeliveryError_pk]
    exact h.held_lt w job (by rw [hw]; rfl)
  | @finalize w now job ok hw =>
    apply rescheduleInv_delivered (s := s)
    · refine rescheduleInv_setWorker (rescheduleInv_jobs h ?_) w rfl ?_
      · exact Nat.le_refl _
      · intro job' he
        cases he
    · rfl
    · intro hok'
      subst hok'
      exact h.seen w job (by rw [hw]; rfl)
  | @abort w hw =>
    apply rescheduleInv_setWorker h w rfl
    intro job' he
    cases he
  | resetStale =>
    refine rescheduleInv_jobs h ?_
    exact Nat.le_refl _

theorem rescheduleInv_start (jobs : JobTable) :
    RescheduleInv (OutboxState.start jobs : OutboxState ω κ) := by
  refine ⟨fun _ => answered_nil, ?_, ?_⟩
  · intro w job hw
    cases hw
  · intro w job hw
    cases hw

/-- A save of PENDING during an attempt that succeeds loses the re-schedule, once the
    attempt is finalized. -/
theorem reschedule_lost_of_finalize [DecidableEq ω] [DecidableEq κ] {env : WebhookEnv}
    {s t : OutboxState ω κ} {a : OutboxAction ω κ} (hbad : ¬ SaveOutsideAttempt s a)
    (hstep : outboxStep env s a = some t) (later : Nat) :
    ∃ w u, outboxStep env t (.finalize w later) = some u ∧ ¬ NoLostReschedule u.log := by
  cases a with
  | save c now =>
    simp only [SaveOutsideAttempt, not_forall, not_not] at hbad
    obtain ⟨job, hsaving, w, job', hw, hpk⟩ := hbad
    obtain ⟨created, hc, hsaves⟩ := looked_of_saving hsaving
    have hw := attempting_of_delivering hw
    simp only [outboxStep, hc, Option.some.injEq] at hstep
    have hunseen : Unseen job'.pk t.log := by
      rw [← hstep, unseen_record]
      exact Or.inl ⟨hsaves, by rw [hpk]⟩
    have htw : t.worker w = .attempting job' true := by
      rw [← hstep, record_worker]
      exact hw
    refine ⟨w, _, by simp only [outboxStep, htw]; rfl, ?_⟩
    rw [noLostReschedule_record]
    intro hno
    exact hno.2 rfl job'.pk rfl hunseen
  | _ => exact absurd trivial hbad

/-- Where no schedule call saves PENDING during an attempt that succeeds, no
    re-schedule is lost; every such save loses one, once the attempt is finalized. -/
theorem no_lost_reschedule [DecidableEq ω] [DecidableEq κ] (env : WebhookEnv) (jobs : JobTable) :
    (∀ s, Reaches (outboxStep env) SaveOutsideAttempt (OutboxState.start jobs : OutboxState ω κ) s →
      NoLostReschedule s.log) ∧
    (∀ (s t : OutboxState ω κ) a, ¬ SaveOutsideAttempt s a → outboxStep env s a = some t →
      ∃ w u, outboxStep env t (.finalize w 0) = some u ∧ ¬ NoLostReschedule u.log) := by
  refine ⟨?_, ?_⟩
  · intro s hs
    have hinv : RescheduleInv s :=
      hs.invariant (fun s a t h hok ht => rescheduleInv_step h hok (outboxStep_cases ht))
        (rescheduleInv_start jobs)
    exact hinv.noneLost
  · intro s t a hbad hstep
    exact reschedule_lost_of_finalize hbad hstep 0

end Step

/-- A schedule call of the row in `inboxOk`, then a worker up to its POST. -/
def scheduledAndPosted : List (OutboxAction Bool Unit) :=
  [.lookup () .inbound 1 10, .save () 10, .claim true 20, .bump true 30,
    .read true (fun _ _ => true) inboxOk Table.empty]

/-- The row is patched and re-scheduled while the old text is being POSTed. -/
theorem reschedule_can_be_lost :
    ¬ ∀ (as : List (OutboxAction Bool Unit)) (s : OutboxState Bool Unit),
      exec (outboxStep defaultEnv) (OutboxState.start Table.empty) as = some s →
      NoLostReschedule s.log := by
  intro h
  have hlog : (exec (outboxStep defaultEnv) (OutboxState.start Table.empty)
      (scheduledAndPosted ++ [.lookup () .inbound 1 40, .save () 40, .finalize true 50])).map
        OutboxState.log =
      some [.wrotePending 1, .attemptBegan 1, .wrotePending 1, .delivered 1] := by decide
  obtain ⟨s, hs, hlog⟩ := Option.map_eq_some_iff.mp hlog
  have hno := h _ s hs 1
  rw [hlog] at hno
  obtain ⟨x, hx, _⟩ := hno [.wrotePending 1, .attemptBegan 1] (.wrotePending 1) [] (.delivered 1) []
    rfl rfl rfl
  cases hx

/-- A re-schedule that lands before the POST is delivered by it. -/
theorem no_lost_reschedule_before_post :
    ∃ s : OutboxState Bool Unit, s.log = [.wrotePending 1, .wrotePending 1, .attemptBegan 1,
      .delivered 1] ∧ NoLostReschedule s.log := by
  have hlog : (execIf (outboxStep defaultEnv) SaveOutsideAttempt (OutboxState.start Table.empty)
      [.lookup () .inbound 1 10, .save () 10, .claim true 20, .lookup () .inbound 1 25,
        .save () 25, .bump true 30, .read true (fun _ _ => true) inboxOk Table.empty,
        .finalize true 50]).map OutboxState.log =
      some [.wrotePending 1, .wrotePending 1, .attemptBegan 1, .delivered 1] := by decide
  obtain ⟨s, hs, hlog⟩ := Option.map_eq_some_iff.mp hlog
  exact ⟨s, hlog, (no_lost_reschedule defaultEnv Table.empty).1 s (Reaches.of_execIf hs)⟩

section Step
variable {ω κ : Type}

/-! ## Mutual exclusion -/

/-- No schedule call saves PENDING on a job that a worker holds, and no stale reset
    takes jobs away from their workers. -/
def SaveOutsideHold (s : OutboxState ω κ) : OutboxAction ω κ → Prop
  | .save c _ => ∀ job ∈ (s.caller c).saving?, ∀ w, ∀ job' ∈ (s.worker w).job?, job'.pk ≠ job.pk
  | .resetStale _ => False
  | _ => True

instance [Fintype ω] (s : OutboxState ω κ) (a : OutboxAction ω κ) :
    Decidable (SaveOutsideHold s a) := by
  cases a <;> (unfold SaveOutsideHold; infer_instance)

/-- The row of a held job: PROCESSING, with the foreign keys of the copy. -/
def HeldRow (jobs : JobTable) (job : WebhookDeliveryJob) : Prop :=
  ∃ r ∈ jobs.rows, r.pk = job.pk ∧ r.status = .processing ∧
    r.inboundSmsId = job.inboundSmsId ∧ r.outboundSmsId = job.outboundSmsId

structure ExclusionInv (s : OutboxState ω κ) : Prop where
  exclusive : ∀ w v job job', (s.worker w).job? = some job → (s.worker v).job? = some job' →
    job.pk = job'.pk → w = v
  held : ∀ w job, (s.worker w).job? = some job → HeldRow s.jobs job

theorem heldRow_update_of_ne {jobs : JobTable} {job : WebhookDeliveryJob} {p : Nat}
    (u : RowUpdate WebhookDeliveryJob) (h : HeldRow jobs job) (hp : job.pk ≠ p) :
    HeldRow (jobs.update p u) job := by
  obtain ⟨r, hr, hpk, hrest⟩ := h
  refine ⟨r, ?_, hpk, hrest⟩
  apply Table.mem_update.mpr
  exact Or.inr ⟨hr, by rw [job_pk, hpk]; exact hp⟩

theorem heldRow_update_attempts {jobs : JobTable} {job copy : WebhookDeliveryJob} {p now : Nat}
    (h : HeldRow jobs job) : HeldRow (jobs.update p (saveAttempts copy now)) job := by
  by_cases hp : job.pk = p
  · obtain ⟨r, hr, hpk, hrest⟩ := h
    refine ⟨(saveAttempts copy now).set r, ?_, hpk, hrest⟩
    apply Table.mem_update.mpr
    exact Or.inl ⟨r, hr, by rw [job_pk, hpk]; exact hp, rfl⟩
  · exact heldRow_update_of_ne _ h hp

theorem heldRow_claim {jobs : JobTable} {job : WebhookDeliveryJob} (hj : job ∈ jobs.rows)
    (now : Nat) :
    HeldRow (jobs.update job.pk (saveClaim { job with status := .processing } now))
      { job with status := .processing } := by
  refine ⟨_, Table.mem_update.mpr (Or.inl ⟨job, hj, rfl, rfl⟩), rfl, rfl, rfl, rfl⟩

theorem heldRow_withDeliveryError {jobs : JobTable} {job : WebhookDeliveryJob}
    (h : HeldRow jobs job) (ended : Except Str Bool) :
    HeldRow jobs (withDeliveryError job ended) := by
  unfold withDeliveryError
  split <;> exact h

/-- A worker may go on with a job no other worker holds, if every held row stays. -/
theorem exclusionInv_setWorker [DecidableEq ω] {s : OutboxState ω κ} (h : ExclusionInv s)
    (jobs : JobTable) (w : ω) (p : WorkerPhase)
    (hex : ∀ v job job', v ≠ w → (s.worker v).job? = some job → p.job? = some job' →
      job.pk ≠ job'.pk)
    (hp : ∀ job, p.job? = some job → HeldRow jobs job)
    (hothers : ∀ v job, v ≠ w → (s.worker v).job? = some job → HeldRow jobs job) :
    ExclusionInv ({ s with jobs }.setWorker w p) := by
  refine ⟨?_, ?_⟩
  · intro v v' job job' hv hv' hpk
    rcases setWorker_phase { s with jobs } w v p with ⟨hvw, hq⟩ | ⟨hvw, hq⟩ <;>
      rcases setWorker_phase { s with jobs } w v' p with ⟨hvw', hq'⟩ | ⟨hvw', hq'⟩ <;>
      rw [hq] at hv <;> rw [hq'] at hv'
    · rw [hvw, hvw']
    · exact absurd hpk.symm (hex v' job' job hvw' hv' hv)
    · exact absurd hpk (hex v job job' hvw hv hv')
    · exact h.exclusive v v' job job' hv hv' hpk
  · intro v job hv
    rcases setWorker_phase { s with jobs } w v p with ⟨hvw, hq⟩ | ⟨hvw, hq⟩ <;> rw [hq] at hv
    · exact hp job hv
    · exact hothers v job hvw hv

theorem exclusionInv_record {s : OutboxState ω κ} (h : ExclusionInv s) (b : Bool)
    (e : OutboxEvent) : ExclusionInv (s.record b e) := by
  refine ⟨?_, ?_⟩
  · rw [record_worker]
    exact h.exclusive
  · rw [record_worker, record_jobs]
    exact h.held

/-- The job of a worker is none of the others'. -/
theorem ExclusionInv.ne_of_held {s : OutboxState ω κ} (h : ExclusionInv s) {w : ω}
    {job : WebhookDeliveryJob} (hheld : (s.worker w).job? = some job) :
    ∀ v job', v ≠ w → (s.worker v).job? = some job' → job'.pk ≠ job.pk := by
  intro v job' hvw hv hpk
  exact hvw (h.exclusive v w job' job hv hheld hpk)

/-- A worker lets its job go, and no row of the others changes. -/
theorem exclusionInv_release [DecidableEq ω] {s : OutboxState ω κ} (h : ExclusionInv s)
    (jobs : JobTable) (w : ω)
    (hothers : ∀ v job, v ≠ w → (s.worker v).job? = some job → HeldRow jobs job) :
    ExclusionInv ({ s with jobs }.setWorker w .idle) := by
  refine exclusionInv_setWorker h jobs w .idle ?_ ?_ hothers
  · intro v job' copy _ _ he
    cases he
  · intro job' he
    cases he

/-- A worker claims a job that is PENDING, so no other holds it. -/
theorem exclusionInv_claim [DecidableEq ω] {s : OutboxState ω κ} (h : ExclusionInv s)
    {job : WebhookDeliveryJob} (hj : job ∈ s.jobs.rows) (hs : job.status = .pending) (w : ω)
    (now : Nat) :
    ExclusionInv
      ({ s with jobs := s.jobs.update job.pk
                  (saveClaim { job with status := .processing } now) }.setWorker w
        (.claimed { job with status := .processing })) := by
  have hne : ∀ v job', (s.worker v).job? = some job' → job'.pk ≠ job.pk := by
    intro v job' hv hpk
    obtain ⟨r, hr, hrpk, hrs, _⟩ := h.held v job' hv
    have hrj : r = job := s.jobs.pk_injOn hr hj (hrpk.trans hpk)
    rw [hrj, hs] at hrs
    exact JobStatus.noConfusion hrs
  refine exclusionInv_setWorker h _ _ _ ?_ ?_ ?_
  · intro v job' copy _ hv he
    cases he
    exact hne v job' hv
  · intro job' he
    cases he
    exact heldRow_claim hj now
  · intro v job' _ hv
    exact heldRow_update_of_ne _ (h.held v job' hv) (hne v job' hv)

theorem exclusionInv_step [DecidableEq ω] [DecidableEq κ] {env : WebhookEnv}
    {s t : OutboxState ω κ} {a : OutboxAction ω κ} (h : ExclusionInv s)
    (hok : SaveOutsideHold s a) (hmove : OutboxMove env s a t) : ExclusionInv t := by
  cases hmove with
  | @lookup c kind smsPk now hc =>
    apply exclusionInv_record
    refine ⟨h.exclusive, ?_⟩
    intro w job hw
    obtain ⟨r, hr, hrest⟩ := h.held w job hw
    exact ⟨r, Table.mem_getOrCreate_of_mem hr, hrest⟩
  | @save c now job created hc =>
    apply exclusionInv_record
    refine ⟨h.exclusive, ?_⟩
    intro w job' hw
    have hrow := h.held w job' hw
    show HeldRow (scheduleSave s.jobs job created now) job'
    unfold scheduleSave
    split
    · next hsaves => exact heldRow_update_of_ne _ hrow (hok job (saving_looked hc hsaves) w job' hw)
    · exact hrow
  | claimNone hw => exact h
  | @claim w now job hw hj hs => exact exclusionInv_claim h hj hs w now
  | @bump w now job hw =>
    have hheld : (s.worker w).job? = some job := by rw [hw]; rfl
    refine exclusionInv_setWorker h _ _ _ ?_ ?_ ?_
    · intro v job' copy hvw hv he
      cases he
      exact h.ne_of_held hheld v job' hvw hv
    · intro job' he
      cases he
      exact heldRow_update_attempts (h.held w job hheld)
    · intro v job' _ hv
      exact heldRow_update_attempts (h.held v job' hv)
  | @read w http inbound outbound job hw =>
    have hheld : (s.worker w).job? = some job := by rw [hw]; rfl
    apply exclusionInv_record
    refine exclusionInv_setWorker h s.jobs _ _ ?_ ?_ ?_
    · intro v job' copy hvw hv he
      cases he
      rw [withDeliveryError_pk]
      exact h.ne_of_held hheld v job' hvw hv
    · intro job' he
      cases he
      exact heldRow_withDeliveryError (h.held w job hheld) _
    · intro v job' _ hv
      exact h.held v job' hv
  | @finalize w now job ok hw =>
    have hheld : (s.worker w).job? = some job := by rw [hw]; rfl
    apply exclusionInv_record
    apply exclusionInv_release h
    intro v job' hvw hv
    apply heldRow_update_of_ne _ (h.held v job' hv)
    rw [finalized_pk]
    exact h.ne_of_held hheld v job' hvw hv
  | @abort w hw =>
    apply exclusionInv_release h s.jobs
    intro v job' _ hv
    exact h.held v job' hv
  | resetStale => exact False.elim hok

theorem exclusionInv_start (jobs : JobTable) :
    ExclusionInv (OutboxState.start jobs : OutboxState ω κ) := by
  refine ⟨?_, ?_⟩
  · intro w v job job' hw
    cases hw
  · intro w job hw
    cases hw

theorem exclusionInv_reaches [DecidableEq ω] [DecidableEq κ] {env : WebhookEnv} {jobs : JobTable}
    {s : OutboxState ω κ} (h : Reaches (outboxStep env) SaveOutsideHold (OutboxState.start jobs) s) :
    ExclusionInv s :=
  h.invariant (fun _ _ _ hinv hok ht => exclusionInv_step hinv hok (outboxStep_cases ht))
    (exclusionInv_start jobs)

/-- Two held jobs of one SMS are one job, since the foreign keys are one-to-one. -/
theorem pk_eq_of_smsId {jobs : JobTable} {job job' : WebhookDeliveryJob}
    (h : HeldRow jobs job) (h' : HeldRow jobs job') (hkind : job.kind = job'.kind)
    (hsms : smsIdOf job.kind job = smsIdOf job'.kind job') (hne : smsIdOf job.kind job ≠ none) :
    job.pk = job'.pk := by
  obtain ⟨r, hr, hpk, -, hin, hout⟩ := h
  obtain ⟨r', hr', hpk', -, hin', hout'⟩ := h'
  have hclash : (r.inboundSmsId = r'.inboundSmsId ∧ r.inboundSmsId ≠ none) ∨
      (r.outboundSmsId = r'.outboundSmsId ∧ r.outboundSmsId ≠ none) := by
    rw [hin, hout, hin', hout']
    rw [← hkind] at hsms
    cases hk : job.kind
    · rw [hk] at hsms hne
      exact Or.inl ⟨hsms, hne⟩
    · rw [hk] at hsms hne
      exact Or.inr ⟨hsms, hne⟩
  have hrr : r = r' := jobs.eq_of_clash hr hr' hclash
  rw [← hpk, ← hpk', hrr]

/-- Where no schedule call saves PENDING on a held job, no job is held by two workers,
    and no two workers hold a job of the same SMS. -/
theorem jobs_mutually_exclusive [DecidableEq ω] [DecidableEq κ] (env : WebhookEnv)
    (jobs : JobTable) (s : OutboxState ω κ)
    (h : Reaches (outboxStep env) SaveOutsideHold (OutboxState.start jobs) s) :
    (∀ w v, ∀ job ∈ (s.worker w).job?, ∀ job' ∈ (s.worker v).job?, job.pk = job'.pk → w = v) ∧
    (∀ w v, ∀ job ∈ (s.worker w).job?, ∀ job' ∈ (s.worker v).job?, job.kind = job'.kind →
      smsIdOf job.kind job = smsIdOf job'.kind job' → smsIdOf job.kind job ≠ none → w = v) := by
  have hinv := exclusionInv_reaches h
  refine ⟨?_, ?_⟩
  · intro w v job hw job' hv hpk
    exact hinv.exclusive w v job job' hw hv hpk
  · intro w v job hw job' hv hkind hsms hne
    apply hinv.exclusive w v job job' hw hv
    exact pk_eq_of_smsId (hinv.held w job hw) (hinv.held v job' hv) hkind hsms hne

/-- A save of PENDING on a held job makes its row one that a claim selects from. -/
theorem claimable_of_save_during_hold [DecidableEq ω] [DecidableEq κ] {env : WebhookEnv}
    {s t : OutboxState ω κ} {c : κ} {now : Nat} (hinv : ExclusionInv s)
    (hbad : ¬ SaveOutsideHold s (.save c now)) (hstep : outboxStep env s (.save c now) = some t) :
    ∃ w, ∃ job ∈ (t.worker w).job?, ∃ r ∈ t.jobs.rows, r.pk = job.pk ∧ r.status = .pending := by
  simp only [SaveOutsideHold, not_forall, not_not] at hbad
  obtain ⟨job, hsaving, w, job', hw, hpk⟩ := hbad
  obtain ⟨created, hc, hsaves⟩ := looked_of_saving hsaving
  simp only [outboxStep, hc, Option.some.injEq] at hstep
  obtain ⟨r, hr, hrpk, -⟩ := hinv.held w job' hw
  refine ⟨w, job', ?_, (saveStatus (toPending job) now).set r, ?_, hrpk, rfl⟩
  · rw [← hstep, record_worker]
    exact hw
  · rw [← hstep, record_jobs, setCaller_jobs]
    show _ ∈ (scheduleSave s.jobs job created now).rows
    rw [scheduleSave, if_pos hsaves]
    apply Table.mem_update.mpr
    exact Or.inl ⟨r, hr, hrpk.trans hpk, rfl⟩

end Step

/-- A row re-scheduled while its job is in a worker's hands is claimed a second time. -/
theorem job_can_be_held_twice :
    ¬ ∀ (as : List (OutboxAction Bool Unit)) (s : OutboxState Bool Unit),
      exec (outboxStep defaultEnv) (OutboxState.start Table.empty) as = some s →
      ∀ w v, ∀ job ∈ (s.worker w).job?, ∀ job' ∈ (s.worker v).job?, job.pk = job'.pk → w = v := by
  intro h
  have hheld : (exec (outboxStep defaultEnv) (OutboxState.start Table.empty)
      (scheduledAndPosted ++ [.lookup () .inbound 1 40, .save () 40, .claim false 50])).map
        (fun s => ((s.worker true).job?.map (·.pk), (s.worker false).job?.map (·.pk))) =
      some (some 1, some 1) := by decide
  obtain ⟨s, hs, hheld⟩ := Option.map_eq_some_iff.mp hheld
  obtain ⟨htrue, hfalse⟩ := Prod.mk.injEq _ _ _ _ ▸ hheld
  obtain ⟨job, hjob, hpk⟩ := Option.map_eq_some_iff.mp htrue
  obtain ⟨job', hjob', hpk'⟩ := Option.map_eq_some_iff.mp hfalse
  exact Bool.noConfusion (h _ s hs true false job hjob job' hjob' (hpk.trans hpk'.symm))

/-- Two workers with two SMS at a time, and a re-schedule after the first is done. -/
theorem jobs_mutually_exclusive_two_workers :
    ∃ s : OutboxState Bool Unit,
      ((s.worker true).job?.map (·.pk), (s.worker false).job?.map (·.pk)) = (some 1, some 2) ∧
      ∀ w v, ∀ job ∈ (s.worker w).job?, ∀ job' ∈ (s.worker v).job?, job.pk = job'.pk → w = v := by
  have hheld : (execIf (outboxStep defaultEnv) SaveOutsideHold (OutboxState.start Table.empty)
      (scheduledAndPosted ++ [.lookup () .outbound 7 35, .save () 35, .claim false 36])).map
        (fun s => ((s.worker true).job?.map (·.pk), (s.worker false).job?.map (·.pk))) =
      some (some 1, some 2) := by decide
  obtain ⟨s, hs, hheld⟩ := Option.map_eq_some_iff.mp hheld
  exact ⟨s, hheld, (jobs_mutually_exclusive defaultEnv Table.empty s (Reaches.of_execIf hs)).1⟩

end HiWaveTel
