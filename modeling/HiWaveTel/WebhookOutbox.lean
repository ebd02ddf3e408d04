import HiWaveTel.InboundFilters
import Mathlib.Data.Prod.Lex

/- The durable webhook outbox (`webhook_outbox.py`) and the HTTP delivery it calls
   (`webhook_delivery.py`). Every database statement is its own definition: the
   lookup and the status save of a schedule call, the claim transaction, and the
   bump, the delivery and the final save of a processing worker. The last three
   work on the job the worker read when it claimed it, and a save writes only its
   `update_fields` from that copy. -/
namespace HiWaveTel
open Foundation

/-- An UPDATE of a job that leaves its key and its foreign keys alone. -/
def jobUpdate (f : WebhookDeliveryJob → WebhookDeliveryJob)
    (h : ∀ j, (f j).pk = j.pk ∧ (f j).inboundSmsId = j.inboundSmsId ∧
      (f j).outboundSmsId = j.outboundSmsId) : RowUpdate WebhookDeliveryJob where
  set := f
  pk_set j := (h j).1
  clash_left r s := by
    show (_ ∧ _) ∨ (_ ∧ _) ↔ (_ ∧ _) ∨ (_ ∧ _)
    rw [(h r).2.1, (h r).2.2]
  clash_right r s := by
    show (_ ∧ _) ∨ (_ ∧ _) ↔ (_ ∧ _) ∨ (_ ∧ _)
    rw [(h s).2.1, (h s).2.2]

/-- `save(update_fields=['status', 'last_error', 'updated_at'])`. -/
def saveStatus (job : WebhookDeliveryJob) (now : Nat) : RowUpdate WebhookDeliveryJob :=
  jobUpdate (fun j => { j with status := job.status, lastError := job.lastError, updatedAt := now })
    (fun _ => ⟨rfl, rfl, rfl⟩)

/-- `save(update_fields=['status', 'updated_at'])`. -/
def saveClaim (job : WebhookDeliveryJob) (now : Nat) : RowUpdate WebhookDeliveryJob :=
  jobUpdate (fun j => { j with status := job.status, updatedAt := now })
    (fun _ => ⟨rfl, rfl, rfl⟩)

/-- `save(update_fields=['attempts', 'updated_at'])`. -/
def saveAttempts (job : WebhookDeliveryJob) (now : Nat) : RowUpdate WebhookDeliveryJob :=
  jobUpdate (fun j => { j with attempts := job.attempts, updatedAt := now })
    (fun _ => ⟨rfl, rfl, rfl⟩)

/-- `save(update_fields=['status', 'delivered_at', 'last_error', 'updated_at'])`. -/
def saveDelivered (job : WebhookDeliveryJob) (now : Nat) : RowUpdate WebhookDeliveryJob :=
  jobUpdate (fun j => { j with status := job.status, deliveredAt := job.deliveredAt,
                               lastError := job.lastError, updatedAt := now })
    (fun _ => ⟨rfl, rfl, rfl⟩)

abbrev JobTable := Table WebhookDeliveryJob

/-! ## schedule_inbound_webhook, schedule_outbound_webhook -/

/-- The foreign key a job of this kind uses. -/
def smsIdOf (kind : JobKind) (j : WebhookDeliveryJob) : Option Nat :=
  match kind with
  | .inbound => j.inboundSmsId
  | .outbound => j.outboundSmsId

def newJob (kind : JobKind) (smsPk now : Nat) : NewRow WebhookDeliveryJob where
  sought j := smsIdOf kind j == some smsPk
  make n :=
    { pk := n, kind, inboundSmsId := if kind = .inbound then some smsPk else none,
      outboundSmsId := if kind = .outbound then some smsPk else none, status := .pending,
      attempts := 0, lastError := [], createdAt := now, updatedAt := now, deliveredAt := none }
  pk_make _ := rfl
  sought_make n := by cases kind <;> simp [smsIdOf]
  clash_sought r n h := by
    have h : (r.inboundSmsId = (if kind = .inbound then some smsPk else none) ∧ r.inboundSmsId ≠ none) ∨
        (r.outboundSmsId = (if kind = .outbound then some smsPk else none) ∧ r.outboundSmsId ≠ none) := h
    cases kind
    · rcases h with h | h
      · simp [smsIdOf, h.1]
      · simp [h.1] at h
    · rcases h with h | h
      · simp [h.1] at h
      · simp [smsIdOf, h.1]

/-- The get_or_create of `_schedule`. -/
def scheduleLookup (kind : JobKind) (jobs : JobTable) (smsPk now : Nat) :
    JobTable × WebhookDeliveryJob × Bool :=
  jobs.getOrCreate (newJob kind smsPk now)

/-- `not created and job.status != DELIVERED`, read off the copy. -/
def scheduleSaves (job : WebhookDeliveryJob) (created : Bool) : Bool :=
  !created && job.status != .delivered

/-- What `_schedule` makes of the copy before it saves it. -/
def toPending (job : WebhookDeliveryJob) : WebhookDeliveryJob :=
  { job with status := .pending, lastError := [] }

/-- The status save of `_schedule`. -/
def scheduleSave (jobs : JobTable) (job : WebhookDeliveryJob) (created : Bool) (now : Nat) :
    JobTable :=
  if scheduleSaves job created then jobs.update job.pk (saveStatus (toPending job) now) else jobs

/-- A whole `schedule_*_webhook` call. -/
def scheduleWebhook (kind : JobKind) (jobs : JobTable) (smsPk now : Nat) : JobTable :=
  let (jobs', job, created) := scheduleLookup kind jobs smsPk now
  scheduleSave jobs' job created now

def scheduleInboundWebhook (jobs : JobTable) (inboundPk now : Nat) : JobTable :=
  scheduleWebhook .inbound jobs inboundPk now

def scheduleOutboundWebhook (jobs : JobTable) (outboundPk now : Nat) : JobTable :=
  scheduleWebhook .outbound jobs outboundPk now

/-- `reset_stale_processing_jobs`, with the cutoff it computes. -/
def resetStaleProcessingJobs (jobs : JobTable) (cutoff : Nat) : JobTable :=
  jobs.updateWhere (fun j => j.status == .processing && decide (j.updatedAt < cutoff))
    (jobUpdate (fun j => { j with status := .pending,
                                  lastError := "Reset stale processing job".toList })
      (fun _ => ⟨rfl, rfl, rfl⟩))

/-! ## claim_next_job -/

/-- `.filter(status=PENDING).order_by('created_at', 'pk').first()`. -/
def oldestPending (jobs : JobTable) : Option WebhookDeliveryJob :=
  (jobs.rows.filter (fun j => j.status == .pending)).argmin (fun j => toLex (j.createdAt, j.pk))

/-- The claim, one serialisable transaction: the job returned is the copy. -/
def claimNextJob (jobs : JobTable) (now : Nat) : JobTable × Option WebhookDeliveryJob :=
  match oldestPending jobs with
  | none => (jobs, none)
  | some job =>
    let job := { job with status := .processing }
    (jobs.update job.pk (saveClaim job now), some job)

/-! ## HTTP delivery -/

/-- The JSON object that is POSTed. -/
structure Payload where
  id : Nat
  sender : Str
  body : Str
  modemIndex : Nat
  receivedAt : Nat
  mmState : Str
  deriving DecidableEq, Repr

def buildInboundWebhookPayload (r : InboundSms) : Payload :=
  ⟨r.pk, r.fromNumber, r.text, r.modemIndex, r.createdAt, r.mmState⟩

def buildOutboundWebhookPayload (o : OutboundSms) : Payload :=
  ⟨o.pk, "me".toList, o.text, o.modemIndex, o.updatedAt, "sended".toList⟩

/-- One POST request: which delivery function made it, to which URL, with what. -/
structure Post where
  kind : JobKind
  url : Str
  payload : Payload
  deriving DecidableEq, Repr

/-- The answers of the endpoints: URL and attempt number to "answered 2xx". -/
abbrev Http := Str → Nat → Bool

/-- The attempts at one URL: how many were made and whether the last one succeeded. -/
def postUntilOk (answers : Nat → Bool) : Nat → Nat → Nat × Bool
  | 0, _ => (0, false)
  | n + 1, attempt =>
    if answers attempt then (1, true)
    else ((postUntilOk answers n (attempt + 1)).1 + 1, (postUntilOk answers n (attempt + 1)).2)

/-- `_deliver_payload_to_urls`: the POSTs it makes and whether all URLs succeeded. -/
def deliverPayloadToUrls (kind : JobKind) (payload : Payload) (retryMax : Nat) (http : Http) :
    List Str → List Post × Bool
  | [] => ([], true)
  | url :: urls =>
    let (count, ok) := postUntilOk (http url) retryMax 0
    let (posts, allOk) := deliverPayloadToUrls kind payload retryMax http urls
    (List.replicate count ⟨kind, url, payload⟩ ++ posts, ok && allOk)

/-- Settings, and the InboundWebhook table as `get_active_webhook_urls` reads it. -/
structure WebhookEnv where
  activeUrls : Nat → List Str
  retryMax : Nat
  maxAttempts : Nat

/-- The default settings, with one active webhook. -/
def defaultEnv : WebhookEnv :=
  { activeUrls := fun _ => ["http://app.local/sms".toList], retryMax := 5, maxAttempts := 10 }

def deliverInboundWebhooks (env : WebhookEnv) (http : Http) (r : InboundSms) : List Post × Bool :=
  deliverPayloadToUrls .inbound (buildInboundWebhookPayload r) env.retryMax http
    (env.activeUrls r.modemIndex)

def deliverOutboundWebhooks (env : WebhookEnv) (http : Http) (o : OutboundSms) :
    List Post × Bool :=
  deliverPayloadToUrls .outbound (buildOutboundWebhookPayload o) env.retryMax http
    (env.activeUrls o.modemIndex)

/-! ## process_webhook_job -/

/-- `_bump_attempts` on the copy. -/
def bumpAttempts (job : WebhookDeliveryJob) : WebhookDeliveryJob :=
  { job with attempts := job.attempts + 1 }

/-- The delivery of a job: its POSTs, whether it succeeded, and the error it leaves. -/
def deliverJob (env : WebhookEnv) (http : Http) (inbound : Table InboundSms)
    (outbound : Table OutboundSms) (job : WebhookDeliveryJob) : List Post × Except Str Bool :=
  match job.kind with
  | .inbound =>
    match job.inboundSmsId with
    | none => ([], .error "Inbound webhook job missing inbound_sms".toList)
    | some p =>
      match inbound.get? p with
      | none => ([], .error "InboundSms matching query does not exist.".toList)
      | some r => ((deliverInboundWebhooks env http r).1, .ok (deliverInboundWebhooks env http r).2)
  | .outbound =>
    match job.outboundSmsId with
    | none => ([], .error "Outbound webhook job missing outbound_sms".toList)
    | some p =>
      match outbound.get? p with
      | none => ([], .error "OutboundSms matching query does not exist.".toList)
      | some o => ((deliverOutboundWebhooks env http o).1, .ok (deliverOutboundWebhooks env http o).2)

/-- `ok`, from how the delivery ended. -/
def deliveryOk : Except Str Bool → Bool
  | .ok ok => ok
  | .error _ => false

/-- `job.last_error` as set before `_finalize`. -/
def withDeliveryError (job : WebhookDeliveryJob) (ended : Except Str Bool) : WebhookDeliveryJob :=
  match ended with
  | .ok true => job
  | .ok false => { job with lastError := "One or more webhook URLs failed".toList }
  | .error e => { job with lastError := e.take 2000 }

/-- `_finalize` on the copy. -/
def finalized (env : WebhookEnv) (job : WebhookDeliveryJob) (ok : Bool) (now : Nat) :
    WebhookDeliveryJob :=
  if ok then { job with status := .delivered, deliveredAt := some now, lastError := [] }
  else if env.maxAttempts ≤ job.attempts then { job with status := .failed }
  else { job with status := .pending }

/-- The save of `_finalize`. -/
def finalizeSave (env : WebhookEnv) (jobs : JobTable) (job : WebhookDeliveryJob) (ok : Bool)
    (now : Nat) : JobTable :=
  let job' := finalized env job ok now
  jobs.update job'.pk (if ok then saveDelivered job' now else saveStatus job' now)

/-- A whole `process_webhook_job` call: the job table afterwards and the POSTs made. -/
def processWebhookJob (env : WebhookEnv) (http : Http) (inbound : Table InboundSms)
    (outbound : Table OutboundSms) (jobs : JobTable) (job : WebhookDeliveryJob) (now : Nat) :
    JobTable × List Post :=
  let job := bumpAttempts job
  let jobs := jobs.update job.pk (saveAttempts job now)
  let (posts, ended) := deliverJob env http inbound outbound job
  (finalizeSave env jobs (withDeliveryError job ended) (deliveryOk ended) now, posts)

/-! ## What the saves write -/

@[simp] theorem finalized_pk (env : WebhookEnv) (job : WebhookDeliveryJob) (ok : Bool) (now : Nat) :
    (finalized env job ok now).pk = job.pk := by
  unfold finalized
  split_ifs <;> rfl

theorem finalized_status (env : WebhookEnv) (job : WebhookDeliveryJob) (ok : Bool) (now : Nat) :
    (finalized env job ok now).status ≠ .processing := by
  unfold finalized
  split_ifs <;> exact JobStatus.noConfusion

@[simp] theorem withDeliveryError_pk (job : WebhookDeliveryJob) (ended : Except Str Bool) :
    (withDeliveryError job ended).pk = job.pk := by
  unfold withDeliveryError
  split <;> rfl

/-- An UPDATE that leaves kind and foreign key alone. -/
def KeepsSms (u : RowUpdate WebhookDeliveryJob) : Prop :=
  ∀ j, (u.set j).inboundSmsId = j.inboundSmsId ∧ (u.set j).kind = j.kind

theorem keepsSms_saveStatus (job : WebhookDeliveryJob) (now : Nat) : KeepsSms (saveStatus job now) :=
  fun _ => ⟨rfl, rfl⟩

theorem keepsSms_saveClaim (job : WebhookDeliveryJob) (now : Nat) : KeepsSms (saveClaim job now) :=
  fun _ => ⟨rfl, rfl⟩

theorem keepsSms_saveAttempts (job : WebhookDeliveryJob) (now : Nat) :
    KeepsSms (saveAttempts job now) := fun _ => ⟨rfl, rfl⟩

/-- The job a claim takes is pending in the table. -/
theorem oldestPending_mem {jobs : JobTable} {job : WebhookDeliveryJob}
    (h : oldestPending jobs = some job) : job ∈ jobs.rows ∧ job.status = .pending := by
  have hm := List.argmin_mem (Option.mem_def.mpr h)
  simpa using List.mem_filter.mp hm

/-- A claim changes nothing, or turns one pending job into a processing one. -/
theorem claimNextJob_cases (jobs : JobTable) (now : Nat) :
    claimNextJob jobs now = (jobs, none) ∨
    ∃ job, job ∈ jobs.rows ∧ job.status = .pending ∧
      claimNextJob jobs now = (jobs.update job.pk (saveClaim { job with status := .processing } now),
        some { job with status := .processing }) := by
  unfold claimNextJob
  cases h : oldestPending jobs with
  | none => exact Or.inl rfl
  | some job =>
    obtain ⟨hm, hs⟩ := oldestPending_mem h
    exact Or.inr ⟨job, hm, hs, rfl⟩

/-- What a whole schedule call does: a new job, nothing to a delivered one, or PENDING. -/
theorem scheduleWebhook_cases (kind : JobKind) (jobs : JobTable) (smsPk now : Nat) :
    (∃ h, scheduleWebhook kind jobs smsPk now = jobs.insert (newJob kind smsPk now) h) ∨
    (∃ j ∈ jobs.rows, smsIdOf kind j = some smsPk ∧
      ((j.status = .delivered ∧ scheduleWebhook kind jobs smsPk now = jobs) ∨
        (j.status ≠ .delivered ∧ scheduleWebhook kind jobs smsPk now =
          jobs.update j.pk (saveStatus (toPending j) now)))) := by
  unfold scheduleWebhook scheduleLookup
  rcases jobs.getOrCreate_cases (newJob kind smsPk now) with ⟨j, hj, he⟩ | ⟨h, he⟩
  · have hsms : smsIdOf kind j = some smsPk := by simpa [newJob] using List.find?_some hj
    rw [he]
    refine Or.inr ⟨j, List.mem_of_find?_eq_some hj, hsms, ?_⟩
    show (_ ∧ scheduleSave jobs j false now = jobs) ∨ (_ ∧ scheduleSave jobs j false now = _)
    by_cases hd : j.status = .delivered
    · exact Or.inl ⟨hd, by simp [scheduleSave, scheduleSaves, hd]⟩
    · exact Or.inr ⟨hd, by simp [scheduleSave, scheduleSaves, hd]⟩
  · rw [he]
    exact Or.inl ⟨h, rfl⟩

/-- The job `p` is DELIVERED. -/
def IsDelivered (p : Nat) (jobs : JobTable) : Prop :=
  ∃ j ∈ jobs.rows, j.pk = p ∧ j.status = .delivered

instance (p : Nat) (jobs : JobTable) : Decidable (IsDelivered p jobs) :=
  inferInstanceAs (Decidable (∃ j ∈ jobs.rows, _))

/-! ## The POSTs of a delivery -/

/-- All POSTs of a delivery carry its payload. -/
theorem mem_deliverPayloadToUrls {kind : JobKind} {payload : Payload} {retryMax : Nat} {http : Http}
    {urls : List Str} {q : Post}
    (h : q ∈ (deliverPayloadToUrls kind payload retryMax http urls).1) :
    q.kind = kind ∧ q.payload = payload := by
  induction urls with
  | nil => cases h
  | cons url urls ih =>
    rcases List.mem_append.mp h with h | h
    · rw [List.eq_of_mem_replicate h]
      exact ⟨rfl, rfl⟩
    · exact ih h

theorem postUntilOk_pos {answers : Nat → Bool} {n attempt : Nat}
    (h : (postUntilOk answers n attempt).2 = true) : 0 < (postUntilOk answers n attempt).1 := by
  cases n with
  | zero => exact absurd h (by simp [postUntilOk])
  | succ n =>
    unfold postUntilOk
    split
    · exact Nat.one_pos
    · exact Nat.succ_pos _

/-- A delivery that succeeds at some URL has POSTed. -/
theorem deliverPayloadToUrls_ne_nil {kind : JobKind} {payload : Payload} {retryMax : Nat}
    {http : Http} {urls : List Str} (hurls : urls ≠ [])
    (hok : (deliverPayloadToUrls kind payload retryMax http urls).2 = true) :
    (deliverPayloadToUrls kind payload retryMax http urls).1 ≠ [] := by
  cases urls with
  | nil => exact absurd rfl hurls
  | cons url urls =>
    have hfirst : (postUntilOk (http url) retryMax 0).2 = true := (Bool.and_eq_true_iff.mp hok).1
    have hpos := postUntilOk_pos hfirst
    intro hnil
    have hreplicate := (List.append_eq_nil_iff.mp hnil).1
    rw [List.replicate_eq_nil_iff] at hreplicate
    omega

/-- The POSTs of an INBOUND job carry the row its foreign key names. -/
theorem mem_deliverJob {env : WebhookEnv} {http : Http} {inbound : Table InboundSms}
    {outbound : Table OutboundSms} (job : WebhookDeliveryJob) {p : Nat} (hkind : job.kind = .inbound)
    (hsms : job.inboundSmsId = some p) {q : Post}
    (h : q ∈ (deliverJob env http inbound outbound job).1) :
    ∃ r, inbound.get? p = some r ∧ q.kind = .inbound ∧ q.payload = buildInboundWebhookPayload r := by
  simp only [deliverJob, hkind, hsms] at h
  split at h
  · cases h
  · next r hr => exact ⟨r, hr, mem_deliverPayloadToUrls h⟩

/-- An INBOUND job that succeeds has POSTed its row, if the modem has a webhook at all. -/
theorem deliverJob_ok {env : WebhookEnv} {http : Http} {inbound : Table InboundSms}
    {outbound : Table OutboundSms} (job : WebhookDeliveryJob) {p : Nat} (hkind : job.kind = .inbound)
    (hsms : job.inboundSmsId = some p)
    (hok : deliveryOk (deliverJob env http inbound outbound job).2 = true) :
    ∃ r, inbound.get? p = some r ∧
      (env.activeUrls r.modemIndex ≠ [] → (deliverJob env http inbound outbound job).1 ≠ []) := by
  simp only [deliverJob, hkind, hsms] at hok ⊢
  split at hok
  · cases hok
  · next r hr =>
    refine ⟨r, hr, ?_⟩
    intro hurls
    exact deliverPayloadToUrls_ne_nil hurls hok

end HiWaveTel
