import HiWaveTel.Persist
import HiWaveTel.Foundation.Run

/- How fresh a delivered webhook is. Persists of any paths are interleaved, as atomic
   steps, with the claims and the processing of one webhook worker, and the POSTs are
   logged.

   `delivered_row_was_posted` — when the job of a row is DELIVERED, the last payload
   POSTed for the row is the row as it was at the processing step that delivered the job;
   from then on the job stays DELIVERED and nothing is POSTed for the row, whatever a
   later snapshot patches: `schedule_inbound_webhook` leaves a delivered job alone.
   So a text that is patched after the delivery is not delivered
   (`delivered_text_can_be_outdated`). -/
namespace HiWaveTel
open Foundation

structure FreshState where
  world : World
  held : Option WebhookDeliveryJob     -- the job the worker has claimed
  posts : List Post

inductive FreshAction where
  | persist (mmPath : Str) (modemIndex now : Nat) (fetched : Fetched)
  | claim (now : Nat)
  | process (now : Nat) (http : Http)

def freshStep (env : WebhookEnv) (s : FreshState) : FreshAction → Option FreshState
  | .persist mmPath modemIndex now fetched =>
    some { s with world := (persistFetched [] s.world mmPath modemIndex now fetched).1 }
  | .claim now =>
    match s.held with
    | none =>
      let (jobs, held) := claimNextJob s.world.jobs now
      some { s with world := { s.world with jobs }, held }
    | some _ => none
  | .process now http =>
    match s.held with
    | some job =>
      let (jobs, posts) :=
        processWebhookJob env http s.world.inbound s.world.outbound s.world.jobs job now
      some { world := { s.world with jobs }, held := none, posts := s.posts ++ posts }
    | none => none

/-- Any messages and no webhook work yet. -/
def FreshState.start (inbound : Table InboundSms) (outbound : Table OutboundSms)
    (dlq : Option DlqTable) : FreshState := ⟨⟨inbound, outbound, Table.empty, dlq⟩, none, []⟩

/-- The job of the row with key `pk` is DELIVERED. -/
def DeliveredFor (jobs : JobTable) (pk : Nat) : Prop :=
  ∃ j ∈ jobs.rows, j.inboundSmsId = some pk ∧ j.status = .delivered

/-- The POSTs made for the row with key `pk`. -/
def postsFor (pk : Nat) (posts : List Post) : List Post :=
  posts.filter (fun q => q.kind == .inbound && q.payload.id == pk)

def lastPosted (pk : Nat) (posts : List Post) : Option Payload :=
  (postsFor pk posts).getLast?.map Post.payload

/-- After POSTs of the row `r` the last payload of its key is that of `r`. -/
theorem lastPosted_append {r : InboundSms} {pk : Nat} {old new : List Post} (hpk : r.pk = pk)
    (hall : ∀ q ∈ new, q.kind = .inbound ∧ q.payload = buildInboundWebhookPayload r)
    (hne : new ≠ []) : lastPosted pk (old ++ new) = some (buildInboundWebhookPayload r) := by
  have hself : new.filter (fun q => q.kind == .inbound && q.payload.id == pk) = new := by
    apply List.filter_eq_self.mpr
    intro q hq
    obtain ⟨hkind, hpayload⟩ := hall q hq
    rw [hkind, hpayload]
    simpa [buildInboundWebhookPayload] using hpk
  have hlast : (postsFor pk (old ++ new)).getLast? = some (new.getLast hne) := by
    unfold postsFor
    rw [List.filter_append, hself, List.getLast?_append, List.getLast?_eq_some_getLast hne]
    rfl
  rw [lastPosted, hlast, Option.map_some, (hall _ (List.getLast_mem hne)).2]

/-! ## Deliveries in the job table -/

/-- All jobs are of kind INBOUND and name a row. -/
def InboundJobs (jobs : JobTable) : Prop :=
  ∀ j ∈ jobs.rows, j.kind = .inbound ∧ ∃ pk, j.inboundSmsId = some pk

/-- The row of a claimed job, which is not DELIVERED. -/
def ClaimedRow (jobs : JobTable) (job : WebhookDeliveryJob) : Prop :=
  ∃ r ∈ jobs.rows, r.pk = job.pk ∧ r.inboundSmsId = job.inboundSmsId ∧ r.kind = job.kind ∧
    r.status ≠ .delivered

theorem inboundJobs_update {jobs : JobTable} (h : InboundJobs jobs) (p : Nat)
    {u : RowUpdate WebhookDeliveryJob} (hu : KeepsSms u) : InboundJobs (jobs.update p u) := by
  intro j hj
  rcases Table.mem_update.mp hj with ⟨s, hs, _, rfl⟩ | ⟨hj, _⟩
  · rw [(hu s).1, (hu s).2]
    exact h s hs
  · exact h j hj

theorem deliveredFor_update {jobs : JobTable} {j₀ : WebhookDeliveryJob} (hj₀ : j₀ ∈ jobs.rows)
    (hnot : j₀.status ≠ .delivered) {u : RowUpdate WebhookDeliveryJob} (hu : KeepsSms u) (pk : Nat) :
    DeliveredFor (jobs.update j₀.pk u) pk ↔
      DeliveredFor jobs pk ∨ (j₀.inboundSmsId = some pk ∧ (u.set j₀).status = .delivered) := by
  refine ⟨?_, ?_⟩
  · intro h
    obtain ⟨j, hj, hsms, hd⟩ := h
    rcases Table.mem_update.mp hj with ⟨s, hs, hpk, rfl⟩ | ⟨hj, _⟩
    · have hsj : s = j₀ := jobs.pk_injOn hs hj₀ hpk
      subst hsj
      rw [(hu s).1] at hsms
      exact Or.inr ⟨hsms, hd⟩
    · exact Or.inl ⟨j, hj, hsms, hd⟩
  · intro h
    rcases h with ⟨j, hj, hsms, hd⟩ | ⟨hsms, hd⟩
    · have hne : j.pk ≠ j₀.pk := by
        intro hpk
        have hjj : j = j₀ := jobs.pk_injOn hj hj₀ hpk
        exact hnot (hjj ▸ hd)
      exact ⟨j, Table.mem_update.mpr (Or.inr ⟨hj, hne⟩), hsms, hd⟩
    · refine ⟨u.set j₀, Table.mem_update.mpr (Or.inl ⟨j₀, hj₀, rfl, rfl⟩), ?_, hd⟩
      rw [(hu j₀).1]
      exact hsms

/-- One row per SMS: a delivered job is the only job of its row. -/
theorem not_deliveredFor {jobs : JobTable} {j₀ : WebhookDeliveryJob} {pk : Nat}
    (hj₀ : j₀ ∈ jobs.rows) (hsms₀ : j₀.inboundSmsId = some pk) (hnot : j₀.status ≠ .delivered) :
    ¬ DeliveredFor jobs pk := by
  intro h
  obtain ⟨j, hj, hsms, hd⟩ := h
  have hclash : (j.inboundSmsId = j₀.inboundSmsId ∧ j.inboundSmsId ≠ none) ∨
      (j.outboundSmsId = j₀.outboundSmsId ∧ j.outboundSmsId ≠ none) := by
    rw [hsms, hsms₀]
    exact Or.inl ⟨rfl, Option.some_ne_none pk⟩
  have hjj : j = j₀ := jobs.eq_of_clash hj hj₀ hclash
  exact hnot (hjj ▸ hd)

theorem claimedRow_update {jobs : JobTable} {job : WebhookDeliveryJob} (h : ClaimedRow jobs job)
    (p : Nat) {u : RowUpdate WebhookDeliveryJob} (hu : KeepsSms u)
    (hs : ∀ j, j.status ≠ .delivered → (u.set j).status ≠ .delivered) :
    ClaimedRow (jobs.update p u) job := by
  obtain ⟨r, hr, hpk, hsms, hkind, hnot⟩ := h
  refine ⟨_, Table.mem_update_of_mem hr p u, ?_⟩
  split
  · rw [(hu r).1, (hu r).2]
    exact ⟨(u.pk_set r).trans hpk, hsms, hkind, hs r hnot⟩
  · exact ⟨hpk, hsms, hkind, hnot⟩

/-! ## One schedule call -/

theorem deliveredFor_insert {jobs : JobTable} {smsPk now pk : Nat} (h) :
    DeliveredFor (jobs.insert (newJob .inbound smsPk now) h) pk ↔ DeliveredFor jobs pk := by
  unfold DeliveredFor
  rw [Table.insert_rows]
  refine ⟨?_, ?_⟩
  · intro hd
    obtain ⟨j, hj, hrest⟩ := hd
    rcases List.mem_append.mp hj with hj | hj
    · exact ⟨j, hj, hrest⟩
    · -- the new job is PENDING
      rw [List.mem_singleton.mp hj] at hrest
      exact absurd hrest.2 JobStatus.noConfusion
  · intro hd
    obtain ⟨j, hj, hrest⟩ := hd
    exact ⟨j, List.mem_append_left _ hj, hrest⟩

/-- A schedule call neither makes nor unmakes a delivery. -/
theorem deliveredFor_schedule {jobs : JobTable} {smsPk now pk : Nat} :
    DeliveredFor (scheduleInboundWebhook jobs smsPk now) pk ↔ DeliveredFor jobs pk := by
  unfold scheduleInboundWebhook
  rcases scheduleWebhook_cases .inbound jobs smsPk now with
    ⟨h, he⟩ | ⟨j, hj, _, ⟨_, he⟩ | ⟨hnot, he⟩⟩
  · rw [he, deliveredFor_insert]
  · rw [he]
  · rw [he, deliveredFor_update hj hnot (keepsSms_saveStatus _ _) pk]
    refine ⟨?_, Or.inl⟩
    intro h
    rcases h with h | ⟨_, hd⟩
    · exact h
    · exact absurd hd JobStatus.noConfusion

theorem inboundJobs_schedule {jobs : JobTable} (h : InboundJobs jobs) (smsPk now : Nat) :
    InboundJobs (scheduleInboundWebhook jobs smsPk now) := by
  unfold scheduleInboundWebhook
  rcases scheduleWebhook_cases .inbound jobs smsPk now with ⟨_, he⟩ | ⟨j, _, _, ⟨_, he⟩ | ⟨_, he⟩⟩
  · rw [he]
    intro j hj
    rcases List.mem_append.mp hj with hj | hj
    · exact h j hj
    · rw [List.mem_singleton.mp hj]
      exact ⟨rfl, smsPk, rfl⟩
  · rw [he]
    exact h
  · rw [he]
    exact inboundJobs_update h _ (keepsSms_saveStatus _ _)

theorem claimedRow_schedule {jobs : JobTable} {job : WebhookDeliveryJob} (h : ClaimedRow jobs job)
    (smsPk now : Nat) : ClaimedRow (scheduleInboundWebhook jobs smsPk now) job := by
  unfold scheduleInboundWebhook
  rcases scheduleWebhook_cases .inbound jobs smsPk now with ⟨_, he⟩ | ⟨j, _, _, ⟨_, he⟩ | ⟨_, he⟩⟩
  · rw [he]
    obtain ⟨r, hr, hrest⟩ := h
    exact ⟨r, List.mem_append_left _ hr, hrest⟩
  · rw [he]
    exact h
  · rw [he]
    exact claimedRow_update h _ (keepsSms_saveStatus _ _) (fun _ _ => JobStatus.noConfusion)

/-! ## One process_webhook_job call -/

/-- The save of `_finalize` makes a delivery exactly when the attempt was a success. -/
theorem finalizeSave_update (env : WebhookEnv) (jobs : JobTable) (job : WebhookDeliveryJob)
    (ok : Bool) (now : Nat) :
    ∃ u, finalizeSave env jobs job ok now = jobs.update job.pk u ∧ KeepsSms u ∧
      ∀ j, (u.set j).status = .delivered ↔ ok = true := by
  have hstatus : (finalized env job ok now).status = .delivered ↔ ok = true := by
    unfold finalized
    cases ok
    · simp only [Bool.false_eq_true, if_false]
      split <;> simp
    · simp
  refine ⟨if ok then saveDelivered (finalized env job ok now) now
    else saveStatus (finalized env job ok now) now, ?_, ?_, ?_⟩
  · show jobs.update (finalized env job ok now).pk _ = _
    rw [finalized_pk]
  · intro j
    cases ok <;> exact ⟨rfl, rfl⟩
  · intro j
    cases ok <;> exact hstatus

/-- What an attempt at a claimed job of the row `pk₀` does to the table. -/
theorem processWebhookJob_jobs {env : WebhookEnv} {http : Http} {inbound : Table InboundSms}
    {outbound : Table OutboundSms} {jobs : JobTable} {job : WebhookDeliveryJob} {pk₀ now : Nat}
    (hjobs : InboundJobs jobs) (hclaimed : ClaimedRow jobs job)
    (hsms : job.inboundSmsId = some pk₀) :
    InboundJobs (processWebhookJob env http inbound outbound jobs job now).1 ∧
      ∀ pk, DeliveredFor (processWebhookJob env http inbound outbound jobs job now).1 pk ↔
        DeliveredFor jobs pk ∨ (pk₀ = pk ∧
          deliveryOk (deliverJob env http inbound outbound (bumpAttempts job)).2 = true) := by
  obtain ⟨r, hr, hrpk, hrsms, _, hnot⟩ := hclaimed
  have hrsms : r.inboundSmsId = some pk₀ := hrsms.trans hsms
  have hpk : r.pk = (bumpAttempts job).pk := hrpk
  -- the row after the bump
  have hr' : (saveAttempts (bumpAttempts job) now).set r ∈
      (jobs.update r.pk (saveAttempts (bumpAttempts job) now)).rows :=
    Table.mem_update.mpr (Or.inl ⟨r, hr, rfl, rfl⟩)
  obtain ⟨u, hu, hkeeps, hstatus⟩ := finalizeSave_update env
    (jobs.update r.pk (saveAttempts (bumpAttempts job) now))
    (withDeliveryError (bumpAttempts job) (deliverJob env http inbound outbound (bumpAttempts job)).2)
    (deliveryOk (deliverJob env http inbound outbound (bumpAttempts job)).2) now
  have hprocess : (processWebhookJob env http inbound outbound jobs job now).1 =
      (jobs.update r.pk (saveAttempts (bumpAttempts job) now)).update r.pk u := by
    rw [withDeliveryError_pk, ← hpk] at hu
    rw [← hu, hpk]
    rfl
  rw [hprocess]
  refine ⟨inboundJobs_update (inboundJobs_update hjobs _ (keepsSms_saveAttempts _ _)) _ hkeeps, ?_⟩
  intro pk
  have hfinal := deliveredFor_update hr' hnot hkeeps pk
  have hbump := deliveredFor_update hr hnot (keepsSms_saveAttempts (bumpAttempts job) now) pk
  have hkept : ¬ (((saveAttempts (bumpAttempts job) now).set r).status = .delivered) := hnot
  rw [show ((saveAttempts (bumpAttempts job) now).set r).pk = r.pk from rfl] at hfinal
  rw [hfinal, hbump, hstatus]
  simp only [hkept, and_false, or_false]
  show _ ∨ (r.inboundSmsId = some pk ∧ _) ↔ _
  rw [hrsms, Option.some.injEq]

/-! ## Runs -/

structure FreshInv (s : FreshState) : Prop where
  jobs : InboundJobs s.world.jobs
  held : ∀ job, s.held = some job → job.kind = .inbound ∧ (∃ pk, job.inboundSmsId = some pk) ∧
    ClaimedRow s.world.jobs job

/-- Every way a step can go. -/
inductive FreshMove (env : WebhookEnv) (s : FreshState) : FreshAction → FreshState → Prop
  | persist {mmPath modemIndex now fetched} :
      FreshMove env s (.persist mmPath modemIndex now fetched)
        { s with world := (persistFetched [] s.world mmPath modemIndex now fetched).1 }
  | claimNone {now} (hh : s.held = none) : FreshMove env s (.claim now) s
  | claim {now job} (hh : s.held = none) (hj : job ∈ s.world.jobs.rows)
      (hs : job.status = .pending) :
      FreshMove env s (.claim now)
        { s with
          world := { s.world with
            jobs := s.world.jobs.update job.pk (saveClaim { job with status := .processing } now) }
          held := some { job with status := .processing } }
  | process {now http job} (hh : s.held = some job) :
      FreshMove env s (.process now http)
        { world := { s.world with
            jobs := (processWebhookJob env http s.world.inbound s.world.outbound s.world.jobs job
              now).1 }
          held := none
          posts := s.posts ++ (processWebhookJob env http s.world.inbound s.world.outbound
            s.world.jobs job now).2 }

theorem freshStep_cases {env : WebhookEnv} {s t : FreshState} {a : FreshAction}
    (h : freshStep env s a = some t) : FreshMove env s a t := by
  cases a with
  | persist mmPath modemIndex now fetched => cases h; exact .persist
  | claim now =>
    simp only [freshStep] at h
    split at h
    · next hh =>
      rcases claimNextJob_cases s.world.jobs now with hn | ⟨job, hj, hs, hc⟩
      · rw [hn] at h
        cases h
        rw [← hh]
        exact .claimNone hh
      · rw [hc] at h
        cases h
        exact .claim hh hj hs
    · cases h
  | process now http =>
    simp only [freshStep] at h
    split at h
    · next hh => cases h; exact .process hh
    · cases h

theorem freshInv_step {env : WebhookEnv} {s t : FreshState} {a : FreshAction} (h : FreshInv s)
    (hmove : FreshMove env s a t) : FreshInv t := by
  cases hmove with
  | @persist mmPath modemIndex now fetched =>
    rcases persistFetched_jobs [] s.world mmPath modemIndex now fetched with he | ⟨pk, he⟩
    · refine ⟨?_, ?_⟩
      · rw [he]
        exact h.jobs
      · rw [he]
        exact h.held
    · refine ⟨?_, ?_⟩
      · rw [he]
        exact inboundJobs_schedule h.jobs pk now
      · intro job hj
        obtain ⟨hkind, hsms, hrow⟩ := h.held job hj
        refine ⟨hkind, hsms, ?_⟩
        rw [he]
        exact claimedRow_schedule hrow pk now
  | claimNone hh => exact h
  | @claim now job hh hj hs =>
    refine ⟨inboundJobs_update h.jobs _ (keepsSms_saveClaim _ _), ?_⟩
    intro job' hj'
    cases hj'
    obtain ⟨hkind, hsms⟩ := h.jobs job hj
    refine ⟨hkind, hsms, _, Table.mem_update.mpr (Or.inl ⟨job, hj, rfl, rfl⟩), rfl, rfl, rfl, ?_⟩
    exact JobStatus.noConfusion
  | @process now http job hh =>
    obtain ⟨_, ⟨pk, hsms⟩, hrow⟩ := h.held job hh
    refine ⟨(processWebhookJob_jobs h.jobs hrow hsms).1, ?_⟩
    intro job' hj'
    cases hj'

/-- A delivery stays, and nothing more is POSTed for its row. -/
theorem deliveredFor_step {env : WebhookEnv} {s t : FreshState} {a : FreshAction} (h : FreshInv s)
    (hmove : FreshMove env s a t) {pk : Nat} (hd : DeliveredFor s.world.jobs pk) :
    DeliveredFor t.world.jobs pk ∧ postsFor pk t.posts = postsFor pk s.posts := by
  cases hmove with
  | @persist mmPath modemIndex now fetched =>
    refine ⟨?_, rfl⟩
    rcases persistFetched_jobs [] s.world mmPath modemIndex now fetched with he | ⟨pk', he⟩
    · rw [he]
      exact hd
    · rw [he]
      exact deliveredFor_schedule.mpr hd
  | claimNone hh => exact ⟨hd, rfl⟩
  | @claim now job hh hj hs =>
    refine ⟨?_, rfl⟩
    apply (deliveredFor_update hj ?_ (keepsSms_saveClaim _ _) pk).mpr (Or.inl hd)
    rw [hs]
    exact JobStatus.noConfusion
  | @process now http job hh =>
    obtain ⟨hkind, ⟨pk₀, hsms⟩, hrow⟩ := h.held job hh
    refine ⟨((processWebhookJob_jobs h.jobs hrow hsms).2 pk).mpr (Or.inl hd), ?_⟩
    -- the POSTs are for the row of the claimed job, which is another one
    have hne : pk₀ ≠ pk := by
      intro he
      obtain ⟨r, hr, _, hrsms, _, hnot⟩ := hrow
      exact not_deliveredFor hr (hrsms.trans (hsms.trans (congrArg some he))) hnot hd
    have hnone : postsFor pk
        (processWebhookJob env http s.world.inbound s.world.outbound s.world.jobs job now).2 = [] := by
      apply List.filter_eq_nil_iff.mpr
      intro q hq
      obtain ⟨r, hr, _, hpayload⟩ := mem_deliverJob (bumpAttempts job) hkind hsms hq
      have hrpk : r.pk = pk₀ := (Table.get?_eq_some.mp hr).2
      rw [hpayload]
      simp [buildInboundWebhookPayload, hrpk, hne]
    show postsFor pk (s.posts ++ _) = _
    unfold postsFor at hnone ⊢
    rw [List.filter_append, hnone, List.append_nil]

/-- A new delivery is a processing step that POSTed the row as it is. -/
theorem process_of_new_delivery {env : WebhookEnv} {s t : FreshState} {a : FreshAction}
    (h : FreshInv s) (hmove : FreshMove env s a t) {pk : Nat} (hs : ¬ DeliveredFor s.world.jobs pk)
    (ht : DeliveredFor t.world.jobs pk) :
    (∃ now http, a = .process now http) ∧ ∃ r ∈ t.world.inbound.rows, r.pk = pk ∧
      (env.activeUrls r.modemIndex ≠ [] →
        lastPosted pk t.posts = some (buildInboundWebhookPayload r)) := by
  cases hmove with
  | @persist mmPath modemIndex now fetched =>
    exfalso
    apply hs
    rcases persistFetched_jobs [] s.world mmPath modemIndex now fetched with he | ⟨pk', he⟩
    · rw [he] at ht
      exact ht
    · rw [he] at ht
      exact deliveredFor_schedule.mp ht
  | claimNone hh => exact absurd ht hs
  | @claim now job hh hj hs' =>
    have hnot : job.status ≠ .delivered := by rw [hs']; exact JobStatus.noConfusion
    rcases (deliveredFor_update hj hnot (keepsSms_saveClaim _ _) pk).mp ht with ht | ⟨_, hd⟩
    · exact absurd ht hs
    · exact absurd hd JobStatus.noConfusion
  | @process now http job hh =>
    refine ⟨⟨now, http, rfl⟩, ?_⟩
    obtain ⟨hkind, ⟨pk₀, hsms⟩, hrow⟩ := h.held job hh
    rcases ((processWebhookJob_jobs h.jobs hrow hsms).2 pk).mp ht with ht | ⟨rfl, hok⟩
    · exact absurd ht hs
    obtain ⟨r, hr, hposted⟩ := deliverJob_ok (bumpAttempts job) hkind hsms hok
    obtain ⟨hmem, hrpk⟩ := Table.get?_eq_some.mp hr
    refine ⟨r, hmem, hrpk, ?_⟩
    intro hurls
    have hall : ∀ q ∈ (deliverJob env http s.world.inbound s.world.outbound (bumpAttempts job)).1,
        q.kind = .inbound ∧ q.payload = buildInboundWebhookPayload r := by
      intro q hq
      obtain ⟨r', hr', hq⟩ := mem_deliverJob (bumpAttempts job) hkind hsms hq
      rw [hr] at hr'
      cases hr'
      exact hq
    exact lastPosted_append hrpk hall (hposted hurls)

abbrev FreshReaches (env : WebhookEnv) (s t : FreshState) : Prop :=
  Reaches (freshStep env) (fun _ _ => True) s t

theorem freshInv_start (inbound : Table InboundSms) (outbound : Table OutboundSms)
    (dlq : Option DlqTable) : FreshInv (FreshState.start inbound outbound dlq) := by
  refine ⟨?_, ?_⟩
  · intro j hj
    cases hj
  · intro job hj
    cases hj

theorem freshInv_reaches {env : WebhookEnv} {s t : FreshState} (h : FreshReaches env s t)
    (hs : FreshInv s) : FreshInv t :=
  h.invariant (fun _ _ _ hinv _ ht => freshInv_step hinv (freshStep_cases ht)) hs

theorem deliveredFor_reaches {env : WebhookEnv} {s t : FreshState} (h : FreshReaches env s t)
    (hs : FreshInv s) {pk : Nat} (hd : DeliveredFor s.world.jobs pk) :
    DeliveredFor t.world.jobs pk ∧ postsFor pk t.posts = postsFor pk s.posts := by
  have hinv := h.invariant (I := fun u => FreshInv u ∧ DeliveredFor u.world.jobs pk ∧
    postsFor pk u.posts = postsFor pk s.posts) ?_ ⟨hs, hd, rfl⟩
  · exact hinv.2
  · intro u a v hu _ hv
    obtain ⟨hu, hdu, hposts⟩ := hu
    have hmove := freshStep_cases hv
    obtain ⟨hdv, hpostsv⟩ := deliveredFor_step hu hmove hdu
    exact ⟨freshInv_step hu hmove, hdv, hpostsv.trans hposts⟩

/-- The processing step that delivered the job: the row as it was then is the last one POSTed. -/
def DeliveredBy (env : WebhookEnv) (s₀ s : FreshState) (pk : Nat) : Prop :=
  ∃ s₁ s₂ now http, FreshReaches env s₀ s₁ ∧ freshStep env s₁ (.process now http) = some s₂ ∧
    ¬ DeliveredFor s₁.world.jobs pk ∧ DeliveredFor s₂.world.jobs pk ∧ FreshReaches env s₂ s ∧
    ∃ r ∈ s₂.world.inbound.rows, r.pk = pk ∧
      (env.activeUrls r.modemIndex ≠ [] →
        lastPosted pk s.posts = some (buildInboundWebhookPayload r))

theorem deliveredBy_reaches {env : WebhookEnv} {s₀ s : FreshState} (h₀ : FreshInv s₀)
    (hnone : ∀ pk, ¬ DeliveredFor s₀.world.jobs pk) (h : FreshReaches env s₀ s) {pk : Nat}
    (hd : DeliveredFor s.world.jobs pk) : DeliveredBy env s₀ s pk := by
  have hinv := h.invariant (I := fun u => FreshReaches env s₀ u ∧
    (DeliveredFor u.world.jobs pk → DeliveredBy env s₀ u pk)) ?_
    ⟨Reaches.refl s₀, fun hd => absurd hd (hnone pk)⟩
  · exact hinv.2 hd
  · intro u a v hu _ hv
    obtain ⟨hreach, hby⟩ := hu
    have hone : FreshReaches env u v := Reaches.single trivial hv
    have huinv := freshInv_reaches hreach h₀
    refine ⟨hreach.trans hone, ?_⟩
    intro hdv
    by_cases hdu : DeliveredFor u.world.jobs pk
    · -- delivered before: nothing was POSTed since
      obtain ⟨s₁, s₂, now, http, h₁, hp, hbefore, hafter, h₂, r, hr, hrpk, hlast⟩ := hby hdu
      have hposts := (deliveredFor_step huinv (freshStep_cases hv) hdu).2
      refine ⟨s₁, s₂, now, http, h₁, hp, hbefore, hafter, h₂.trans hone, r, hr, hrpk, ?_⟩
      intro hurls
      unfold lastPosted at hlast ⊢
      rw [hposts]
      exact hlast hurls
    · obtain ⟨⟨now, http, rfl⟩, r, hr, hrpk, hlast⟩ :=
        process_of_new_delivery huinv (freshStep_cases hv) hdu hdv
      exact ⟨u, v, now, http, hreach, hv, hdu, hdv, Reaches.refl v, r, hr, hrpk, hlast⟩

/-- In every reachable state in which the job of a row is DELIVERED there was a processing step
    that delivered it, and the last payload POSTed for the row is the row as it was at that step;
    from then on the job stays DELIVERED and nothing is POSTed for the row. -/
theorem delivered_row_was_posted (env : WebhookEnv) (inbound : Table InboundSms)
    (outbound : Table OutboundSms) (dlq : Option DlqTable) (s : FreshState)
    (h : FreshReaches env (FreshState.start inbound outbound dlq) s) (pk : Nat)
    (hd : DeliveredFor s.world.jobs pk) :
    DeliveredBy env (FreshState.start inbound outbound dlq) s pk ∧
      ∀ t, FreshReaches env s t → DeliveredFor t.world.jobs pk ∧
        postsFor pk t.posts = postsFor pk s.posts := by
  have hstart := freshInv_start inbound outbound dlq
  refine ⟨deliveredBy_reaches hstart ?_ h hd, ?_⟩
  · intro pk hnone
    obtain ⟨j, hj, _⟩ := hnone
    cases hj
  · intro t ht
    exact deliveredFor_reaches ht (freshInv_reaches h hstart) hd

/-- A text, its delivery, and the longer text of the second part. -/
def lateText : List FreshAction :=
  [.persist firstPath 0 10 (.snapshot (snapshotOf "received" "+351911111111" "part one")), .claim 20,
    .process 30 (fun _ _ => true),
    .persist firstPath 0 40
      (.snapshot (snapshotOf "received" "+351911111111" "part one, part two"))]

instance (jobs : JobTable) (pk : Nat) : Decidable (DeliveredFor jobs pk) :=
  inferInstanceAs (Decidable (∃ j ∈ jobs.rows, j.inboundSmsId = some pk ∧ j.status = .delivered))

/-- The job is DELIVERED with the first text, the row has the second. -/
theorem delivered_text_can_be_outdated :
    ¬ ∀ s, FreshReaches defaultEnv (FreshState.start Table.empty Table.empty none) s →
      ∀ row ∈ s.world.inbound.rows, DeliveredFor s.world.jobs row.pk →
      ∀ payload, lastPosted row.pk s.posts = some payload →
        payload.body = row.text ∧ payload.sender = row.fromNumber := by
  intro h
  have hrun : (exec (freshStep defaultEnv) (FreshState.start Table.empty Table.empty none)
      lateText).map (fun s => (s.world.inbound.rows.map (fun r => (r.pk, r.text)),
        decide (DeliveredFor s.world.jobs 1), (lastPosted 1 s.posts).map (·.body))) =
      some ([(1, "part one, part two".toList)], true, some "part one".toList) := by decide
  obtain ⟨s, hs, hrun⟩ := Option.map_eq_some_iff.mp hrun
  simp only [Prod.mk.injEq] at hrun
  obtain ⟨hrows, hd, hlast⟩ := hrun
  obtain ⟨payload, hpayload, hbody⟩ := Option.map_eq_some_iff.mp hlast
  obtain ⟨row, hrow, hpair⟩ : ∃ row ∈ s.world.inbound.rows, (row.pk, row.text) =
      (1, "part one, part two".toList) := by
    apply List.mem_map.mp
    rw [hrows]
    exact List.mem_singleton_self _
  simp only [Prod.mk.injEq] at hpair
  obtain ⟨hpk, htext⟩ := hpair
  have hfresh := h s ⟨lateText, meets_true _ _, hs⟩ row hrow
    (by rw [hpk]; exact of_decide_eq_true hd) payload (by rw [hpk]; exact hpayload)
  rw [htext, hbody] at hfresh
  exact absurd hfresh.1 (by decide)

/-- The job of that run is DELIVERED, and what was POSTed is the first text. -/
theorem delivered_row_was_posted_late_text :
    ∃ s, DeliveredFor s.world.jobs 1 ∧
      s.world.inbound.rows.map InboundSms.text = ["part one, part two".toList] ∧
      (lastPosted 1 s.posts).map (·.body) = some "part one".toList ∧
      DeliveredBy defaultEnv (FreshState.start Table.empty Table.empty none) s 1 := by
  have hrun : (exec (freshStep defaultEnv) (FreshState.start Table.empty Table.empty none)
      lateText).map (fun s => (decide (DeliveredFor s.world.jobs 1),
        s.world.inbound.rows.map InboundSms.text, (lastPosted 1 s.posts).map (·.body))) =
      some (true, ["part one, part two".toList], some "part one".toList) := by decide
  obtain ⟨s, hs, hshape⟩ := Option.map_eq_some_iff.mp hrun
  simp only [Prod.mk.injEq] at hshape
  obtain ⟨hd, htext, hbody⟩ := hshape
  have hposted := delivered_row_was_posted defaultEnv Table.empty Table.empty none s
    ⟨lateText, meets_true _ _, hs⟩ 1 (of_decide_eq_true hd)
  exact ⟨s, of_decide_eq_true hd, htext, hbody, hposted.1⟩

end HiWaveTel
