import HiWaveTel.WebhookWorker
import Mathlib.Data.List.Sort

/- What the endpoints of a job get to see over its life: the registered URLs as a delivery
   reads them (`webhook_delivery.get_active_webhook_urls`), the answers to its POSTs, and
   the calls of `process_webhook_job` a single worker makes. A call remembers nothing of
   the one before, so a retry POSTs to every active URL again.

   `accepted_once_per_call` — in one call an endpoint accepts once and is then left alone;
   it hears of the job in a later call only if in the earlier one another active endpoint
   accepted none of its POSTs; and then it does, if the later call reads its SMS. -/
namespace HiWaveTel
open Foundation

/-! ## get_active_webhook_urls -/

structure InboundWebhook where
  id : Nat
  modemIndex : Nat
  url : Str
  enabled : Bool
  deriving DecidableEq, Repr

/-- `sms_inboundwebhook_modem_url_uniq`. -/
instance : Row InboundWebhook where
  pk := InboundWebhook.id
  Clash a b := a.modemIndex = b.modemIndex ∧ a.url = b.url
  clash_symm _ _ h := ⟨h.1.symm, h.2.symm⟩

/-- `[a-f0-9-]` under `re.IGNORECASE`. -/
def isTokenChar (c : Char) : Bool :=
  ('0' ≤ c && c ≤ '9') || ('a' ≤ c && c ≤ 'f') || ('A' ≤ c && c ≤ 'F') || c == '-'

/-- The group `token` of `_WEBHOOK_SITE_*_RE`, on a string without a trailing newline. -/
def webhookSiteToken (page u : Str) : Option Str :=
  match Text.afterLiteral page u with
  | none => none
  | some rest =>
    let token := rest.take 36
    if token.length = 36 ∧ token.all isTokenChar = true ∧
        (rest.drop 36 = [] ∨ rest.drop 36 = ['/'])
    then some token else none

/-- The pages of webhook.site whose address is not the endpoint. -/
def webhookSitePages : List Str :=
  ["https://webhook.site/#!/edit/".toList, "https://webhook.site/#!/view/".toList]

def normalizeWebhookUrl (url : Str) : Str :=
  let u := Text.strip url
  match webhookSitePages.findSome? (fun page => webhookSiteToken page u) with
  | some token => "https://webhook.site/".toList ++ token
  | none => u

example : normalizeWebhookUrl
    "https://webhook.site/#!/edit/e6138d12-ca64-4caa-ae32-fd304cdc063d".toList =
      "https://webhook.site/e6138d12-ca64-4caa-ae32-fd304cdc063d".toList := by decide

/-- One more row of the loop. -/
def addUrl (urls : List Str) (row : InboundWebhook) : List Str :=
  let u := normalizeWebhookUrl (Text.strip row.url)
  if u ≠ [] ∧ u ∉ urls then urls ++ [u] else urls

def getActiveWebhookUrls (webhooks : Table InboundWebhook) (modemIndex : Nat) : List Str :=
  ((webhooks.rows.filter (fun r => r.enabled && r.modemIndex == modemIndex)).insertionSort
    (fun a b => a.id ≤ b.id)).foldl addUrl []

theorem nodup_addUrl {urls : List Str} (h : urls.Nodup) (row : InboundWebhook) :
    (addUrl urls row).Nodup := by
  dsimp only [addUrl]
  split
  · next hu =>
    rw [List.nodup_append]
    refine ⟨h, List.nodup_singleton _, ?_⟩
    intro a ha b hb hab
    rw [List.mem_singleton.mp hb] at hab
    exact hu.2 (hab ▸ ha)
  · exact h

/-- No URL is delivered to twice by one call. -/
theorem nodup_getActiveWebhookUrls (webhooks : Table InboundWebhook) (modemIndex : Nat) :
    (getActiveWebhookUrls webhooks modemIndex).Nodup := by
  have hloop : ∀ (rows : List InboundWebhook) (urls : List Str), urls.Nodup →
      (rows.foldl addUrl urls).Nodup := by
    intro rows
    induction rows with
    | nil => exact fun urls hu => hu
    | cons row rows ih => exact fun urls hu => ih _ (nodup_addUrl hu row)
  exact hloop _ [] List.nodup_nil

/-! ## The answers to the POSTs of a delivery -/

/-- The POSTs to one URL, with whether they were answered 2xx. -/
def urlAnswers (http : Http) (retryMax : Nat) (url : Str) : List (Str × Bool) :=
  (List.range (postUntilOk (http url) retryMax 0).1).map (fun attempt => (url, http url attempt))

def deliveryAnswers (http : Http) (retryMax : Nat) (urls : List Str) : List (Str × Bool) :=
  urls.flatMap (urlAnswers http retryMax)

/-- These are the POSTs of `deliverPayloadToUrls`, in the same order. -/
theorem deliverPayloadToUrls_eq (kind : JobKind) (payload : Payload) (retryMax : Nat) (http : Http)
    (urls : List Str) :
    (deliverPayloadToUrls kind payload retryMax http urls).1 =
      (deliveryAnswers http retryMax urls).map (fun a => ⟨kind, a.1, payload⟩) := by
  induction urls with
  | nil => rfl
  | cons url urls ih =>
    have hone : (urlAnswers http retryMax url).map (fun a => Post.mk kind a.1 payload) =
        List.replicate (postUntilOk (http url) retryMax 0).1 ⟨kind, url, payload⟩ := by
      rw [urlAnswers, List.map_map]
      simp [Function.comp_def, List.map_const']
    rw [deliveryAnswers, List.flatMap_cons, List.map_append, hone]
    show _ ++ _ = _ ++ _
    rw [ih]
    rfl

/-- The attempts stop at the first 2xx, and only there before they run out. -/
theorem postUntilOk_spec (answers : Nat → Bool) (n attempt : Nat) :
    (∀ i, i + 1 < (postUntilOk answers n attempt).1 → answers (attempt + i) = false) ∧
    ((postUntilOk answers n attempt).2 = true ↔
      ∃ i < (postUntilOk answers n attempt).1, answers (attempt + i) = true) := by
  induction n generalizing attempt with
  | zero => simp [postUntilOk]
  | succ n ih =>
    obtain ⟨hbefore, hok⟩ := ih (attempt + 1)
    by_cases ha : answers attempt = true
    · have he : postUntilOk answers (n + 1) attempt = (1, true) := by
        rw [postUntilOk, if_pos ha]
      rw [he]
      refine ⟨fun i hi => absurd hi (by simp), iff_of_true rfl ⟨0, Nat.one_pos, ha⟩⟩
    · have he : postUntilOk answers (n + 1) attempt =
          ((postUntilOk answers n (attempt + 1)).1 + 1, (postUntilOk answers n (attempt + 1)).2) := by
        rw [postUntilOk, if_neg ha]
      have hfirst : answers attempt = false := Bool.eq_false_iff.mpr ha
      rw [he]
      refine ⟨?_, hok.trans ⟨?_, ?_⟩⟩
      · intro i hi
        cases i with
        | zero => exact hfirst
        | succ i =>
          rw [show attempt + (i + 1) = attempt + 1 + i by omega]
          exact hbefore i (by simpa using hi)
      · intro h
        obtain ⟨i, hi, hi'⟩ := h
        refine ⟨i + 1, by simpa using hi, ?_⟩
        rw [show attempt + (i + 1) = attempt + 1 + i by omega]
        exact hi'
      · intro h
        obtain ⟨i, hi, hi'⟩ := h
        cases i with
        | zero =>
          rw [Nat.add_zero, hfirst] at hi'
          cases hi'
        | succ i =>
          refine ⟨i, by simpa using hi, ?_⟩
          rw [show attempt + 1 + i = attempt + (i + 1) by omega]
          exact hi'

theorem mem_urlAnswers {http : Http} {retryMax : Nat} {url : Str} {a : Str × Bool} :
    a ∈ urlAnswers http retryMax url ↔
      a.1 = url ∧ ∃ i < (postUntilOk (http url) retryMax 0).1, http url i = a.2 := by
  simp only [urlAnswers, List.mem_map, List.mem_range]
  constructor
  · intro h
    obtain ⟨i, hi, rfl⟩ := h
    exact ⟨rfl, i, hi, rfl⟩
  · intro h
    obtain ⟨rfl, i, hi, hok⟩ := h
    exact ⟨i, hi, Prod.ext rfl hok⟩

/-- A URL counts as delivered exactly when one of its POSTs was answered 2xx. -/
theorem accepted_iff_ok {http : Http} {retryMax : Nat} {url : Str} :
    (url, true) ∈ urlAnswers http retryMax url ↔ (postUntilOk (http url) retryMax 0).2 = true := by
  rw [mem_urlAnswers, (postUntilOk_spec (http url) retryMax 0).2]
  simp

/-- An endpoint that has answered 2xx is not POSTed to again by the same call. -/
def AcceptsOnce (answers : List (Str × Bool)) : Prop :=
  answers.Pairwise (fun a b => a.2 = true → b.1 ≠ a.1)

theorem acceptsOnce_urlAnswers (http : Http) (retryMax : Nat) (url : Str) :
    AcceptsOnce (urlAnswers http retryMax url) := by
  have hbefore := (postUntilOk_spec (http url) retryMax 0).1
  unfold AcceptsOnce urlAnswers
  rw [List.pairwise_map]
  refine List.Pairwise.imp_of_mem ?_ List.pairwise_lt_range
  intro i j _ hj hij hok
  have hlast := hbefore i (by have := List.mem_range.mp hj; omega)
  rw [Nat.zero_add] at hlast
  rw [hlast] at hok
  cases hok

theorem acceptsOnce_deliveryAnswers (http : Http) (retryMax : Nat) {urls : List Str}
    (h : urls.Nodup) : AcceptsOnce (deliveryAnswers http retryMax urls) := by
  unfold AcceptsOnce deliveryAnswers
  rw [List.pairwise_flatMap]
  refine ⟨fun url _ => acceptsOnce_urlAnswers http retryMax url, ?_⟩
  refine h.imp ?_
  intro u v huv a ha b hb _ heq
  exact huv ((mem_urlAnswers.mp ha).1.symm.trans (heq.symm.trans (mem_urlAnswers.mp hb).1))

theorem deliverPayloadToUrls_all (kind : JobKind) (payload : Payload) (retryMax : Nat)
    (http : Http) (urls : List Str) :
    (deliverPayloadToUrls kind payload retryMax http urls).2 = true ↔
      ∀ url ∈ urls, (postUntilOk (http url) retryMax 0).2 = true := by
  induction urls with
  | nil => simp [deliverPayloadToUrls]
  | cons url urls ih =>
    rw [List.forall_mem_cons]
    exact Bool.and_eq_true_iff.trans (and_congr_right (fun _ => ih))

/-- The delivery succeeds exactly when every active URL accepts. -/
theorem deliverPayloadToUrls_ok (kind : JobKind) (payload : Payload) (retryMax : Nat) (http : Http)
    (urls : List Str) :
    (deliverPayloadToUrls kind payload retryMax http urls).2 = true ↔
      ∀ u ∈ urls, (u, true) ∈ deliveryAnswers http retryMax urls := by
  have hmem : ∀ u ∈ urls, ((u, true) ∈ deliveryAnswers http retryMax urls ↔
      (postUntilOk (http u) retryMax 0).2 = true) := by
    intro u hu
    rw [← accepted_iff_ok, deliveryAnswers, List.mem_flatMap]
    constructor
    · intro h
      obtain ⟨v, _, hv⟩ := h
      have huv : u = v := (mem_urlAnswers.mp hv).1
      rw [huv] at hv ⊢
      exact hv
    · exact fun h => ⟨u, hu, h⟩
  rw [forall₂_congr hmem]
  exact deliverPayloadToUrls_all kind payload retryMax http urls

/-- A delivery that fails has POSTed to a URL that accepted nothing. -/
theorem deliverPayloadToUrls_failed {kind : JobKind} {payload : Payload} {retryMax : Nat}
    {http : Http} {urls : List Str}
    (h : (deliverPayloadToUrls kind payload retryMax http urls).2 = false) :
    ∃ u ∈ urls, (u, true) ∉ deliveryAnswers http retryMax urls := by
  by_contra hnone
  have hall : ∀ u ∈ urls, (u, true) ∈ deliveryAnswers http retryMax urls := by
    intro u hu
    by_contra hno
    exact hnone ⟨u, hu, hno⟩
  rw [(deliverPayloadToUrls_ok kind payload retryMax http urls).mpr hall] at h
  cases h

/-! ## The calls for a job -/

/-- What one call of `process_webhook_job` saw and did. -/
structure CallRecord where
  job : Nat
  readError : Option Str
  urls : List Str                  -- the URLs that were active
  answers : List (Str × Bool)      -- its POSTs
  ok : Bool

/-- `SMS_WEBHOOK_RETRY_MAX` and `WEBHOOK_JOB_MAX_ATTEMPTS`. -/
structure DeliverySettings where
  retryMax : Nat
  maxAttempts : Nat

def DeliverySettings.env (cfg : DeliverySettings) (webhooks : Table InboundWebhook) : WebhookEnv :=
  { activeUrls := getActiveWebhookUrls webhooks, retryMax := cfg.retryMax,
    maxAttempts := cfg.maxAttempts }

/-- What an iteration finds: the answers of the endpoints, the tables it reads, and the errors
    of the database. -/
structure DeliveryPass where
  http : Http
  webhooks : Table InboundWebhook
  inbound : Table InboundSms
  outbound : Table OutboundSms
  readError : Option Str           -- raised before the first POST
  claim : Nat → DbTry
  bump : Nat → DbTry
  finalize : Nat → DbTry

/-- The URLs that a delivery of the job goes to. -/
def deliveryUrls (env : WebhookEnv) (inbound : Table InboundSms) (outbound : Table OutboundSms)
    (job : WebhookDeliveryJob) : List Str :=
  let modemIndex := match job.kind with
    | .inbound => (job.inboundSmsId.bind inbound.get?).map InboundSms.modemIndex
    | .outbound => (job.outboundSmsId.bind outbound.get?).map OutboundSms.modemIndex
  match modemIndex with
  | none => []
  | some modemIndex => env.activeUrls modemIndex

/-- The delivery of the job in this iteration. -/
def callDelivery (env : WebhookEnv) (pass : DeliveryPass) (job : WebhookDeliveryJob) : Delivery :=
  match pass.readError with
  | some error => .smsNotRead error
  | none =>
    match (deliverJob env pass.http pass.inbound pass.outbound job).2 with
    | .ok ok => .returned ok
    | .error error => .raised error

def callRecord (env : WebhookEnv) (pass : DeliveryPass) (job : WebhookDeliveryJob) : CallRecord :=
  let urls := deliveryUrls env pass.inbound pass.outbound job
  { job := job.pk, readError := pass.readError, urls,
    answers := if pass.readError.isSome then [] else deliveryAnswers pass.http env.retryMax urls,
    ok := deliveryOk (deliveryEnded job (callDelivery env pass job)) }

/-- Unless a read fails the delivery ends as that of `deliverJob`. -/
theorem callDelivery_ended (env : WebhookEnv) {pass : DeliveryPass} (job : WebhookDeliveryJob)
    (h : pass.readError = none) :
    deliveryEnded job (callDelivery env pass job) =
      (deliverJob env pass.http pass.inbound pass.outbound job).2 := by
  unfold callDelivery deliveryEnded
  rw [h]
  by_cases hsms : smsIdOf job.kind job = none
  · rw [if_pos hsms]
    unfold deliverJob
    cases hkind : job.kind with
    | inbound =>
      rw [hkind] at hsms
      rw [show job.inboundSmsId = none from hsms]
      rfl
    | outbound =>
      rw [hkind] at hsms
      rw [show job.outboundSmsId = none from hsms]
      rfl
  · rw [if_neg hsms]
    cases (deliverJob env pass.http pass.inbound pass.outbound job).2 <;> rfl

/-- A delivery that finds its SMS POSTs to `deliveryUrls`; one that does not POSTs nothing and
    fails. -/
theorem deliverJob_cases (env : WebhookEnv) (http : Http) (inbound : Table InboundSms)
    (outbound : Table OutboundSms) (job : WebhookDeliveryJob) :
    (∃ payload, (deliverJob env http inbound outbound job).1 =
          (deliverPayloadToUrls job.kind payload env.retryMax http
            (deliveryUrls env inbound outbound job)).1 ∧
        (deliverJob env http inbound outbound job).2 =
          .ok (deliverPayloadToUrls job.kind payload env.retryMax http
            (deliveryUrls env inbound outbound job)).2) ∨
    (deliveryUrls env inbound outbound job = [] ∧
      ∃ error, deliverJob env http inbound outbound job = ([], .error error)) := by
  unfold deliveryUrls deliverJob
  cases job.kind with
  | inbound =>
    cases job.inboundSmsId with
    | none => exact Or.inr ⟨rfl, _, rfl⟩
    | some p =>
      cases hrow : inbound.get? p with
      | none =>
        refine Or.inr ⟨by simp [hrow], "InboundSms matching query does not exist.".toList, ?_⟩
        simp only [hrow]
      | some r => exact Or.inl ⟨buildInboundWebhookPayload r, by simp [hrow, deliverInboundWebhooks]⟩
  | outbound =>
    cases job.outboundSmsId with
    | none => exact Or.inr ⟨rfl, _, rfl⟩
    | some p =>
      cases hrow : outbound.get? p with
      | none =>
        refine Or.inr ⟨by simp [hrow], "OutboundSms matching query does not exist.".toList, ?_⟩
        simp only [hrow]
      | some o =>
        exact Or.inl ⟨buildOutboundWebhookPayload o, by simp [hrow, deliverOutboundWebhooks]⟩

/-- The record has the POSTs of the delivery. -/
theorem callRecord_posts (env : WebhookEnv) {pass : DeliveryPass} (job : WebhookDeliveryJob)
    (h : pass.readError = none) :
    (deliverJob env pass.http pass.inbound pass.outbound job).1.map Post.url =
      (callRecord env pass job).answers.map Prod.fst := by
  have hanswers : (callRecord env pass job).answers = deliveryAnswers pass.http env.retryMax
      (deliveryUrls env pass.inbound pass.outbound job) := by
    simp only [callRecord, h, Option.isSome_none, Bool.false_eq_true, if_false]
  rw [hanswers]
  rcases deliverJob_cases env pass.http pass.inbound pass.outbound job with
    ⟨payload, hposts, _⟩ | ⟨hurls, error, he⟩
  · rw [hposts, deliverPayloadToUrls_eq, List.map_map]
    rfl
  · rw [hurls, he]
    rfl

theorem callRecord_acceptsOnce (cfg : DeliverySettings) (pass : DeliveryPass)
    (job : WebhookDeliveryJob) : AcceptsOnce (callRecord (cfg.env pass.webhooks) pass job).answers := by
  have hnodup : (deliveryUrls (cfg.env pass.webhooks) pass.inbound pass.outbound job).Nodup := by
    dsimp only [deliveryUrls]
    split
    · exact List.nodup_nil
    · exact nodup_getActiveWebhookUrls _ _
  dsimp only [callRecord]
  split
  · exact List.Pairwise.nil
  · exact acceptsOnce_deliveryAnswers pass.http cfg.retryMax hnodup

/-- A call that POSTs at all, or whose reads do not fail, POSTs to every URL that is active. -/
theorem callRecord_everyUrl {env : WebhookEnv} {pass : DeliveryPass} {job : WebhookDeliveryJob}
    (h : (callRecord env pass job).answers ≠ [] ∨
      (callRecord env pass job).readError = none ∧ 0 < env.retryMax) {u : Str}
    (hu : u ∈ (callRecord env pass job).urls) :
    ∃ ok, (u, ok) ∈ (callRecord env pass job).answers := by
  have hread : ¬ pass.readError.isSome = true := by
    intro hsome
    cases h with
    | inl hposts => exact hposts (if_pos hsome)
    | inr hclean =>
      rw [show pass.readError = none from hclean.1] at hsome
      cases hsome
  have hanswers : (callRecord env pass job).answers = deliveryAnswers pass.http env.retryMax
      (callRecord env pass job).urls := if_neg hread
  rw [hanswers] at h ⊢
  cases hmax : env.retryMax with
  | zero =>
    rw [hmax] at h
    -- without an attempt there is no POST
    cases h with
    | inl hposts => exact absurd (List.flatMap_eq_nil_iff.mpr fun _ _ => rfl) hposts
    | inr hclean => exact absurd hclean.2 (Nat.lt_irrefl 0)
  | succ n =>
    refine ⟨pass.http u 0, List.mem_flatMap.mpr ⟨u, hu, mem_urlAnswers.mpr ⟨rfl, 0, ?_, rfl⟩⟩⟩
    unfold postUntilOk
    split
    · exact Nat.one_pos
    · exact Nat.succ_pos _

/-- A call that fails has POSTed nothing, or to a URL that accepted nothing. -/
theorem callRecord_failed {env : WebhookEnv} {pass : DeliveryPass} {job : WebhookDeliveryJob}
    (h : (callRecord env pass job).ok = false) :
    (callRecord env pass job).answers = [] ∨
      ∃ v ∈ (callRecord env pass job).urls, (v, true) ∉ (callRecord env pass job).answers := by
  cases hread : pass.readError with
  | some error =>
    refine Or.inl ?_
    simp only [callRecord, hread, Option.isSome_some, if_true]
  | none =>
    have hended := callDelivery_ended env job hread
    simp only [callRecord, hread, Option.isSome_none, Bool.false_eq_true, if_false, hended] at h ⊢
    rcases deliverJob_cases env pass.http pass.inbound pass.outbound job with
      ⟨payload, _, hok⟩ | ⟨hurls, _⟩
    · rw [hok] at h
      exact Or.inr (deliverPayloadToUrls_failed h)
    · rw [hurls]
      exact Or.inl rfl

/-! ## The iterations of a worker -/

/-- The job table, and the calls that got as far as the delivery. -/
structure DeliveryLog where
  jobs : JobTable
  calls : List CallRecord

def DeliveryPass.worker (pass : DeliveryPass) (env : WebhookEnv) (job : WebhookDeliveryJob) :
    WorkerPass :=
  { claim := pass.claim, bump := pass.bump, delivery := callDelivery env pass job,
    finalize := pass.finalize }

/-- One iteration of `worker_loop`. -/
def deliveryStep (cfg : DeliverySettings) (sqlite : SqliteSettings) (s : DeliveryLog)
    (pass : DeliveryPass) : Option DeliveryLog :=
  let env := cfg.env pass.webhooks
  match retryClaim sqlite pass.claim s.jobs with
  | (jobs, .error _) => some { s with jobs }
  | (jobs, .ok none) => some { s with jobs }
  | (jobs, .ok (some job)) =>
    some ⟨(tryProcessWebhookJob env sqlite (pass.worker env job) jobs job).1,
      if GetsThrough sqlite pass.bump then s.calls ++ [callRecord env pass job] else s.calls⟩

/-- An iteration claims nothing, or is one UPDATE of the row it claims, which is not PENDING
    afterwards if the call delivered. -/
theorem deliveryStep_cases {cfg : DeliverySettings} {sqlite : SqliteSettings} {s t : DeliveryLog}
    {pass : DeliveryPass} (h : deliveryStep cfg sqlite s pass = some t) :
    t = s ∨
    ∃ job ∈ s.jobs.rows, job.status = .pending ∧ ∃ u,
      t.jobs = s.jobs.update job.pk u ∧
      ((t.calls = s.calls ∧ ¬ GetsThrough sqlite pass.bump) ∨
        (t.calls = s.calls ++ [callRecord (cfg.env pass.webhooks) pass (claimedCopy job)] ∧
          ((callRecord (cfg.env pass.webhooks) pass (claimedCopy job)).ok = true →
            (u.set job).status ≠ .pending))) := by
  dsimp only [deliveryStep] at h
  generalize cfg.env pass.webhooks = env at h ⊢
  rcases retryClaim_cases sqlite pass.claim s.jobs with ⟨hthrough, now, he⟩ | ⟨_, e, he⟩
  · rw [he] at h
    unfold claimNextJob at h
    cases hold : oldestPending s.jobs with
    | none =>
      simp only [hold, Option.some.injEq] at h
      exact Or.inl h.symm
    | some job =>
      simp only [hold, Option.some.injEq] at h
      obtain ⟨hj, hpending⟩ := oldestPending_mem hold
      have hc : Claims sqlite s.jobs (pass.worker env (claimedCopy job)) job := ⟨hthrough, hold⟩
      have hjobs : t.jobs =
          (workerIteration env sqlite s.jobs (pass.worker env (claimedCopy job))).1 := by
        unfold workerIteration
        rw [show (pass.worker env (claimedCopy job)).claim = pass.claim from rfl, he, ← h]
        simp only [claimNextJob, hold]
        rfl
      refine Or.inr ⟨job, hj, hpending, ?_⟩
      rw [hjobs]
      by_cases hr : Releases sqlite (pass.worker env (claimedCopy job))
      · obtain ⟨k, u, _, hu, hp⟩ := workerIteration_released env hc hr
        refine ⟨u, by rw [hu], Or.inr ⟨?_, ?_⟩⟩
        · rw [← h]
          exact if_pos hr.1
        · intro hok
          have hdelivered : deliveryOk (deliveryEnded job
              (pass.worker env (claimedCopy job)).delivery) = true := hok
          rw [hp.status, finalStatus, hdelivered]
          exact JobStatus.noConfusion
      · obtain ⟨u, hu, hstatus⟩ := workerIteration_unreleased env hc hr
        refine ⟨u, by rw [hu], ?_⟩
        by_cases hb : GetsThrough sqlite pass.bump
        · refine Or.inr ⟨?_, ?_⟩
          · rw [← h]
            exact if_pos hb
          · intro _
            rw [hstatus]
            exact JobStatus.noConfusion
        · refine Or.inl ⟨?_, hb⟩
          rw [← h]
          exact if_neg hb
  · rw [he] at h
    cases h
    exact Or.inl rfl

/-- The calls so far, and the rows of those that delivered: no claim can take them. -/
structure Served (cfg : DeliverySettings) (s : DeliveryLog) : Prop where
  once : ∀ c ∈ s.calls, AcceptsOnce c.answers
  everyUrl : ∀ c ∈ s.calls, c.answers ≠ [] ∨ c.readError = none ∧ 0 < cfg.retryMax →
    ∀ u ∈ c.urls, ∃ ok, (u, ok) ∈ c.answers
  failed : ∀ c ∈ s.calls, c.ok = false →
    c.answers = [] ∨ ∃ v ∈ c.urls, (v, true) ∉ c.answers
  settled : ∀ c ∈ s.calls, c.ok = true → ∃ j ∈ s.jobs.rows, j.pk = c.job ∧ j.status ≠ .pending
  retried : s.calls.Pairwise (fun c d => d.job = c.job → c.ok = false)

section Claim
variable {cfg : DeliverySettings} {s : DeliveryLog} {job : WebhookDeliveryJob}
  {u : RowUpdate WebhookDeliveryJob}

/-- The row of a call that delivered is not the one that is claimed, which was PENDING. -/
theorem Served.not_claimed (hs : Served cfg s) (hj : job ∈ s.jobs.rows) (hpending : job.status = .pending)
    {c : CallRecord} (hc : c ∈ s.calls) (hok : c.ok = true) : c.job ≠ job.pk ∧
      ∃ j ∈ (s.jobs.update job.pk u).rows, j.pk = c.job ∧ j.status ≠ .pending := by
  obtain ⟨j, hj', hpk, hst⟩ := hs.settled c hc hok
  have hne : j.pk ≠ job.pk := by
    intro heq
    rw [s.jobs.pk_injOn hj' hj heq] at hst
    exact hst hpending
  exact ⟨hpk ▸ hne, j, (Table.mem_update_self hj).mpr (Or.inr ⟨hj', hne⟩), hpk, hst⟩

theorem served_call (hs : Served cfg s) (hj : job ∈ s.jobs.rows) (hpending : job.status = .pending)
    {pass : DeliveryPass}
    (hdelivered : (callRecord (cfg.env pass.webhooks) pass (claimedCopy job)).ok = true →
      (u.set job).status ≠ .pending) :
    Served cfg ⟨s.jobs.update job.pk u,
      s.calls ++ [callRecord (cfg.env pass.webhooks) pass (claimedCopy job)]⟩ := by
  have hmem : ∀ c ∈ s.calls ++ [callRecord (cfg.env pass.webhooks) pass (claimedCopy job)],
      c ∈ s.calls ∨ c = callRecord (cfg.env pass.webhooks) pass (claimedCopy job) := by
    intro c hc
    rcases List.mem_append.mp hc with hc | hc
    · exact Or.inl hc
    · exact Or.inr (List.mem_singleton.mp hc)
  refine ⟨?_, ?_, ?_, ?_, ?_⟩
  · intro c hc
    rcases hmem c hc with hc | rfl
    · exact hs.once c hc
    · exact callRecord_acceptsOnce cfg pass (claimedCopy job)
  · intro c hc hposts v hv
    rcases hmem c hc with hc | rfl
    · exact hs.everyUrl c hc hposts v hv
    · exact callRecord_everyUrl hposts hv
  · intro c hc hok
    rcases hmem c hc with hc | rfl
    · exact hs.failed c hc hok
    · exact callRecord_failed hok
  · intro c hc hok
    rcases hmem c hc with hc | rfl
    · exact (hs.not_claimed hj hpending hc hok).2
    · exact ⟨u.set job, (Table.mem_update_self hj).mpr (Or.inl rfl), u.pk_set job, hdelivered hok⟩
  · rw [List.pairwise_append]
    refine ⟨hs.retried, List.pairwise_singleton _ _, ?_⟩
    intro c hc d hd hsame
    rw [List.mem_singleton.mp hd] at hsame
    by_contra hok
    have hne := (hs.not_claimed (u := u) hj hpending hc (Bool.eq_true_of_not_eq_false hok)).1
    exact hne hsame.symm

end Claim

theorem served_deliveryStep {cfg : DeliverySettings} {sqlite : SqliteSettings} {s t : DeliveryLog}
    {pass : DeliveryPass} (hs : Served cfg s) (h : deliveryStep cfg sqlite s pass = some t) :
    Served cfg t := by
  obtain ⟨jobs, calls⟩ := t
  rcases deliveryStep_cases h with rfl | ⟨job, hj, hpending, u, hjobs, hcalls⟩
  · exact hs
  · obtain rfl : jobs = s.jobs.update job.pk u := hjobs
    rcases hcalls with ⟨hcalls, _⟩ | ⟨hcalls, hdelivered⟩
    · obtain rfl : calls = s.calls := hcalls
      refine ⟨hs.once, hs.everyUrl, hs.failed, ?_, hs.retried⟩
      exact fun c hc hok => (hs.not_claimed hj hpending hc hok).2
    · obtain rfl : calls = _ := hcalls
      exact served_call hs hj hpending hdelivered

/-- All POSTs for a job. -/
def jobAnswers (calls : List CallRecord) (p : Nat) : List (Str × Bool) :=
  (calls.filter (fun c => c.job == p)).flatMap CallRecord.answers

/-- In every run of a worker: a call POSTs to no URL that has accepted in it, and to every active
    one if it POSTs at all, which it does if its reads do not fail; and after a call in which a
    URL accepted there is another call for the job only if some other active URL accepted
    nothing. -/
theorem accepted_once_per_call (cfg : DeliverySettings) (sqlite : SqliteSettings)
    {jobs : JobTable} {t : DeliveryLog} {passes : List DeliveryPass}
    (h : exec (deliveryStep cfg sqlite) ⟨jobs, []⟩ passes = some t) :
    (∀ c ∈ t.calls, AcceptsOnce c.answers ∧
      (c.answers ≠ [] ∨ c.readError = none ∧ 0 < cfg.retryMax →
        ∀ u ∈ c.urls, ∃ ok, (u, ok) ∈ c.answers)) ∧
    t.calls.Pairwise (fun c d => d.job = c.job → ∀ u, (u, true) ∈ c.answers →
      ∃ v ∈ c.urls, v ≠ u ∧ (v, true) ∉ c.answers) := by
  have hstart : Served cfg ⟨jobs, []⟩ := ⟨by simp, by simp, by simp, by simp, List.Pairwise.nil⟩
  have hreach : Reaches (deliveryStep cfg sqlite) (fun _ _ => True) ⟨jobs, []⟩ t :=
    ⟨passes, meets_true _ _, h⟩
  have hserved : Served cfg t :=
    hreach.invariant (fun s pass t hs _ hstep => served_deliveryStep hs hstep) hstart
  refine ⟨fun c hc => ⟨hserved.once c hc, hserved.everyUrl c hc⟩, ?_⟩
  refine hserved.retried.imp_of_mem ?_
  intro c d hc _ hretry hsame u hu
  rcases hserved.failed c hc (hretry hsame) with hnone | ⟨v, hv, hrefused⟩
  · rw [hnone] at hu
    cases hu
  · refine ⟨v, hv, ?_, hrefused⟩
    intro heq
    rw [heq] at hrefused
    exact hrefused hu

/-! ## One endpoint that fails once -/

def healthyUrl : Str := "http://a.local/".toList

def failingUrl : Str := "http://b.local/".toList

def twoWebhooks : Table InboundWebhook :=
  ⟨[⟨1, 0, healthyUrl, true⟩, ⟨2, 0, failingUrl, true⟩], 3, by decide, by decide,
    List.pairwise_pair.mpr (fun h => absurd h.2 (by decide))⟩

/-- An iteration without faults of the database. -/
def deliveryPass (http : Http) : DeliveryPass :=
  { http, webhooks := twoWebhooks, inbound := inboxOk, outbound := Table.empty,
    readError := none, claim := cleanTries, bump := cleanTries, finalize := cleanTries }

/-- At first only the healthy endpoint answers, then both do. -/
def failOncePasses : List DeliveryPass :=
  [deliveryPass (fun url _ => url == healthyUrl), deliveryPass (fun _ _ => true)]

/-- The healthy endpoint accepts the job twice. -/
theorem accepted_again_by_retry :
    ¬ ∀ (cfg : DeliverySettings) (sqlite : SqliteSettings) (jobs : JobTable) (t : DeliveryLog)
      (passes : List DeliveryPass), exec (deliveryStep cfg sqlite) ⟨jobs, []⟩ passes = some t →
      ∀ p url, (jobAnswers t.calls p).count (url, true) ≤ 1 := by
  intro h
  have hrun : (exec (deliveryStep ⟨2, 10⟩ defaultSqlite) ⟨onePendingJob, []⟩ failOncePasses).map
      (fun t => (jobAnswers t.calls 1).count (healthyUrl, true)) = some 2 := by decide
  obtain ⟨t, ht, hcount⟩ := Option.map_eq_some_iff.mp hrun
  have hone := h _ _ _ t _ ht 1 healthyUrl
  rw [hcount] at hone
  exact absurd hone (by decide)

theorem accepted_once_per_call_fail_once :
    ∃ t, exec (deliveryStep ⟨2, 10⟩ defaultSqlite) ⟨onePendingJob, []⟩ failOncePasses = some t ∧
      t.calls.map (fun c => (c.readError, c.urls)) =
        [(none, [healthyUrl, failingUrl]), (none, [healthyUrl, failingUrl])] ∧
      (∀ c ∈ t.calls, AcceptsOnce c.answers ∧
        (c.answers ≠ [] ∨ c.readError = none ∧ 0 < 2 → ∀ u ∈ c.urls, ∃ ok, (u, ok) ∈ c.answers)) := by
  have hrun : (exec (deliveryStep ⟨2, 10⟩ defaultSqlite) ⟨onePendingJob, []⟩ failOncePasses).map
      (fun t => t.calls.map (fun c => (c.readError, c.urls))) =
      some [(none, [healthyUrl, failingUrl]), (none, [healthyUrl, failingUrl])] := by decide
  obtain ⟨t, ht, hcalls⟩ := Option.map_eq_some_iff.mp hrun
  exact ⟨t, ht, hcalls, (accepted_once_per_call ⟨2, 10⟩ defaultSqlite ht).1⟩

end HiWaveTel
