import HiWaveTel.WebhookUrls
import HiWaveTel.MmcliRuns
import HiWaveTel.Foundation.SavedRows

/- The endpoints that register webhooks (`views_webhooks.py` and its serializers). A PUT reads
   the row, sets the fields of the request on its object and saves the whole object; a DELETE
   reads the row before it deletes it. Requests interleave between these statements, so a save
   can find its row changed, or gone, in which case Django inserts it again under its old key.

   `delivered_urls_reachable` — whatever the requests and their order, a delivery serves exactly
   the URLs of the enabled rows of the modem, in the order of their keys: none is merged with
   another or left out by `get_active_webhook_urls`.

   `requests_isolated` — what a delivery serves is changed by no request for another modem; a
   request for the modem itself can still change it when a later one is already done.

   `deleted_webhook_stays_deleted` — the key of a row that is gone is not used again, except
   by a PUT that has read the row before. -/
namespace HiWaveTel
open Foundation

/-! ## The table -/

/-- `InboundWebhook` with all its columns. -/
structure RegisteredWebhook where
  id : Nat
  modemIndex : Nat
  name : Str
  url : Str
  enabled : Bool
  createdAt : Nat
  deriving DecidableEq, Repr

/-- `sms_inboundwebhook_modem_url_uniq`. -/
instance instRowRegisteredWebhook : Row RegisteredWebhook where
  pk := RegisteredWebhook.id
  Clash a b := a.modemIndex = b.modemIndex ∧ a.url = b.url
  clash_symm _ _ h := ⟨h.1.symm, h.2.symm⟩

instance instDecidableClash (r s : RegisteredWebhook) : Decidable (Row.Clash s r) :=
  inferInstanceAs (Decidable (s.modemIndex = r.modemIndex ∧ s.url = r.url))

abbrev WebhookTable := Table RegisteredWebhook

/-- The columns that a delivery reads. -/
def RegisteredWebhook.endpoint (r : RegisteredWebhook) : InboundWebhook :=
  ⟨r.id, r.modemIndex, r.url, r.enabled⟩

/-- The table as `get_active_webhook_urls` reads it. -/
def endpoints (t : WebhookTable) : Table InboundWebhook :=
  t.view RegisteredWebhook.endpoint (fun _ => rfl) (fun _ _ h => h)

/-! ## The serializers -/

/-- The fields of a serializer of REST framework: what each makes of the entry that the request
    has for it, `none` if it refuses. -/
structure SerializerFields (Raw : Type) where
  name : Raw → Option Str          -- `CharField(max_length=128)`
  url : Raw → Option Str           -- `URLField(max_length=512)`
  enabled : Raw → Option Bool      -- `BooleanField()`
  url_stripped : ∀ raw u, url raw = some u → Text.strip u = u
  url_ne_nil : ∀ raw u, url raw = some u → u ≠ []

/-- The entries of `request.data`. -/
structure WebhookData (Raw : Type) where
  name : Option Raw
  url : Option Raw
  enabled : Option Raw

/-- A field of the update: not given, given and fine, or an error. -/
def optionalField {α Raw : Type} (check : Raw → Option α) : Option Raw → Option (Option α)
  | none => some none
  | some raw => (check raw).map some

section Serializers
variable {Raw : Type} (F : SerializerFields Raw)

/-- The URL field with `validate_url`. -/
def urlField (raw : Raw) : Option Str := (F.url raw).map validateUrl

/-- `InboundWebhookCreateSerializer`: `name` and `url` are required, `enabled` is True. -/
def validatedCreate (data : WebhookData Raw) : Option (Str × Str × Bool) := do
  let name ← data.name.bind F.name
  let url ← data.url.bind (urlField F)
  let enabled ← optionalField F.enabled data.enabled
  some (name, url, enabled.getD true)

/-- The `validated_data` of an update. -/
structure WebhookChanges where
  name : Option Str
  url : Option Str
  enabled : Option Bool
  deriving DecidableEq, Repr

/-- `InboundWebhookUpdateSerializer`. -/
def validatedUpdate (data : WebhookData Raw) : Option WebhookChanges := do
  let name ← optionalField F.name data.name
  let url ← optionalField (urlField F) data.url
  let enabled ← optionalField F.enabled data.enabled
  some ⟨name, url, enabled⟩

end Serializers

def WebhookChanges.isEmpty (changes : WebhookChanges) : Bool :=
  changes.name.isNone && changes.url.isNone && changes.enabled.isNone

/-- The loop of `setattr`. -/
def setAttrs (r : RegisteredWebhook) (changes : WebhookChanges) : RegisteredWebhook :=
  { r with
    name := changes.name.getD r.name
    url := changes.url.getD r.url
    enabled := changes.enabled.getD r.enabled }

@[simp] theorem setAttrs_url (r : RegisteredWebhook) (changes : WebhookChanges) :
    (setAttrs r changes).url = changes.url.getD r.url := rfl

/-! ## The views -/

inductive Response where
  | ok (webhook : RegisteredWebhook)
  | created (webhook : RegisteredWebhook)
  | noContent
  | notFound (detail : Str)
  | badRequest (detail : Option Str)    -- `none`: the errors of the serializer
  | serverError                         -- `IntegrityError`, or any exception of `mmcli`
  deriving DecidableEq, Repr

/-- What `assert_modem_enumerated` raises, from how `list_modem_indices` ends. -/
def assertModemEnumerated (modemIndex : Nat) : Except Raised (List Nat) → Option Response
  | .error (.mmcli exc) => some (.notFound ("ModemManager unreachable: ".toList ++ exc.message))
  | .error .other => some .serverError
  | .ok indices =>
    if modemIndex ∈ indices then none
    else
      let label := if indices = [] then "none".toList
        else List.intercalate ", ".toList (indices.map Text.ofNat)
      some (.notFound ("Modem index ".toList ++ Text.ofNat modemIndex ++
        " not enumerated (mmcli -L: ".toList ++ label ++ ").".toList))

/-- `_get_modem_webhook`. -/
def getModemWebhook (t : WebhookTable) (modemIndex webhookId : Nat) : Option RegisteredWebhook :=
  match t.get? webhookId with
  | none => none
  | some webhook => if webhook.modemIndex ≠ modemIndex then none else some webhook

def webhookNotFound (modemIndex webhookId : Nat) : Response :=
  .notFound ("Webhook ".toList ++ Text.ofNat webhookId ++ " not found for modem ".toList ++
    Text.ofNat modemIndex ++ ".".toList)

def noFieldGiven : Response :=
  .badRequest (some "At least one field (name, url, enabled) is required.".toList)

/-- What a request is going to send next, with its object. -/
inductive Statement where
  | update (webhook : RegisteredWebhook)      -- `webhook.save()`
  | insert (webhook : RegisteredWebhook)      -- its UPDATE has found no row
  | delete (webhook : RegisteredWebhook)      -- `webhook.delete()`
  deriving DecidableEq, Repr

def Statement.webhook : Statement → RegisteredWebhook
  | .update webhook | .insert webhook | .delete webhook => webhook

structure ApiState where
  table : WebhookTable
  pending : List Statement       -- the PUTs and DELETEs that have read their row
  answers : List Response

def ApiState.start (table : WebhookTable) : ApiState := ⟨table, [], []⟩

def ApiState.answer (s : ApiState) (r : Response) : ApiState :=
  { s with answers := s.answers ++ [r] }

/-- `ModemWebhookCreateView.post`. -/
def postWebhook {Raw : Type} (F : SerializerFields Raw) (s : ApiState) (modemIndex : Nat)
    (listing : Except Raised (List Nat)) (data : WebhookData Raw) (now : Nat) : ApiState :=
  match assertModemEnumerated modemIndex listing with
  | some response => s.answer response
  | none =>
    match validatedCreate F data with
    | none => s.answer (.badRequest none)
    | some (name, url, enabled) =>
      let make := fun n => RegisteredWebhook.mk n modemIndex name url enabled now
      if h : ∀ r ∈ s.table.rows, ¬ Row.Clash r (make s.table.nextPk) then
        { s with table := s.table.create make (fun _ => rfl) h }.answer
          (.created (make s.table.nextPk))
      else s.answer .serverError

/-- `ModemWebhookDetailView.put`, and `patch`, up to the save. -/
def putWebhook {Raw : Type} (F : SerializerFields Raw) (s : ApiState) (modemIndex webhookId : Nat)
    (data : WebhookData Raw) : ApiState :=
  match getModemWebhook s.table modemIndex webhookId with
  | none => s.answer (webhookNotFound modemIndex webhookId)
  | some webhook =>
    match validatedUpdate F data with
    | none => s.answer (.badRequest none)
    | some changes =>
      if changes.isEmpty then s.answer noFieldGiven
      else { s with pending := s.pending ++ [.update (setAttrs webhook changes)] }

/-- `ModemWebhookDetailView.delete`, up to the deletion. -/
def deleteWebhook (s : ApiState) (modemIndex webhookId : Nat) : ApiState :=
  match getModemWebhook s.table modemIndex webhookId with
  | none => s.answer (webhookNotFound modemIndex webhookId)
  | some webhook => { s with pending := s.pending ++ [.delete webhook] }

/-- The statement of a request, which is its last one but for an UPDATE that finds no row. -/
def runStatement (s : ApiState) (i : Nat) (now : Nat) : Statement → ApiState
  | .update webhook =>
    if (s.table.get? webhook.id).isNone then
      { s with pending := s.pending.set i (.insert webhook) }
    else if h : s.table.Fits webhook then
      { s with table := s.table.replace webhook h, pending := s.pending.eraseIdx i }.answer
        (.ok webhook)
    else { s with pending := s.pending.eraseIdx i }.answer .serverError
  | .insert webhook =>
    -- `auto_now_add` sees an INSERT
    let webhook := { webhook with createdAt := now }
    if hfree : ∀ r ∈ s.table.rows, Row.pk r ≠ Row.pk webhook then
      if h : s.table.Fits webhook then
        { s with table := s.table.reinsert webhook h hfree,
                 pending := s.pending.eraseIdx i }.answer (.ok webhook)
      else { s with pending := s.pending.eraseIdx i }.answer .serverError
    else { s with pending := s.pending.eraseIdx i }.answer .serverError
  | .delete webhook =>
    { s with table := s.table.deleteWhere (fun r => r.id == webhook.id),
             pending := s.pending.eraseIdx i }.answer .noContent

inductive ApiAction (Raw : Type) where
  | post (modemIndex : Nat) (listing : Except Raised (List Nat)) (data : WebhookData Raw)
      (now : Nat)
  | put (modemIndex webhookId : Nat) (data : WebhookData Raw)
  | delete (modemIndex webhookId : Nat)
  | statement (i : Nat) (now : Nat)

def apiStep {Raw : Type} (F : SerializerFields Raw) (s : ApiState) :
    ApiAction Raw → Option ApiState
  | .post modemIndex listing data now => some (postWebhook F s modemIndex listing data now)
  | .put modemIndex webhookId data => some (putWebhook F s modemIndex webhookId data)
  | .delete modemIndex webhookId => some (deleteWebhook s modemIndex webhookId)
  | .statement i now => (s.pending[i]?).map (runStatement s i now)

/-! ## What a step does -/

/-- The new object of a PUT is one that may be stored. -/
def ChangesOf {Raw : Type} (F : SerializerFields Raw) (r r' : RegisteredWebhook) : Prop :=
  ∃ data changes, validatedUpdate F data = some changes ∧ r' = setAttrs r changes

/-- All that a step can do to the table and to the requests in progress, for a modem. -/
inductive ApiMove {Raw : Type} (F : SerializerFields Raw) (s : ApiState) :
    ApiAction Raw → ApiState → Prop
  | refused {a t} (htable : t.table = s.table) (hpending : t.pending = s.pending) :
      ApiMove F s a t
  | created {modemIndex listing data now name url enabled t}
      (hvalid : validatedCreate F data = some (name, url, enabled))
      (hrows : t.table.rows =
        s.table.rows ++ [⟨s.table.nextPk, modemIndex, name, url, enabled, now⟩])
      (hnext : t.table.nextPk = s.table.nextPk + 1) (hpending : t.pending = s.pending) :
      ApiMove F s (.post modemIndex listing data now) t
  | read {modemIndex webhookId data r r' t} (hr : r ∈ s.table.rows)
      (hid : r.id = webhookId) (hmodem : r.modemIndex = modemIndex) (hchanges : ChangesOf F r r')
      (htable : t.table = s.table) (hpending : t.pending = s.pending ++ [.update r']) :
      ApiMove F s (.put modemIndex webhookId data) t
  | readForDelete {modemIndex webhookId r t} (hr : r ∈ s.table.rows) (hid : r.id = webhookId)
      (hmodem : r.modemIndex = modemIndex) (htable : t.table = s.table)
      (hpending : t.pending = s.pending ++ [.delete r]) :
      ApiMove F s (.delete modemIndex webhookId) t
  | failed {i now x t} (hi : s.pending[i]? = some x) (htable : t.table = s.table)
      (hpending : t.pending = s.pending.eraseIdx i) : ApiMove F s (.statement i now) t
  | missed {i now r t} (hi : s.pending[i]? = some (.update r)) (htable : t.table = s.table)
      (hpending : t.pending = s.pending.set i (.insert r)) : ApiMove F s (.statement i now) t
  | replaced {i now r t} (hi : s.pending[i]? = some (.update r)) (hfits : s.table.Fits r)
      (hold : ∃ q ∈ s.table.rows, q.id = r.id) (htable : t.table = s.table.replace r hfits)
      (hpending : t.pending = s.pending.eraseIdx i) : ApiMove F s (.statement i now) t
  | reinserted {i now r t} (hi : s.pending[i]? = some (.insert r))
      (hrows : t.table.rows = s.table.rows ++ [{ r with createdAt := now }])
      (hnext : t.table.nextPk = max s.table.nextPk (r.id + 1))
      (hpending : t.pending = s.pending.eraseIdx i) : ApiMove F s (.statement i now) t
  | deleted {i now r t} (hi : s.pending[i]? = some (.delete r))
      (hrows : t.table.rows = s.table.rows.filter (fun q => !(q.id == r.id)))
      (hnext : t.table.nextPk = s.table.nextPk) (hpending : t.pending = s.pending.eraseIdx i) :
      ApiMove F s (.statement i now) t

theorem getModemWebhook_eq_some {t : WebhookTable} {modemIndex webhookId : Nat}
    {r : RegisteredWebhook} (h : getModemWebhook t modemIndex webhookId = some r) :
    r ∈ t.rows ∧ r.id = webhookId ∧ r.modemIndex = modemIndex := by
  unfold getModemWebhook at h
  split at h
  · cases h
  · next webhook hget =>
    obtain ⟨hmem, hid⟩ := Table.get?_eq_some.mp hget
    split at h
    · cases h
    · next hmodem =>
      cases h
      exact ⟨hmem, hid, not_not.mp hmodem⟩

section Moves
variable {Raw : Type} {F : SerializerFields Raw} {s t : ApiState}

theorem postWebhook_cases {modemIndex : Nat} {listing : Except Raised (List Nat)}
    {data : WebhookData Raw} {now : Nat} (h : postWebhook F s modemIndex listing data now = t) :
    ApiMove F s (.post modemIndex listing data now) t := by
  subst h
  unfold postWebhook
  split
  · exact .refused rfl rfl
  · split
    · exact .refused rfl rfl
    · next hvalid =>
      dsimp only
      split
      · exact .created hvalid rfl rfl rfl
      · exact .refused rfl rfl

theorem putWebhook_cases {modemIndex webhookId : Nat} {data : WebhookData Raw}
    (h : putWebhook F s modemIndex webhookId data = t) :
    ApiMove F s (.put modemIndex webhookId data) t := by
  subst h
  unfold putWebhook
  split
  · exact .refused rfl rfl
  · next webhook hget =>
    obtain ⟨hmem, hid, hmodem⟩ := getModemWebhook_eq_some hget
    split
    · exact .refused rfl rfl
    · next changes hvalid =>
      split
      · exact .refused rfl rfl
      · exact .read hmem hid hmodem ⟨data, changes, hvalid, rfl⟩ rfl rfl

theorem deleteWebhook_cases {modemIndex webhookId : Nat}
    (h : deleteWebhook s modemIndex webhookId = t) :
    ApiMove F s (.delete modemIndex webhookId) t := by
  subst h
  unfold deleteWebhook
  split
  · exact .refused rfl rfl
  · next webhook hget =>
    obtain ⟨hmem, hid, hmodem⟩ := getModemWebhook_eq_some hget
    exact .readForDelete hmem hid hmodem rfl rfl

theorem runStatement_cases {i now : Nat} {x : Statement} (hi : s.pending[i]? = some x)
    (h : runStatement s i now x = t) : ApiMove F s (.statement i now) t := by
  subst h
  cases x with
  | update r =>
    simp only [runStatement]
    split
    · exact .missed hi rfl rfl
    · next hsome =>
      have hold : ∃ q ∈ s.table.rows, q.id = r.id := by
        cases hget : s.table.get? r.id with
        | none => simp [hget] at hsome
        | some q => exact ⟨q, Table.get?_eq_some.mp hget⟩
      split
      · next hfits => exact .replaced hi hfits hold rfl rfl
      · exact .failed hi rfl rfl
  | insert r =>
    simp only [runStatement]
    split
    · split
      · exact .reinserted hi rfl rfl rfl
      · exact .failed hi rfl rfl
    · exact .failed hi rfl rfl
  | delete r => exact .deleted hi rfl rfl rfl

theorem apiStep_cases {a : ApiAction Raw} (h : apiStep F s a = some t) : ApiMove F s a t := by
  cases a with
  | post modemIndex listing data now => exact postWebhook_cases (Option.some.inj h)
  | put modemIndex webhookId data => exact putWebhook_cases (Option.some.inj h)
  | delete modemIndex webhookId => exact deleteWebhook_cases (Option.some.inj h)
  | statement i now =>
    obtain ⟨x, hi, ht⟩ := Option.map_eq_some_iff.mp h
    exact runStatement_cases hi ht

end Moves

/-! ## What a delivery serves -/

/-- The URL is normalised, so that it is not changed again when it is read. -/
def Registered (r : RegisteredWebhook) : Prop := normalizeWebhookUrl r.url = r.url ∧ r.url ≠ []

theorem normalizeWebhookUrl_ne_nil {url : Str} (h : Text.strip url ≠ []) :
    normalizeWebhookUrl url ≠ [] := by
  intro hnil
  obtain ⟨_, he⟩ | ⟨token, he, _⟩ := normalizeWebhookUrl_cases url
  · exact h (he.symm.trans hnil)
  · have hsite := (List.append_eq_nil_iff.mp (he.symm.trans hnil)).1
    exact absurd hsite (by decide)

/-- What `validate_url` makes of a URL that is stripped. -/
theorem validateUrl_of_strip {url : Str} (h : Text.strip url = url) :
    validateUrl url = normalizeWebhookUrl url := by
  simp only [validateUrl]
  split
  · rfl
  · next heq =>
    rw [not_not.mp heq, h]

theorem registered_of_urlField {Raw : Type} {F : SerializerFields Raw} {raw : Raw} {url : Str}
    (h : urlField F raw = some url) : normalizeWebhookUrl url = url ∧ url ≠ [] := by
  obtain ⟨u, hu, rfl⟩ := Option.map_eq_some_iff.mp h
  have hstrip := F.url_stripped raw u hu
  rw [validateUrl_of_strip hstrip]
  refine ⟨normalizeWebhookUrl_idempotent u, normalizeWebhookUrl_ne_nil ?_⟩
  rw [hstrip]
  exact F.url_ne_nil raw u hu

theorem registered_validatedCreate {Raw : Type} {F : SerializerFields Raw} {data : WebhookData Raw}
    {name url : Str} {enabled : Bool} (h : validatedCreate F data = some (name, url, enabled)) :
    normalizeWebhookUrl url = url ∧ url ≠ [] := by
  simp only [validatedCreate, Option.bind_eq_bind, Option.bind_eq_some_iff, Option.some.injEq,
    Prod.mk.injEq] at h
  obtain ⟨_, _, u, ⟨raw, _, hu⟩, _, _, _, rfl, _⟩ := h
  exact registered_of_urlField hu

theorem registered_setAttrs {Raw : Type} {F : SerializerFields Raw} {r r' : RegisteredWebhook}
    (hr : Registered r) (h : ChangesOf F r r') : Registered r' := by
  obtain ⟨data, changes, hvalid, rfl⟩ := h
  simp only [validatedUpdate, Option.bind_eq_bind, Option.bind_eq_some_iff,
    Option.some.injEq] at hvalid
  obtain ⟨_, _, url, hurl, _, _, rfl⟩ := hvalid
  unfold Registered
  rw [setAttrs_url]
  cases hdata : data.url with
  | none =>
    rw [hdata, optionalField, Option.some.injEq] at hurl
    rw [← hurl]
    exact hr
  | some raw =>
    rw [hdata, optionalField, Option.map_eq_some_iff] at hurl
    obtain ⟨u, hu, rfl⟩ := hurl
    exact registered_of_urlField hu

/-- All that is stored, or may be stored by a request in progress, is normalised. -/
structure AllRegistered (s : ApiState) : Prop where
  rows : ∀ r ∈ s.table.rows, Registered r
  pending : ∀ x ∈ s.pending, Registered x.webhook

theorem allRegistered_apiStep {Raw : Type} {F : SerializerFields Raw} {s t : ApiState}
    {a : ApiAction Raw} (hs : AllRegistered s) (h : apiStep F s a = some t) : AllRegistered t := by
  have herase : ∀ {i : Nat}, ∀ x ∈ s.pending.eraseIdx i, Registered x.webhook :=
    fun x hx => hs.pending x (List.mem_of_mem_eraseIdx hx)
  cases apiStep_cases h with
  | refused htable hpending =>
    constructor
    · rw [htable]
      exact hs.rows
    · rw [hpending]
      exact hs.pending
  | created hvalid hrows _ hpending =>
    constructor
    · intro r hr
      rw [hrows] at hr
      cases List.mem_append.mp hr with
      | inl hr => exact hs.rows r hr
      | inr hr =>
        rw [List.mem_singleton.mp hr]
        exact registered_validatedCreate hvalid
    · rw [hpending]
      exact hs.pending
  | read hr _ _ hchanges htable hpending =>
    constructor
    · rw [htable]
      exact hs.rows
    · intro x hx
      rw [hpending] at hx
      cases List.mem_append.mp hx with
      | inl hx => exact hs.pending x hx
      | inr hx =>
        rw [List.mem_singleton.mp hx]
        exact registered_setAttrs (hs.rows _ hr) hchanges
  | readForDelete hr _ _ htable hpending =>
    constructor
    · rw [htable]
      exact hs.rows
    · intro x hx
      rw [hpending] at hx
      cases List.mem_append.mp hx with
      | inl hx => exact hs.pending x hx
      | inr hx =>
        rw [List.mem_singleton.mp hx]
        exact hs.rows _ hr
  | failed _ htable hpending =>
    constructor
    · rw [htable]
      exact hs.rows
    · rw [hpending]
      exact herase
  | missed hi htable hpending =>
    constructor
    · rw [htable]
      exact hs.rows
    · intro x hx
      rw [hpending] at hx
      cases List.mem_or_eq_of_mem_set hx with
      | inl hx => exact hs.pending x hx
      | inr hx =>
        rw [hx]
        exact hs.pending (.update _) (List.mem_of_getElem? hi)
  | replaced hi hfits _ htable hpending =>
    constructor
    · intro q hq
      rw [htable] at hq
      cases Table.mem_replace.mp hq with
      | inl hq =>
        rw [hq.1]
        exact hs.pending (.update _) (List.mem_of_getElem? hi)
      | inr hq => exact hs.rows q hq.1
    · rw [hpending]
      exact herase
  | reinserted hi hrows _ hpending =>
    constructor
    · intro q hq
      rw [hrows] at hq
      cases List.mem_append.mp hq with
      | inl hq => exact hs.rows q hq
      | inr hq =>
        have hr := hs.pending _ (List.mem_of_getElem? hi)
        rw [List.mem_singleton.mp hq]
        exact hr
    · rw [hpending]
      exact herase
  | deleted _ hrows _ hpending =>
    constructor
    · intro q hq
      rw [hrows] at hq
      exact hs.rows q (List.mem_filter.mp hq).1
    · rw [hpending]
      exact herase

/-- The enabled rows of a modem, `order_by('id')`. -/
def enabledWebhooks (t : WebhookTable) (modemIndex : Nat) : List RegisteredWebhook :=
  (t.rows.filter (fun r => r.enabled && r.modemIndex == modemIndex)).insertionSort
    (fun a b => a.id ≤ b.id)

theorem activeRows_endpoints (t : WebhookTable) (modemIndex : Nat) :
    activeRows (endpoints t).rows modemIndex =
      (enabledWebhooks t modemIndex).map RegisteredWebhook.endpoint := by
  simp only [activeRows, enabledWebhooks, endpoints, Table.view, List.filter_map]
  exact (List.map_insertionSort (fun a b : RegisteredWebhook => a.id ≤ b.id)
    (fun a b : InboundWebhook => a.id ≤ b.id) RegisteredWebhook.endpoint _
    (fun _ _ _ _ => Iff.rfl)).symm

theorem mem_enabledWebhooks {t : WebhookTable} {modemIndex : Nat} {r : RegisteredWebhook} :
    r ∈ enabledWebhooks t modemIndex ↔
      r ∈ t.rows ∧ r.enabled = true ∧ r.modemIndex = modemIndex := by
  simp [enabledWebhooks]

/-- `WebhookListView.get`: `order_by('modem_index', 'id')`. -/
def listWebhooks (t : WebhookTable) : List RegisteredWebhook :=
  t.rows.insertionSort (fun a b => toLex (a.modemIndex, a.id) ≤ toLex (b.modemIndex, b.id))

/-- The list shows the enabled rows of a modem in the order in which they are served. -/
theorem filter_listWebhooks (t : WebhookTable) (modemIndex : Nat) :
    (listWebhooks t).filter (fun r => r.enabled && r.modemIndex == modemIndex) =
      enabledWebhooks t modemIndex := by
  have hperm : ((listWebhooks t).filter (fun r => r.enabled && r.modemIndex == modemIndex)).Perm
      (enabledWebhooks t modemIndex) :=
    ((List.perm_insertionSort _ _).filter _).trans (List.perm_insertionSort _ _).symm
  have hlist : ((listWebhooks t).filter
      (fun r => r.enabled && r.modemIndex == modemIndex)).Pairwise (fun a b => a.id ≤ b.id) := by
    have hsorted : (listWebhooks t).Pairwise
        (fun a b => toLex (a.modemIndex, a.id) ≤ toLex (b.modemIndex, b.id)) :=
      List.pairwise_insertionSort _ _
    refine (hsorted.filter _).imp_of_mem ?_
    intro a b ha hb hle
    have hma := (List.mem_filter.mp ha).2
    have hmb := (List.mem_filter.mp hb).2
    simp only [Bool.and_eq_true, beq_iff_eq] at hma hmb
    -- among the rows of one modem the order by modem and key is that by key
    rw [Prod.Lex.toLex_le_toLex, hma.2, hmb.2] at hle
    simpa using hle
  have hrows : (enabledWebhooks t modemIndex).Pairwise (fun a b => a.id ≤ b.id) :=
    List.pairwise_insertionSort _ _
  refine hperm.eq_of_pairwise ?_ hlist hrows
  intro a b ha hb hab hba
  have hmem : b ∈ t.rows := (mem_enabledWebhooks.mp hb).1
  have hmem' : a ∈ t.rows := (mem_enabledWebhooks.mp (hperm.subset ha)).1
  exact t.pk_injOn hmem' hmem (Nat.le_antisymm hab hba)

/-- Two enabled rows of a modem have different URLs. -/
theorem nodup_urls (t : WebhookTable) (modemIndex : Nat) :
    ((enabledWebhooks t modemIndex).map RegisteredWebhook.url).Nodup := by
  have hclash : (enabledWebhooks t modemIndex).Pairwise (fun a b => ¬ Row.Clash a b) := by
    refine ((List.perm_insertionSort _ _).pairwise_iff ?_).mpr (t.unique.filter _)
    exact fun h h' => h (Row.clash_symm _ _ h')
  refine List.pairwise_map.mpr (hclash.imp_of_mem ?_)
  intro a b ha hb hab heq
  apply hab
  exact ⟨(mem_enabledWebhooks.mp ha).2.2.trans (mem_enabledWebhooks.mp hb).2.2.symm, heq⟩

theorem getActiveWebhookUrls_registered {t : WebhookTable} (h : ∀ r ∈ t.rows, Registered r)
    (modemIndex : Nat) :
    getActiveWebhookUrls (endpoints t) modemIndex =
      (enabledWebhooks t modemIndex).map RegisteredWebhook.url := by
  have hurl : ∀ r ∈ enabledWebhooks t modemIndex, normalizeWebhookUrl r.url = r.url :=
    fun r hr => (h r (mem_enabledWebhooks.mp hr).1).1
  have hkeys : (enabledWebhooks t modemIndex).map (fun r => normalizeWebhookUrl r.url) =
      (enabledWebhooks t modemIndex).map RegisteredWebhook.url := List.map_congr_left hurl
  rw [getActiveWebhookUrls_eq, activeUrls_eq_keepFirst, activeRows_endpoints, keepFirst_map,
    List.map_map]
  show keepFirst id _ ((enabledWebhooks t modemIndex).map (fun r => normalizeWebhookUrl r.url)) = _
  rw [hkeys, keepFirst_eq_map, List.map_id]
  · intro url hmem
    obtain ⟨r, hr, rfl⟩ := List.mem_map.mp hmem
    exact (h r (mem_enabledWebhooks.mp hr).1).2
  · rw [List.map_id]
    exact nodup_urls t modemIndex

/-- Whatever requests there have been, finished or not, and in whatever order their statements
    came: a delivery serves the URL of each enabled row of the modem, in the order of the keys, and
    no other, which is what the list of all webhooks shows of the modem; and it serves none twice. -/
theorem delivered_urls_reachable {Raw : Type} (F : SerializerFields Raw) (table : WebhookTable)
    (hstart : ∀ r ∈ table.rows, Registered r) {t : ApiState} {actions : List (ApiAction Raw)}
    (h : exec (apiStep F) (.start table) actions = some t) (modemIndex : Nat) :
    getActiveWebhookUrls (endpoints t.table) modemIndex =
      ((listWebhooks t.table).filter (fun r => r.enabled && r.modemIndex == modemIndex)).map
        RegisteredWebhook.url ∧
    (getActiveWebhookUrls (endpoints t.table) modemIndex).Nodup := by
  have hinv : AllRegistered t := by
    refine Reaches.invariant (I := AllRegistered) ?_ ⟨actions, meets_true _ _, h⟩
      ⟨hstart, fun x hx => absurd hx List.not_mem_nil⟩
    exact fun s a u hs _ hstep => allRegistered_apiStep hs hstep
  rw [filter_listWebhooks, getActiveWebhookUrls_registered hinv.rows modemIndex]
  exact ⟨rfl, nodup_urls t.table modemIndex⟩

/-! ## Whose row it is -/

/-- The key and the modem of every row, also as the requests in progress remember it. -/
def ApiState.owners (s : ApiState) : List (Nat × Nat) :=
  s.table.rows.map (fun r => (r.id, r.modemIndex)) ++
    s.pending.map (fun x => (x.webhook.id, x.webhook.modemIndex))

theorem owner_of_row {s : ApiState} {r : RegisteredWebhook} (h : r ∈ s.table.rows) :
    (r.id, r.modemIndex) ∈ s.owners :=
  List.mem_append_left _ (List.mem_map_of_mem (f := fun r => (r.id, r.modemIndex)) h)

theorem owner_of_pending {s : ApiState} {x : Statement} (h : x ∈ s.pending) :
    (x.webhook.id, x.webhook.modemIndex) ∈ s.owners := by
  apply List.mem_append_right
  exact List.mem_map_of_mem (f := fun x : Statement => (x.webhook.id, x.webhook.modemIndex)) h

/-- No key belongs to two modems, and none is used before its time. -/
structure Owned (s : ApiState) : Prop where
  once : ∀ p ∈ s.owners, ∀ q ∈ s.owners, p.1 = q.1 → p.2 = q.2
  used : ∀ p ∈ s.owners, p.1 < s.table.nextPk

/-- A step makes at most one new key, which is the next one. -/
theorem owners_apiMove {Raw : Type} {F : SerializerFields Raw} {s t : ApiState}
    {a : ApiAction Raw} (h : ApiMove F s a t) :
    s.table.nextPk ≤ t.table.nextPk ∧ ∃ m, ∀ p ∈ t.owners,
      p ∈ s.owners ∨ (p = (s.table.nextPk, m) ∧ s.table.nextPk < t.table.nextPk) := by
  -- all but a creation pass on what is there
  have hkeep : (∀ r ∈ t.table.rows, (r.id, r.modemIndex) ∈ s.owners) →
      (∀ x ∈ t.pending, (x.webhook.id, x.webhook.modemIndex) ∈ s.owners) →
      ∃ m, ∀ p ∈ t.owners,
        p ∈ s.owners ∨ (p = (s.table.nextPk, m) ∧ s.table.nextPk < t.table.nextPk) := by
    intro hrows hpending
    refine ⟨0, ?_⟩
    intro p hp
    cases List.mem_append.mp hp with
    | inl hp =>
      obtain ⟨r, hr, rfl⟩ := List.mem_map.mp hp
      exact Or.inl (hrows r hr)
    | inr hp =>
      obtain ⟨x, hx, rfl⟩ := List.mem_map.mp hp
      exact Or.inl (hpending x hx)
  have herase : ∀ {i : Nat}, ∀ x ∈ s.pending.eraseIdx i,
      (x.webhook.id, x.webhook.modemIndex) ∈ s.owners :=
    fun x hx => owner_of_pending (List.mem_of_mem_eraseIdx hx)
  cases h with
  | refused htable hpending =>
    rw [htable, hpending] at hkeep
    rw [htable]
    exact ⟨Nat.le_refl _, hkeep (fun _ => owner_of_row) (fun _ => owner_of_pending)⟩
  | @created modemIndex listing data now name url enabled _ _ hrows hnext hpending =>
    refine ⟨by omega, modemIndex, ?_⟩
    intro p hp
    simp only [ApiState.owners, hrows, hpending, List.map_append, List.mem_append] at hp
    obtain (hp | hp) | hp := hp
    · exact Or.inl (List.mem_append_left _ hp)
    · refine Or.inr ⟨?_, by omega⟩
      simpa using hp
    · exact Or.inl (List.mem_append_right _ hp)
  | read hr _ _ hchanges htable hpending =>
    rw [htable] at hkeep
    rw [htable]
    refine ⟨Nat.le_refl _, hkeep (fun _ => owner_of_row) ?_⟩
    intro x hx
    rw [hpending] at hx
    cases List.mem_append.mp hx with
    | inl hx => exact owner_of_pending hx
    | inr hx =>
      have hrow := owner_of_row hr
      obtain ⟨_, changes, _, rfl⟩ := hchanges
      rw [List.mem_singleton.mp hx]
      exact hrow
  | readForDelete hr _ _ htable hpending =>
    rw [htable] at hkeep
    rw [htable]
    refine ⟨Nat.le_refl _, hkeep (fun _ => owner_of_row) ?_⟩
    intro x hx
    rw [hpending] at hx
    cases List.mem_append.mp hx with
    | inl hx => exact owner_of_pending hx
    | inr hx =>
      rw [List.mem_singleton.mp hx]
      exact owner_of_row hr
  | failed _ htable hpending =>
    rw [htable, hpending] at hkeep
    rw [htable]
    exact ⟨Nat.le_refl _, hkeep (fun _ => owner_of_row) herase⟩
  | @missed i now r _ hi htable hpending =>
    rw [htable] at hkeep
    rw [htable]
    refine ⟨Nat.le_refl _, hkeep (fun _ => owner_of_row) ?_⟩
    intro x hx
    rw [hpending] at hx
    cases List.mem_or_eq_of_mem_set hx with
    | inl hx => exact owner_of_pending hx
    | inr hx =>
      rw [hx]
      exact owner_of_pending (x := .update r) (List.mem_of_getElem? hi)
  | @replaced i now r _ hi hfits _ htable hpending =>
    rw [hpending] at hkeep
    rw [htable] at hkeep ⊢
    refine ⟨Nat.le_refl _, hkeep ?_ herase⟩
    intro q hq
    cases Table.mem_replace.mp hq with
    | inl hq =>
      rw [hq.1]
      exact owner_of_pending (x := .update r) (List.mem_of_getElem? hi)
    | inr hq => exact owner_of_row hq.1
  | @reinserted i now r _ hi hrows hnext hpending =>
    rw [hpending] at hkeep
    refine ⟨by omega, hkeep ?_ herase⟩
    intro q hq
    rw [hrows] at hq
    cases List.mem_append.mp hq with
    | inl hq => exact owner_of_row hq
    | inr hq =>
      rw [List.mem_singleton.mp hq]
      exact owner_of_pending (x := .insert r) (List.mem_of_getElem? hi)
  | deleted hi hrows hnext hpending =>
    rw [hpending] at hkeep
    refine ⟨Nat.le_of_eq hnext.symm, hkeep ?_ herase⟩
    intro q hq
    rw [hrows] at hq
    exact owner_of_row (List.mem_filter.mp hq).1

theorem owned_apiStep {Raw : Type} {F : SerializerFields Raw} {s t : ApiState}
    {a : ApiAction Raw} (hs : Owned s) (h : apiStep F s a = some t) : Owned t := by
  obtain ⟨hle, m, howners⟩ := owners_apiMove (apiStep_cases h)
  constructor
  · intro p hp q hq heq
    cases howners p hp with
    | inl hp =>
      cases howners q hq with
      | inl hq => exact hs.once p hp q hq heq
      | inr hq =>
        -- a new key is larger than all that were ever given
        have hlt := hs.used p hp
        rw [hq.1] at heq
        omega
    | inr hp =>
      cases howners q hq with
      | inl hq =>
        have hlt := hs.used q hq
        rw [hp.1] at heq
        omega
      | inr hq => rw [hp.1, hq.1]
  · intro p hp
    cases howners p hp with
    | inl hp => exact Nat.lt_of_lt_of_le (hs.used p hp) hle
    | inr hp =>
      rw [hp.1]
      exact hp.2

theorem owned_start (table : WebhookTable) : Owned (.start table) := by
  have howners : (ApiState.start table).owners =
      table.rows.map (fun r => (r.id, r.modemIndex)) := List.append_nil _
  constructor
  · intro p hp q hq heq
    rw [howners] at hp hq
    obtain ⟨r, hr, rfl⟩ := List.mem_map.mp hp
    obtain ⟨r', hr', rfl⟩ := List.mem_map.mp hq
    have hsame : r = r' := table.pk_injOn hr hr' heq
    rw [hsame]
  · intro p hp
    rw [howners] at hp
    obtain ⟨r, hr, rfl⟩ := List.mem_map.mp hp
    exact table.pk_lt r hr

/-! ## Other modems -/

/-- The modem that a step is for. -/
def modemOf {Raw : Type} (s : ApiState) : ApiAction Raw → Option Nat
  | .post modemIndex _ _ _ | .put modemIndex _ _ | .delete modemIndex _ => some modemIndex
  | .statement i _ => (s.pending[i]?).map (fun x => x.webhook.modemIndex)

/-- The step is no request for this modem, and no statement of one that began earlier. -/
def Spares {Raw : Type} (modemIndex : Nat) (s : ApiState) (a : ApiAction Raw) : Prop :=
  modemOf s a ≠ some modemIndex

instance {Raw : Type} (modemIndex : Nat) (s : ApiState) (a : ApiAction Raw) :
    Decidable (Spares modemIndex s a) := instDecidableNot

/-- A request in progress for another modem has no row of this one. -/
theorem id_ne_of_modem_ne {s : ApiState} (hs : Owned s) {i : Nat} {x : Statement}
    (hi : s.pending[i]? = some x) {q : RegisteredWebhook} (hq : q ∈ s.table.rows)
    (hne : x.webhook.modemIndex ≠ q.modemIndex) : q.id ≠ x.webhook.id := by
  intro heq
  apply hne
  exact (hs.once _ (owner_of_row hq) _ (owner_of_pending (List.mem_of_getElem? hi)) heq).symm

theorem rows_of_spares {Raw : Type} {F : SerializerFields Raw} {s t : ApiState}
    {a : ApiAction Raw} {modemIndex : Nat} (hs : Owned s) (ha : Spares modemIndex s a)
    (h : apiStep F s a = some t) {q : RegisteredWebhook} (hq : q.modemIndex = modemIndex) :
    q ∈ t.table.rows ↔ q ∈ s.table.rows := by
  have hother : ∀ {i now x}, a = .statement i now → s.pending[i]? = some x →
      x.webhook.modemIndex ≠ q.modemIndex := by
    intro i now x ha' hi heq
    subst ha'
    simp only [Spares, modemOf, hi, Option.map_some] at ha
    exact ha (congrArg some (heq.trans hq))
  cases apiStep_cases h with
  | refused htable | read _ _ _ _ htable | readForDelete _ _ _ htable | failed _ htable
  | missed _ htable => rw [htable]
  | @created m listing data now name url enabled _ hvalid hrows =>
    have hne : modemIndex ≠ m := fun heq => ha (congrArg some heq.symm)
    rw [hrows, List.mem_append, List.mem_singleton]
    refine ⟨fun hmem => hmem.resolve_right ?_, Or.inl⟩
    intro heq
    rw [heq] at hq
    exact hne hq.symm
  | @replaced i now r _ hi hfits hold htable =>
    have hne := hother rfl hi
    rw [htable, Table.mem_replace]
    constructor
    · intro hmem
      cases hmem with
      | inl hmem =>
        rw [hmem.1] at hne
        exact absurd rfl hne
      | inr hmem => exact hmem.1
    · exact fun hmem => Or.inr ⟨hmem, id_ne_of_modem_ne hs hi hmem hne⟩
  | @reinserted i now r _ hi hrows =>
    have hne := hother rfl hi
    rw [hrows, List.mem_append, List.mem_singleton]
    refine ⟨fun hmem => hmem.resolve_right ?_, Or.inl⟩
    intro heq
    rw [heq] at hne
    exact hne rfl
  | @deleted i now r _ hi hrows =>
    have hne := hother rfl hi
    rw [hrows, List.mem_filter]
    refine ⟨And.left, fun hmem => ⟨hmem, ?_⟩⟩
    have hid := id_ne_of_modem_ne hs hi hmem hne
    simpa [Statement.webhook] using hid

/-- A run without a step of a request for this modem, be the request new or an old one that is
    still under way, leaves what a delivery of this modem serves as it was, after any run of
    requests at all. -/
theorem requests_isolated {Raw : Type} (F : SerializerFields Raw) (table : WebhookTable)
    (modemIndex : Nat) {s t : ApiState} {past actions : List (ApiAction Raw)}
    (hpast : exec (apiStep F) (.start table) past = some s)
    (hothers : Meets (apiStep F) (Spares modemIndex) s actions)
    (h : exec (apiStep F) s actions = some t) :
    getActiveWebhookUrls (endpoints t.table) modemIndex =
      getActiveWebhookUrls (endpoints s.table) modemIndex := by
  have howned : Owned s := by
    refine Reaches.invariant (I := Owned) ?_ ⟨past, meets_true _ _, hpast⟩ (owned_start table)
    exact fun s a u hs _ hstep => owned_apiStep hs hstep
  have hrows : Owned t ∧ ∀ q : RegisteredWebhook, q.modemIndex = modemIndex →
      (q ∈ t.table.rows ↔ q ∈ s.table.rows) := by
    refine Reaches.invariant (I := fun u => Owned u ∧ ∀ q : RegisteredWebhook,
      q.modemIndex = modemIndex → (q ∈ u.table.rows ↔ q ∈ s.table.rows)) ?_ ⟨actions, hothers, h⟩
      ⟨howned, fun _ _ => Iff.rfl⟩
    intro u a v hu ha hstep
    refine ⟨owned_apiStep hu.1 hstep, ?_⟩
    intro q hq
    exact (rows_of_spares hu.1 ha hstep hq).trans (hu.2 q hq)
  rw [getActiveWebhookUrls_eq, getActiveWebhookUrls_eq, activeUrls, activeUrls]
  congr 1
  apply activeRows_congr
  intro e _ he
  constructor
  · intro hmem
    obtain ⟨q, hq, rfl⟩ := List.mem_map.mp hmem
    exact List.mem_map_of_mem ((hrows.2 q he).mp hq)
  · intro hmem
    obtain ⟨q, hq, rfl⟩ := List.mem_map.mp hmem
    exact List.mem_map_of_mem ((hrows.2 q he).mpr hq)

/-! ## Deleted rows -/

/-- The key has been used, its row is gone, and no PUT still has the object. -/
structure Gone (id : Nat) (s : ApiState) : Prop where
  used : id < s.table.nextPk
  absent : ∀ r ∈ s.table.rows, r.id ≠ id
  forgotten : ∀ x ∈ s.pending, x.webhook.id = id → ∃ r, x = .delete r

theorem gone_apiStep {Raw : Type} {F : SerializerFields Raw} {s t : ApiState} {a : ApiAction Raw}
    {id : Nat} (hs : Gone id s) (h : apiStep F s a = some t) : Gone id t := by
  have hcases := apiStep_cases h
  have hused : id < t.table.nextPk :=
    Nat.lt_of_lt_of_le hs.used (owners_apiMove hcases).1
  have herase : ∀ {i : Nat}, ∀ x ∈ s.pending.eraseIdx i, x.webhook.id = id → ∃ r, x = .delete r :=
    fun x hx => hs.forgotten x (List.mem_of_mem_eraseIdx hx)
  have hkept : ∀ {i : Nat} {x : Statement}, s.pending[i]? = some x → (∀ r, x ≠ .delete r) →
      x.webhook.id ≠ id := by
    intro i x hi hnot hid
    obtain ⟨r, hr⟩ := hs.forgotten x (List.mem_of_getElem? hi) hid
    exact hnot r hr
  cases hcases with
  | refused htable hpending =>
    exact ⟨hused, htable ▸ hs.absent, hpending ▸ hs.forgotten⟩
  | created _ hrows _ hpending =>
    refine ⟨hused, ?_, hpending ▸ hs.forgotten⟩
    intro r hr
    rw [hrows] at hr
    cases List.mem_append.mp hr with
    | inl hr => exact hs.absent r hr
    | inr hr =>
      -- the new row has a new key, never one that was deleted
      rw [List.mem_singleton.mp hr]
      exact Nat.ne_of_gt hs.used
  | read hr _ _ hchanges htable hpending =>
    refine ⟨hused, htable ▸ hs.absent, ?_⟩
    intro x hx hid
    rw [hpending] at hx
    cases List.mem_append.mp hx with
    | inl hx => exact hs.forgotten x hx hid
    | inr hx =>
      have hne := hs.absent _ hr
      obtain ⟨_, changes, _, rfl⟩ := hchanges
      rw [List.mem_singleton.mp hx] at hid
      exact absurd hid hne
  | readForDelete _ _ _ htable hpending =>
    refine ⟨hused, htable ▸ hs.absent, ?_⟩
    intro x hx hid
    rw [hpending] at hx
    cases List.mem_append.mp hx with
    | inl hx => exact hs.forgotten x hx hid
    | inr hx => exact ⟨_, List.mem_singleton.mp hx⟩
  | failed _ htable hpending => exact ⟨hused, htable ▸ hs.absent, hpending ▸ herase⟩
  | @missed i now r _ hi htable hpending =>
    refine ⟨hused, htable ▸ hs.absent, ?_⟩
    intro x hx hid
    rw [hpending] at hx
    cases List.mem_or_eq_of_mem_set hx with
    | inl hx => exact hs.forgotten x hx hid
    | inr hx =>
      rw [hx] at hid
      exact absurd hid (hkept (x := .update r) hi (fun _ => Statement.noConfusion))
  | @replaced i now r _ hi hfits _ htable hpending =>
    refine ⟨hused, ?_, hpending ▸ herase⟩
    intro q hq
    rw [htable] at hq
    cases Table.mem_replace.mp hq with
    | inl hq =>
      rw [hq.1]
      exact hkept (x := .update r) hi (fun _ => Statement.noConfusion)
    | inr hq => exact hs.absent q hq.1
  | @reinserted i now r _ hi hrows _ hpending =>
    refine ⟨hused, ?_, hpending ▸ herase⟩
    intro q hq
    rw [hrows] at hq
    cases List.mem_append.mp hq with
    | inl hq => exact hs.absent q hq
    | inr hq =>
      rw [List.mem_singleton.mp hq]
      exact hkept (x := .insert r) hi (fun _ => Statement.noConfusion)
  | deleted _ hrows _ hpending =>
    refine ⟨hused, ?_, hpending ▸ herase⟩
    intro q hq
    rw [hrows] at hq
    exact hs.absent q (List.mem_filter.mp hq).1

/-- Once a row is gone and no PUT has its object, no request whatever brings its key back: the
    webhook is not found, under any modem, in all states that can be reached. -/
theorem deleted_webhook_stays_deleted {Raw : Type} (F : SerializerFields Raw) {s t : ApiState}
    {id : Nat} (hs : Gone id s) {actions : List (ApiAction Raw)}
    (h : exec (apiStep F) s actions = some t) (modemIndex : Nat) :
    getModemWebhook t.table modemIndex id = none := by
  have hgone : Gone id t := by
    refine Reaches.invariant (I := Gone id) ?_ ⟨actions, meets_true _ _, h⟩ hs
    exact fun s a u hs _ hstep => gone_apiStep hs hstep
  cases hget : getModemWebhook t.table modemIndex id with
  | none => rfl
  | some r =>
    obtain ⟨hmem, hid, _⟩ := getModemWebhook_eq_some hget
    exact absurd hid (hgone.absent r hmem)

/-! ## Requests with plain fields -/

/-- A URL field that asks for `https` only. -/
def plainUrl (raw : Str) : Option Str :=
  let url := Text.strip raw
  if "https://".toList.isPrefixOf url then some url else none

theorem plainUrl_stripped (raw u : Str) (h : plainUrl raw = some u) : Text.strip u = u := by
  simp only [plainUrl] at h
  split at h
  · cases h
    exact Text.strip_strip raw
  · cases h

theorem plainUrl_ne_nil (raw u : Str) (h : plainUrl raw = some u) : u ≠ [] := by
  simp only [plainUrl] at h
  split at h
  · next hprefix =>
    cases h
    intro hnil
    rw [hnil] at hprefix
    exact absurd hprefix (by decide)
  · cases h

def plainEnabled (raw : Str) : Option Bool :=
  if raw = "true".toList then some true
  else if raw = "false".toList then some false
  else none

def plainFields : SerializerFields Str :=
  ⟨some, plainUrl, plainEnabled, plainUrl_stripped, plainUrl_ne_nil⟩

/-- The address of a page, which is not the endpoint. -/
def pageUrl : Str := "https://webhook.site/#!/edit/e6138d12-ca64-4caa-ae32-fd304cdc063d".toList

def endpointUrl : Str := "https://webhook.site/e6138d12-ca64-4caa-ae32-fd304cdc063d".toList

def postOf (modemIndex : Nat) (url : Str) : ApiAction Str :=
  .post modemIndex (.ok [0, 1]) ⟨some "app".toList, some url, none⟩ 5

/-- The second POST has the URL that the first one was stored with. -/
theorem delivered_urls_reachable_page :
    ∃ t, exec (apiStep plainFields) (.start Table.empty)
        [postOf 0 pageUrl, postOf 0 endpointUrl, postOf 1 endpointUrl] = some t ∧
      t.answers = [.created ⟨1, 0, "app".toList, endpointUrl, true, 5⟩, .serverError,
        .created ⟨2, 1, "app".toList, endpointUrl, true, 5⟩] ∧
      getActiveWebhookUrls (endpoints t.table) 0 =
        ((listWebhooks t.table).filter (fun r => r.enabled && r.modemIndex == 0)).map
          RegisteredWebhook.url := by
  have hrun : (exec (apiStep plainFields) (.start Table.empty)
      [postOf 0 pageUrl, postOf 0 endpointUrl, postOf 1 endpointUrl]).map ApiState.answers =
      some [.created ⟨1, 0, "app".toList, endpointUrl, true, 5⟩, .serverError,
        .created ⟨2, 1, "app".toList, endpointUrl, true, 5⟩] := by decide +kernel
  obtain ⟨t, ht, hanswers⟩ := Option.map_eq_some_iff.mp hrun
  have h := delivered_urls_reachable plainFields Table.empty
    (fun r hr => absurd hr List.not_mem_nil) ht 0
  exact ⟨t, ht, hanswers, h.1⟩

/-- The other modem's webhook is disabled and deleted. -/
theorem requests_isolated_other :
    ∃ s t, exec (apiStep plainFields) (.start Table.empty)
        [postOf 0 pageUrl, postOf 1 endpointUrl] = some s ∧
      exec (apiStep plainFields) s
        [.put 1 2 ⟨none, none, some "false".toList⟩, .delete 1 2, .statement 1 6,
          .statement 0 7] = some t ∧
      t.pending = [.insert ⟨2, 1, "app".toList, endpointUrl, false, 5⟩] ∧
      getActiveWebhookUrls (endpoints t.table) 0 = getActiveWebhookUrls (endpoints s.table) 0 := by
  have hrun : (exec (apiStep plainFields) (.start Table.empty)
      [postOf 0 pageUrl, postOf 1 endpointUrl]).bind (fun s =>
        (execIf (apiStep plainFields) (Spares 0) s
          [.put 1 2 ⟨none, none, some "false".toList⟩, .delete 1 2, .statement 1 6,
            .statement 0 7]).map ApiState.pending) =
      some [.insert ⟨2, 1, "app".toList, endpointUrl, false, 5⟩] := by decide +kernel
  obtain ⟨s, hs, hrest⟩ := Option.bind_eq_some_iff.mp hrun
  obtain ⟨t, ht, hpending⟩ := Option.map_eq_some_iff.mp hrest
  exact ⟨s, t, hs, exec_of_execIf ht, hpending,
    requests_isolated plainFields Table.empty 0 hs (meets_of_execIf ht) (exec_of_execIf ht)⟩

/-- The webhook is deleted, and its URL registered again. -/
theorem deleted_webhook_stays_deleted_registered_again :
    ∃ s t, exec (apiStep plainFields) (.start Table.empty)
        [postOf 0 pageUrl, .delete 0 1, .statement 0 6] = some s ∧
      exec (apiStep plainFields) s [postOf 0 pageUrl] = some t ∧
      t.table.rows.map RegisteredWebhook.id = [2] ∧ getModemWebhook t.table 0 1 = none := by
  have hrun : (exec (apiStep plainFields) (.start Table.empty)
      [postOf 0 pageUrl, .delete 0 1, .statement 0 6]).bind (fun s =>
        (exec (apiStep plainFields) s [postOf 0 pageUrl]).map (fun t =>
          (s.table.nextPk, s.table.rows, s.pending, t.table.rows.map RegisteredWebhook.id))) =
      some (2, [], [], [2]) := by decide +kernel
  obtain ⟨s, hs, hrest⟩ := Option.bind_eq_some_iff.mp hrun
  obtain ⟨t, ht, hshape⟩ := Option.map_eq_some_iff.mp hrest
  simp only [Prod.mk.injEq] at hshape
  obtain ⟨hnext, hrows, hpending, hids⟩ := hshape
  have hgone : Gone 1 s := by
    refine ⟨?_, ?_, ?_⟩
    · rw [hnext]
      decide
    · rw [hrows]
      exact fun r hr => absurd hr List.not_mem_nil
    · rw [hpending]
      exact fun x hx => absurd hx List.not_mem_nil
  exact ⟨s, t, hs, ht, hids, deleted_webhook_stays_deleted plainFields hgone ht 0⟩

end HiWaveTel
