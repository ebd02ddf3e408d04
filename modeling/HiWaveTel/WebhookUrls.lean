import HiWaveTel.RepeatedDelivery
import HiWaveTel.Foundation.KeepFirst

/- The registered URLs, when they are written (`serializers.InboundWebhook*Serializer`)
   and when they are read (`webhook_delivery.get_active_webhook_urls`). Both normalise
   with `normalize_webhook_url`, which is idempotent, so that a row serves the same URL
   whether the admin stored it as typed or a serializer normalised it first. -/
namespace HiWaveTel
open Foundation

/-! ## normalize_webhook_url -/

theorem matchesIgnoreCase_self (c : Char) : Text.matchesIgnoreCase c c = true := by
  simp [Text.matchesIgnoreCase]

/-- A literal in two parts. -/
theorem afterLiteral_append (p q s : Str) :
    Text.afterLiteral (p ++ q) s = (Text.afterLiteral p s).bind (Text.afterLiteral q) := by
  induction p generalizing s with
  | nil => rfl
  | cons a p ih =>
    cases s with
    | nil => rfl
    | cons c s =>
      simp only [List.cons_append, Text.afterLiteral]
      split
      · exact ih s
      · rfl

theorem afterLiteral_self (p s : Str) : Text.afterLiteral p (p ++ s) = some s := by
  induction p with
  | nil => rfl
  | cons a p ih =>
    simp only [List.cons_append, Text.afterLiteral, matchesIgnoreCase_self, if_true]
    exact ih

/-- A token character is no `#` and no space. -/
theorem isTokenChar_spec {c : Char} (h : isTokenChar c = true) :
    Text.matchesIgnoreCase '#' c = false ∧ Text.isSpace c = false := by
  have hrange : (48 ≤ c.toNat ∧ c.toNat ≤ 57) ∨ (97 ≤ c.toNat ∧ c.toNat ≤ 102) ∨
      (65 ≤ c.toNat ∧ c.toNat ≤ 70) ∨ c = '-' := by
    simpa [isTokenChar, Char.le_def, UInt32.le_iff_toNat_le, or_assoc] using h
  have hhash : c ≠ '#' := by
    rintro rfl
    exact absurd h (by decide)
  have hlower : Char.isLower '#' = false := by decide
  constructor
  · simp [Text.matchesIgnoreCase, hhash, hlower]
  · rcases hrange with hr | hr | hr | rfl
    · simp only [Text.isSpace]
      simp
      omega
    · simp only [Text.isSpace]
      simp
      omega
    · simp only [Text.isSpace]
      simp
      omega
    · decide

theorem webhookSiteToken_spec {page u token : Str} (h : webhookSiteToken page u = some token) :
    token.length = 36 ∧ ∀ c ∈ token, isTokenChar c = true := by
  unfold webhookSiteToken at h
  cases hrest : Text.afterLiteral page u with
  | none => simp [hrest] at h
  | some rest =>
    simp only [hrest] at h
    split at h
    · next htoken =>
      cases h
      exact ⟨htoken.1, List.all_eq_true.mp htoken.2.1⟩
    · cases h

def webhookSite : Str := "https://webhook.site/".toList

/-- The address of the endpoint is none of the pages. -/
theorem webhookSiteToken_endpoint {page token : Str} (hpage : page ∈ webhookSitePages)
    (hlen : token.length = 36) (htoken : ∀ c ∈ token, isTokenChar c = true) :
    webhookSiteToken page (webhookSite ++ token) = none := by
  obtain ⟨rest, rfl⟩ : ∃ rest, page = webhookSite ++ '#' :: rest := by
    rcases List.mem_cons.mp hpage with rfl | hpage
    · exact ⟨"!/edit/".toList, rfl⟩
    · rw [List.mem_singleton.mp hpage]
      exact ⟨"!/view/".toList, rfl⟩
  have hnot : Text.afterLiteral ('#' :: rest) token = none := by
    cases token with
    | nil => rfl
    | cons c token =>
      have hc := (isTokenChar_spec (htoken c List.mem_cons_self)).1
      simp [Text.afterLiteral, hc]
  unfold webhookSiteToken
  rw [afterLiteral_append, afterLiteral_self, Option.bind_some, hnot]

/-- The two forms of a normalised URL: a stripped one that is no page, or an endpoint. -/
theorem normalizeWebhookUrl_cases (url : Str) :
    (webhookSitePages.findSome? (fun page => webhookSiteToken page (Text.strip url)) = none ∧
      normalizeWebhookUrl url = Text.strip url) ∨
    ∃ token : Str, normalizeWebhookUrl url = webhookSite ++ token ∧ token.length = 36 ∧
      ∀ c ∈ token, isTokenChar c = true := by
  cases h : webhookSitePages.findSome? (fun page => webhookSiteToken page (Text.strip url)) with
  | none =>
    refine Or.inl ⟨rfl, ?_⟩
    simp only [normalizeWebhookUrl, h]
  | some token =>
    obtain ⟨page, _, hpage⟩ := List.exists_of_findSome?_eq_some h
    refine Or.inr ⟨token, ?_, webhookSiteToken_spec hpage⟩
    simp only [normalizeWebhookUrl, h]
    rfl

theorem normalizeWebhookUrl_strip (url : Str) :
    normalizeWebhookUrl (Text.strip url) = normalizeWebhookUrl url := by
  simp only [normalizeWebhookUrl, Text.strip_strip]

theorem normalizeWebhookUrl_endpoint {token : Str} (hlen : token.length = 36)
    (htoken : ∀ c ∈ token, isTokenChar c = true) :
    normalizeWebhookUrl (webhookSite ++ token) = webhookSite ++ token := by
  have hnospace : ∀ c ∈ webhookSite ++ token, Text.isSpace c = false := by
    intro c hc
    rcases List.mem_append.mp hc with hsite | hc
    · have hall : webhookSite.all (fun c => !Text.isSpace c) = true := by decide
      simpa using List.all_eq_true.mp hall c hsite
    · exact (isTokenChar_spec (htoken c hc)).2
  have hnone : webhookSitePages.findSome?
      (fun page => webhookSiteToken page (webhookSite ++ token)) = none := by
    rw [List.findSome?_eq_none_iff]
    intro page hpage
    exact webhookSiteToken_endpoint hpage hlen htoken
  rw [normalizeWebhookUrl, Text.strip_eq_self hnospace]
  simp only [hnone]

theorem normalizeWebhookUrl_idempotent (url : Str) :
    normalizeWebhookUrl (normalizeWebhookUrl url) = normalizeWebhookUrl url := by
  rcases normalizeWebhookUrl_cases url with ⟨_, he⟩ | ⟨token, he, hlen, htoken⟩
  · -- nothing but the stripping, which is idempotent
    have hstrip := normalizeWebhookUrl_strip url
    rw [← he] at hstrip
    exact hstrip
  · rw [he]
    exact normalizeWebhookUrl_endpoint hlen htoken

/-! ## The serializers -/

/-- `validate_url` of `InboundWebhookCreateSerializer` and of `InboundWebhookUpdateSerializer`. -/
def validateUrl (value : Str) : Str :=
  let normalized := normalizeWebhookUrl value
  if normalized ≠ Text.strip value then normalized else value

/-- What a serializer stores of a URL that it accepts; the field trims it first. -/
def storedUrl (url : Str) : Str := validateUrl (Text.strip url)

theorem normalizeWebhookUrl_validateUrl (value : Str) :
    normalizeWebhookUrl (validateUrl value) = normalizeWebhookUrl value := by
  dsimp only [validateUrl]
  split
  · exact normalizeWebhookUrl_idempotent value
  · rfl

theorem normalizeWebhookUrl_storedUrl (url : Str) :
    normalizeWebhookUrl (storedUrl url) = normalizeWebhookUrl url := by
  rw [storedUrl, normalizeWebhookUrl_validateUrl, normalizeWebhookUrl_strip]

/-! ## get_active_webhook_urls -/

/-- `InboundWebhook.objects.filter(enabled=True, modem_index=...).order_by('id')`. -/
def activeRows (rows : List InboundWebhook) (modemIndex : Nat) : List InboundWebhook :=
  (rows.filter (fun r => r.enabled && r.modemIndex == modemIndex)).insertionSort
    (fun a b => a.id ≤ b.id)

/-- The loop of `get_active_webhook_urls` over the rows of a table. -/
def activeUrls (rows : List InboundWebhook) (modemIndex : Nat) : List Str :=
  (activeRows rows modemIndex).foldl addUrl []

theorem getActiveWebhookUrls_eq (webhooks : Table InboundWebhook) (modemIndex : Nat) :
    getActiveWebhookUrls webhooks modemIndex = activeUrls webhooks.rows modemIndex := rfl

/-- The loop keeps the first row of each normalised URL that is not blank. -/
theorem activeUrls_eq_keepFirst (rows : List InboundWebhook) (modemIndex : Nat) :
    activeUrls rows modemIndex =
      keepFirst (fun r => normalizeWebhookUrl r.url) (fun u => u ≠ [])
        (activeRows rows modemIndex) := by
  have hbody : addUrl = keepKey (fun r : InboundWebhook => normalizeWebhookUrl r.url)
      (fun u => u ≠ []) := by
    funext urls r
    simp only [addUrl, keepKey, normalizeWebhookUrl_strip]
  rw [activeUrls, hbody]
  rfl

/-! ## The rows that count -/

theorem mem_activeRows {rows : List InboundWebhook} {modemIndex : Nat} {r : InboundWebhook} :
    r ∈ activeRows rows modemIndex ↔ r ∈ rows ∧ r.enabled = true ∧ r.modemIndex = modemIndex := by
  simp [activeRows]

theorem activeRows_sorted (webhooks : Table InboundWebhook) (modemIndex : Nat) :
    (activeRows webhooks.rows modemIndex).Pairwise (fun a b => a.id < b.id) := by
  have hsorted : (activeRows webhooks.rows modemIndex).Pairwise (fun a b => a.id ≤ b.id) := by
    have htotal : Std.Total (fun a b : InboundWebhook => a.id ≤ b.id) :=
      ⟨fun a b => Nat.le_total a.id b.id⟩
    have htrans : IsTrans InboundWebhook (fun a b => a.id ≤ b.id) :=
      ⟨fun a b c => Nat.le_trans⟩
    exact List.pairwise_insertionSort _ _
  have hids : (activeRows webhooks.rows modemIndex).Pairwise (fun a b => a.id ≠ b.id) := by
    refine ((List.perm_insertionSort _ _).pairwise_iff (fun h => Ne.symm h)).mpr ?_
    exact webhooks.pk_ne.filter _
  exact (hsorted.and hids).imp (fun h => Nat.lt_of_le_of_ne h.1 h.2)

/-- Tables with the same rows that count have the same list of them. -/
theorem activeRows_congr {t t' : Table InboundWebhook} {modemIndex : Nat}
    (h : ∀ r : InboundWebhook, r.enabled = true → r.modemIndex = modemIndex →
      (r ∈ t'.rows ↔ r ∈ t.rows)) :
    activeRows t'.rows modemIndex = activeRows t.rows modemIndex := by
  have hmem : ∀ r, r ∈ activeRows t'.rows modemIndex ↔ r ∈ activeRows t.rows modemIndex := by
    intro r
    rw [mem_activeRows, mem_activeRows]
    exact and_congr_left (fun hr => h r hr.1 hr.2)
  have hnodup : ∀ u : Table InboundWebhook, (activeRows u.rows modemIndex).Nodup := by
    intro u
    refine (activeRows_sorted u modemIndex).imp ?_
    rintro a b hlt rfl
    exact Nat.lt_irrefl _ hlt
  have hperm := (List.perm_ext_iff_of_nodup (hnodup t') (hnodup t)).mpr hmem
  refine hperm.eq_of_pairwise ?_ (activeRows_sorted t' modemIndex) (activeRows_sorted t modemIndex)
  intro a b _ _ hab hba
  exact absurd hba (Nat.lt_asymm hab)

/-- The row as a delivery reads it. -/
def normalizedRow (r : InboundWebhook) : InboundWebhook :=
  { r with url := normalizeWebhookUrl r.url }

theorem activeUrls_normalized (rows : List InboundWebhook) (modemIndex : Nat) :
    activeUrls (rows.map normalizedRow) modemIndex = activeUrls rows modemIndex := by
  have hrows : activeRows (rows.map normalizedRow) modemIndex =
      (activeRows rows modemIndex).map normalizedRow := by
    unfold activeRows
    rw [List.filter_map]
    -- neither the filter nor the order reads the URL
    exact (List.map_insertionSort (fun a b : InboundWebhook => a.id ≤ b.id)
      (fun a b : InboundWebhook => a.id ≤ b.id) normalizedRow _ (fun _ _ _ _ => Iff.rfl)).symm
  have hkey : (fun r : InboundWebhook => normalizeWebhookUrl r.url) ∘ normalizedRow =
      fun r => normalizeWebhookUrl r.url := by
    funext r
    exact normalizeWebhookUrl_idempotent r.url
  rw [activeUrls_eq_keepFirst, activeUrls_eq_keepFirst, hrows, keepFirst_map, List.map_map, hkey,
    ← keepFirst_map]

/-! ## Written and read -/

/-- The row serves the URL. -/
def Serves (modemIndex : Nat) (r : InboundWebhook) (url : Str) : Prop :=
  r.enabled = true ∧ r.modemIndex = modemIndex ∧ normalizeWebhookUrl r.url = url

/-- The same webhook with its URL as typed, or as a serializer stores it. -/
def StoredAs (r r' : InboundWebhook) : Prop :=
  r' = r ∨ r' = { r with url := storedUrl r.url }

theorem normalizedRow_of_storedAs {rows rows' : List InboundWebhook}
    (h : List.Forall₂ StoredAs rows rows') : rows'.map normalizedRow = rows.map normalizedRow := by
  induction h with
  | nil => rfl
  | cons hr _ ih =>
    rw [List.map_cons, List.map_cons, ih]
    congr 1
    rcases hr with rfl | rfl
    · rfl
    · simp only [normalizedRow, normalizeWebhookUrl_storedUrl]

/-- Normalising twice is normalising once; the active URLs are the normalised URLs of the
    enabled rows of the modem in the order of their first ids, whatever other rows there are;
    and it makes no difference which rows a serializer has normalised. -/
theorem webhook_urls_agree :
    (∀ url, normalizeWebhookUrl (normalizeWebhookUrl url) = normalizeWebhookUrl url) ∧
    ∀ (t : Table InboundWebhook) (modemIndex : Nat),
      (getActiveWebhookUrls t modemIndex).Nodup ∧
      (∀ url, url ∈ getActiveWebhookUrls t modemIndex ↔
        url ≠ [] ∧ ∃ r ∈ t.rows, Serves modemIndex r url) ∧
      (getActiveWebhookUrls t modemIndex).Pairwise (fun u v =>
        ∃ r ∈ t.rows, Serves modemIndex r u ∧ ∀ s ∈ t.rows, Serves modemIndex s v → r.id < s.id) ∧
      (∀ t' : Table InboundWebhook,
        (∀ r : InboundWebhook, r.enabled = true → r.modemIndex = modemIndex →
          (r ∈ t'.rows ↔ r ∈ t.rows)) →
        getActiveWebhookUrls t' modemIndex = getActiveWebhookUrls t modemIndex) ∧
      ∀ rows', List.Forall₂ StoredAs t.rows rows' →
        activeUrls rows' modemIndex = getActiveWebhookUrls t modemIndex := by
  refine ⟨normalizeWebhookUrl_idempotent, ?_⟩
  intro t modemIndex
  refine ⟨nodup_getActiveWebhookUrls t modemIndex, ?_, ?_, ?_, ?_⟩
  · intro url
    rw [getActiveWebhookUrls_eq, activeUrls_eq_keepFirst, mem_keepFirst]
    refine and_congr_right (fun _ => exists_congr (fun r => ?_))
    rw [mem_activeRows, Serves, and_assoc, and_assoc]
  · rw [getActiveWebhookUrls_eq, activeUrls_eq_keepFirst]
    refine (keepFirst_order (activeRows_sorted t modemIndex)).imp ?_
    rintro u v ⟨r, hr, hu, hbefore⟩
    obtain ⟨hmem, henabled, hmodem⟩ := mem_activeRows.mp hr
    refine ⟨r, hmem, ⟨henabled, hmodem, hu⟩, ?_⟩
    intro s hs hv
    exact hbefore s (mem_activeRows.mpr ⟨hs, hv.1, hv.2.1⟩) hv.2.2
  · intro t' h
    rw [getActiveWebhookUrls_eq, getActiveWebhookUrls_eq, activeUrls, activeUrls, activeRows_congr h]
  · intro rows' h
    rw [getActiveWebhookUrls_eq, ← activeUrls_normalized rows', normalizedRow_of_storedAs h,
      activeUrls_normalized]

end HiWaveTel
