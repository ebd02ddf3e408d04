import HiWaveTel.SmsReport

/- The identity of a modem (`modem_identity.py`): its own number, manufacturer, model, IMEI and
   firmware, from the overview of the modem and from its SIM. The readers look their values
   up by keys such as `genericmanufacturer`; `show_modem` gives them under the normalised path,
   which starts with `modem`. `identity_never_read`: the two never meet. -/
namespace HiWaveTel
open Foundation

/-! ## Keys -/

def phoneKeyCandidates : List Str :=
  ["ownnumbers", "ownnumber", "msisdn", "phonenumber", "3gppmsisdn", "simmsisdn"].map String.toList

def manufacturerKeys : List Str := ["genericmanufacturer", "manufacturer"].map String.toList

def modelKeys : List Str := ["genericmodel", "model", "hardwaremodel"].map String.toList

def imeiKeys : List Str :=
  ["genericequipmentidentifier", "equipmentidentifier", "equipmentid", "imei",
    "3gppimei"].map String.toList

def firmwareKeys : List Str :=
  ["genericrevision", "revision", "firmwareversion", "softwareversion"].map String.toList

def simPathKeys : List Str := ["modemsim", "sim", "simpath", "primarysimpath"].map String.toList

/-! ## Readers -/

/-- `str.strip` of one character. -/
def stripChar (c : Char) (s : Str) : Str := (s.dropWhile (· == c)).rdropWhile (· == c)

/-- `normalize_phone_e164`. -/
def normalizePhoneE164 (raw : Str) : Str :=
  let value := stripChar '\'' (stripChar '"' (Text.strip raw))
  if value = [] ∨ value = "--".toList ∨ value = "unknown".toList then []
  else
    let value := value.filter (fun c => !(Text.isSpace c || c == '-' || c == '(' || c == ')'))
    let digits := (if value.head? = some '+' then value.drop 1 else value).filter Text.isDecimal
    if digits = [] then [] else '+' :: digits

theorem normalizePhoneE164_cases (raw : Str) :
    normalizePhoneE164 raw = [] ∨ ∃ digits, normalizePhoneE164 raw = '+' :: digits := by
  have hdigits : ∀ digits : Str, (if digits = [] then [] else '+' :: digits) = [] ∨
      ∃ digits', (if digits = [] then [] else '+' :: digits) = '+' :: digits' := by
    intro digits
    by_cases hnone : digits = []
    · exact Or.inl (if_pos hnone)
    · exact Or.inr ⟨digits, if_neg hnone⟩
  unfold normalizePhoneE164
  dsimp only
  by_cases hblank : stripChar '\'' (stripChar '"' (Text.strip raw)) = [] ∨
      stripChar '\'' (stripChar '"' (Text.strip raw)) = "--".toList ∨
      stripChar '\'' (stripChar '"' (Text.strip raw)) = "unknown".toList
  · exact Or.inl (if_pos hblank)
  · rw [if_neg hblank]
    exact hdigits _

/-- A number that is not empty has a visible character. -/
theorem strip_normalizePhoneE164 {raw : Str} (h : normalizePhoneE164 raw ≠ []) :
    Text.strip (normalizePhoneE164 raw) ≠ [] := by
  rcases normalizePhoneE164_cases raw with hnone | ⟨digits, hplus⟩
  · exact absurd hnone h
  · have hstrip := Text.strip_append_cons [] (c := '+') rfl digits
    rw [List.nil_append, List.dropWhile_nil, List.nil_append] at hstrip
    rw [hplus, hstrip]
    exact List.cons_ne_nil _ _

/-- `_first_value`. -/
def firstValue (details : Details) : List Str → Str
  | [] => []
  | key :: keys =>
    let val := Text.strip ((details.get key).getD [])
    if val ≠ [] ∧ val ≠ "--".toList ∧ val ≠ "unknown".toList then val
    else firstValue details keys

/-- `_extract_own_number`. -/
def extractOwnNumber (details : Details) : Str :=
  let raw := firstValue details phoneKeyCandidates
  if raw = [] then []
  else
    (((raw.splitOnP (fun c => c == ',' || c == ';')).map normalizePhoneE164).find?
      (fun normalized => normalized != [])).getD []

/-- `_extract_sim_path`. -/
def extractSimPath (details : Details) : Str :=
  ((simPathKeys.map (fun key => Text.strip ((details.get key).getD []))).find?
    (fun val => "/org/freedesktop/ModemManager1/SIM/".toList.isPrefixOf val)).getD []

/-- `_strip_env_value`. -/
def stripEnvValue (raw : Str) : Str :=
  let value := Text.strip raw
  let quoted := 2 ≤ value.length ∧ value.head? = value.getLast? ∧
    (value.head? = some '"' ∨ value.head? = some '\'')
  Text.strip (if quoted then (value.drop 1).dropLast else value)

/-- `get_modem_phone_number`; `phoneEnv` is `MODEM_N_DEVICE_PHONE_NUMBER` of each modem. -/
def getModemPhoneNumber (phoneEnv : Nat → Str) (modemIndex : Nat) : Str :=
  normalizePhoneE164 (stripEnvValue (phoneEnv modemIndex))

structure ModemIdentity where
  modemIndex : Nat
  phoneNumber : Str
  manufacturer : Str
  model : Str
  imei : Str
  firmware : Str
  simPath : Str
  deriving DecidableEq, Repr

section Probe
variable {σ : Type} (loads : Str → Option Json) (cfg : MmcliSettings)

/-- `show_modem`, and nothing where it raises an `MmcliError`. -/
def modemOverview : Mmcli σ Details :=
  Script.handle (showModem loads cfg)
    (fun
      | .mmcli _ => some (pure [])
      | .other => none)

/-- What is asked of the SIM; a run that ends with zero counts only. -/
def simDetails (simPath : Str) : Mmcli σ Details :=
  if simPath = [] then pure []
  else do
    let cp ← run cfg
    pure (if cp.returncode = 0 then parseKeyvalue cp.stdout else [])

/-- The identity that the two sources give. -/
def identityOf (phoneEnv : Nat → Str) (modemIndex : Nat) (phoneOverride : Option Str)
    (simPath : Str) (merged : Details) : ModemIdentity :=
  let phone := extractOwnNumber merged
  { modemIndex := modemIndex
    phoneNumber :=
      if phone ≠ [] then phone
      else normalizePhoneE164 (phoneOverride.getD (getModemPhoneNumber phoneEnv modemIndex))
    manufacturer := firstValue merged manufacturerKeys
    model := firstValue merged modelKeys
    imei := firstValue merged imeiKeys
    firmware := firstValue merged firmwareKeys
    simPath := simPath }

/-- `probe_modem_identity`. -/
def probeModemIdentity (phoneEnv : Nat → Str) (modemIndex : Nat) (phoneOverride : Option Str) :
    Mmcli σ ModemIdentity := do
  let modem ← modemOverview loads cfg
  let simPath := extractSimPath modem
  let sim ← simDetails cfg simPath
  pure (identityOf phoneEnv modemIndex phoneOverride simPath (mergeMmcliSources [modem, sim]))

variable {loads} {cfg}

theorem contained_modemOverview :
    MmcliContained 3 (modemOverview loads cfg : Mmcli σ Details) := by
  refine Script.escapes_handle (k := 0) contained_showModem ?_
  intro e k hclause
  cases e with
  | mmcli exc =>
    cases hclause
    exact ⟨Raised.noConfusion, contained_pure 0 _⟩
  | other => cases hclause

theorem contained_simDetails {simPath : Str} :
    MmcliContained 1 (simDetails cfg simPath : Mmcli σ Details) := by
  unfold simDetails
  split
  · exact contained_pure 1 _
  · exact contained_bind (k := 0) contained_run (fun cp => contained_pure 0 _)

theorem contained_probeModemIdentity {phoneEnv : Nat → Str} {modemIndex : Nat}
    {phoneOverride : Option Str} :
    MmcliContained 4
      (probeModemIdentity loads cfg phoneEnv modemIndex phoneOverride : Mmcli σ ModemIdentity) := by
  refine contained_bind (k := 1) contained_modemOverview (fun modem => ?_)
  exact contained_bind (k := 0) contained_simDetails (fun sim => contained_pure 0 _)

theorem ignores_modemOverview :
    Script.Ignores (modemOverview loads cfg : Mmcli σ Details) (modemOverview loads cfg) := by
  refine Script.ignores_handle ignores_showModem ?_ ?_
  · intro e
    cases e with
    | mmcli exc => exact ⟨fun h => (by cases h), fun h => (by cases h)⟩
    | other => exact ⟨fun _ => rfl, fun _ => rfl⟩
  · intro e k k₀ hk hk₀
    cases e with
    | mmcli exc =>
      cases hk
      cases hk₀
      exact Script.ignores_pure []
    | other => cases hk

end Probe

/-! ## Keys of the two sources -/

/-- All keys start with a word. -/
def KeysUnder (word : Str) (d : Details) : Prop := ∀ k v, d.get k = some v → word <+: k

theorem keysUnder_nil (word : Str) : KeysUnder word [] := by
  intro k v h
  cases h

theorem KeysUnder.get_none {word k : Str} {d : Details} (h : KeysUnder word d)
    (hk : ¬ word <+: k) : d.get k = none := by
  cases hget : d.get k with
  | none => rfl
  | some v => exact absurd (h k v hget) hk

/-- What neither part has, the merge does not have. -/
theorem get_mergeMmcliSources_none {p q : Details} {k : Str} (hp : p.get k = none)
    (hq : q.get k = none) : (mergeMmcliSources [p, q]).get k = none := by
  have hbest : bestValue [p, q] k = [] := by
    rw [bestValue, List.foldl_cons, List.foldl_cons, List.foldl_nil,
      longerValue_of_get_none hp, longerValue_of_get_none hq]
  rw [get_mergeMmcliSources, if_pos hbest]

theorem keysUnder_merge {word : Str} {p q : Details} (hp : KeysUnder word p)
    (hq : KeysUnder word q) : KeysUnder word (mergeMmcliSources [p, q]) := by
  intro k v h
  by_contra hnot
  rw [get_mergeMmcliSources_none (hp.get_none hnot) (hq.get_none hnot)] at h
  cases h

/-- A path is normalised part by part; only the end of a capital sigma depends on what follows. -/
theorem prefix_normalizeKey {a b : Str} (ha : a.any Text.isCapitalSigma = false)
    (h : a <+: b) : normalizeKey a <+: normalizeKey b := by
  obtain ⟨rest, rfl⟩ := h
  have hplain : ∀ c ∈ a, Text.isCapitalSigma c = false :=
    fun c hc => Bool.eq_false_iff.mpr (List.any_eq_false.mp ha c hc)
  exact (Text.lower_prefix_of_noSigma hplain rest).filter _

theorem keysUnder_lines {path : Str} {fields : List Field}
    (hpath : path.any Text.isCapitalSigma = false) (h : ∀ f ∈ fields, path <+: f.key) :
    KeysUnder (normalizeKey path) (parseKeyvalue (printFields fields)) := by
  intro k v hget
  rw [get_parseKeyvalue, parsedLines_fields] at hget
  obtain ⟨f, hf, hkey⟩ := exists_field_of_mem (Dict.mem_of_get hget)
  have hunder := prefix_normalizeKey hpath (h f hf)
  rwa [hkey] at hunder

mutual

/-- The keys below a parent key start with it. -/
theorem prefix_flattenItems {parentKey : Str} (hne : parentKey ≠ []) :
    ∀ fields : List (Str × Json), ∀ kv ∈ flattenItems parentKey fields, parentKey <+: kv.1
  | [], kv, h => by
    rw [flattenItems] at h
    cases h
  | field :: rest, kv, h => by
    rw [flattenItems] at h
    rcases List.mem_append.mp h with h | h
    · exact prefix_flattenItem hne field kv h
    · exact prefix_flattenItems hne rest kv h

theorem prefix_flattenItem {parentKey : Str} (hne : parentKey ≠ []) :
    ∀ field : Str × Json, ∀ kv ∈ flattenItem parentKey field, parentKey <+: kv.1
  | (k, .obj fields), kv, h => by
    rw [flattenItem, if_neg hne] at h
    refine Dict.forall_keys_ofItems (P := (parentKey <+: ·)) ?_ kv h
    intro below hbelow
    have hnested : parentKey ++ '.' :: k ≠ [] := by simp
    exact (List.prefix_append _ _).trans (prefix_flattenItems hnested fields below hbelow)
  | (k, .null), kv, h | (k, .bool _), kv, h | (k, .num _), kv, h | (k, .str _), kv, h
  | (k, .arr _), kv, h => by
    rw [flattenItem_leaf (fun fields hobj => by cases hobj), if_neg hne, List.mem_singleton] at h
    rw [h]
    exact List.prefix_append _ _

end

/-- An object with one key has no others below it. -/
theorem prefix_flattenDict {word : Str} (hne : word ≠ []) {top : List (Str × Json)}
    (htop : ∀ field ∈ top, field.1 = word) : ∀ kv ∈ flattenDict top, word <+: kv.1 := by
  apply Dict.forall_keys_ofItems (P := (word <+: ·))
  induction top with
  | nil =>
    intro kv hkv
    rw [flattenItems] at hkv
    cases hkv
  | cons field top ih =>
    intro kv hkv
    rw [flattenItems] at hkv
    rcases List.mem_append.mp hkv with hkv | hkv
    · obtain ⟨k, v⟩ := field
      obtain rfl : k = word := htop (k, v) List.mem_cons_self
      by_cases hobj : ∃ fields, v = .obj fields
      · obtain ⟨fields, rfl⟩ := hobj
        rw [flattenItem, if_pos rfl] at hkv
        exact Dict.forall_keys_ofItems (P := (k <+: ·)) (prefix_flattenItems hne fields) kv hkv
      · rw [flattenItem_leaf (fun fields hv => hobj ⟨fields, hv⟩), if_pos rfl,
          List.mem_singleton] at hkv
        rw [hkv]
    · exact ih (fun field' h => htop field' (List.mem_cons_of_mem _ h)) kv hkv

theorem keysUnder_json {loads : Str → Option Json} {stdout word : Str} (hne : word ≠ [])
    (hword : word.any Text.isCapitalSigma = false)
    (htop : ∀ top, loads stdout = some (.obj top) → ∀ field ∈ top, field.1 = word) :
    KeysUnder (normalizeKey word) (jsonDetails loads stdout) := by
  unfold jsonDetails normalizeMmcliJson
  split
  · exact keysUnder_nil _
  · split
    · exact keysUnder_nil _
    · next top hloads =>
      intro k v hget
      by_contra hnot
      have hnone : (normalizeFlattened (flattenDict top)).get k = none := by
        apply get_normalizeFlattened_none
        rintro kv hkv rfl
        exact hnot (prefix_normalizeKey hword (prefix_flattenDict hne (htop top hloads) kv hkv))
      rw [Option.getD_some, hnone] at hget
      cases hget
    · exact keysUnder_nil _

/-! ## The overview -/

theorem firstValue_of_none {d : Details} {keys : List Str} (h : ∀ key ∈ keys, d.get key = none) :
    firstValue d keys = [] := by
  induction keys with
  | nil => rfl
  | cons key keys ih =>
    have hblank : Text.strip ((d.get key).getD []) = [] := by
      rw [h key List.mem_cons_self]
      rfl
    rw [firstValue, hblank, if_neg (fun hval => hval.1 rfl)]
    exact ih (fun key' hkey => h key' (List.mem_cons_of_mem _ hkey))

theorem firstValue_ne_placeholder (d : Details) (keys : List Str) :
    firstValue d keys ≠ "--".toList := by
  induction keys with
  | nil => exact fun h => by cases h
  | cons key keys ih =>
    rw [firstValue]
    split
    · next hval => exact hval.2.1
    · exact ih

/-- The values of the overview under their normalised paths. -/
def overviewValues (m d e r : Str) : List (Str × Str) :=
  [("modemgenericmanufacturer".toList, m), ("modemgenericmodel".toList, d),
    ("modemgenericequipmentidentifier".toList, e), ("modemgenericrevision".toList, r)]

theorem overviewKeys_eq (m d e r : Str) :
    (overviewValues m d e r).map Prod.fst = (overviewValues [] [] [] []).map Prod.fst := rfl

/-- The lines give `v` under the key, however it is spelled, and nothing else. -/
structure LinesReport (fields : List Field) (nk v : Str) : Prop where
  printed : ∃ f ∈ fields, normalizeKey f.key = nk
  same : ∀ f ∈ fields, normalizeKey f.key = nk → f.value = v

theorem get_linesReport {fields : List Field} {nk v : Str} (h : LinesReport fields nk v)
    (hnk : nk ≠ []) (hv : Text.strip v ≠ []) :
    (parseKeyvalue (printFields fields)).get nk = some (Text.strip v) := by
  have hline : ∀ f ∈ fields, normalizeKey f.key = nk →
      parseLine (fieldLine f.key f.value) = some (nk, Text.strip v) := by
    intro f hf hkey
    rw [parseLine_fieldLine f.key_plain, hkey, h.same f hf hkey, if_pos ⟨hnk, hv⟩]
  rw [get_parseKeyvalue, parsedLines_fields]
  apply Dict.get_eq_some
  · obtain ⟨f, hf, hkey⟩ := h.printed
    exact ⟨_, List.mem_filterMap.mpr ⟨f, hf, hline f hf hkey⟩, rfl⟩
  · intro kv hkv hkey
    obtain ⟨f, hf, hfield⟩ := List.mem_filterMap.mp hkv
    have hnk : normalizeKey f.key = nk := by
      rw [parseLine_fieldLine f.key_plain] at hfield
      split at hfield
      · cases hfield
        exact hkey
      · cases hfield
    rw [hline f hf hnk] at hfield
    cases hfield
    rfl

section Overview
variable (loads : Str → Option Json)

/-- What a run of `--output-json` adds. -/
def jsonRun : RunResult → Details
  | .completed returncode stdout _ => if returncode = 0 then jsonDetails loads stdout else []
  | _ => []

/-- `mmcli` reports the four values in the nested shape: as `modem.` lines, or as an object with
    the one key `modem`. What the SIM reports, if it is asked, is below `sim`. -/
structure ReportsOverview (m d e r : Str) (fields : List Field) (js : RunResult)
    (rest : List RunResult) : Prop where
  proper : ∀ v ∈ [m, d, e, r], Text.strip v ≠ [] ∧ v ≠ "--".toList ∧ v ≠ "unknown".toList
  lines : ∀ f ∈ fields, "modem.".toList <+: f.key
  object : ∀ stdout stderr top, js = .completed 0 stdout stderr → loads stdout = some (.obj top) →
    ∀ field ∈ top, field.1 = "modem".toList
  values : ∀ kv ∈ overviewValues m d e r, LinesReport fields kv.1 kv.2 ∨
    ∃ stdout stderr, js = .completed 0 stdout stderr ∧ JsonReports loads stdout kv.1 kv.2
  sim : extractSimPath (mergeMmcliSources [parseKeyvalue (printFields fields), jsonRun loads js]) ≠
      [] → ∀ stdout stderr more, rest = .completed 0 stdout stderr :: more →
    KeysUnder "sim".toList (parseKeyvalue stdout)

variable {loads} {m d e r : Str} {fields : List Field} {js : RunResult} {rest : List RunResult}

/-- All keys of the overview are below `modem`. -/
theorem ReportsOverview.keysUnder (h : ReportsOverview loads m d e r fields js rest) :
    KeysUnder "modem".toList
      (mergeMmcliSources [parseKeyvalue (printFields fields), jsonRun loads js]) := by
  have hlines := keysUnder_lines (by decide) h.lines
  rw [show normalizeKey "modem.".toList = "modem".toList by decide +kernel] at hlines
  apply keysUnder_merge hlines
  cases js with
  | completed returncode stdout stderr =>
    by_cases hzero : returncode = 0
    · subst hzero
      have hjson : KeysUnder (normalizeKey "modem".toList) (jsonDetails loads stdout) :=
        keysUnder_json (by decide) (by decide) (fun top => h.object stdout stderr top rfl)
      rw [show normalizeKey "modem".toList = "modem".toList by decide +kernel] at hjson
      rwa [jsonRun, if_pos rfl]
    · rw [jsonRun, if_neg hzero]
      exact keysUnder_nil _
  | timeout => exact keysUnder_nil _
  | launchFailed => exact keysUnder_nil _

/-- A value that is no placeholder is part of what is merged. -/
theorem ReportsOverview.merged_ne_nil (h : ReportsOverview loads m d e r fields js rest)
    {kv : Str × Str} (hkv : kv ∈ overviewValues m d e r)
    (hblank : isBlankMmcliValue kv.2 = false) :
    mergeMmcliSources [parseKeyvalue (printFields fields), jsonRun loads js] ≠ [] := by
  have hne : Text.strip kv.2 ≠ [] :=
    ne_nil_of_not_blank ((isBlankMmcliValue_strip kv.2).trans hblank)
  have hkey : kv.1 ≠ [] := by
    have hall : ∀ k ∈ (overviewValues m d e r).map Prod.fst, k ≠ [] := by
      rw [overviewKeys_eq]
      decide
    exact hall kv.1 (List.mem_map_of_mem hkv)
  rcases h.values kv hkv with hlines | ⟨stdout, stderr, rfl, hjson⟩
  · exact mergeMmcliSources_ne_nil List.mem_cons_self
      ⟨kv.1, _, get_linesReport hlines hkey hne, (isBlankMmcliValue_strip kv.2).trans hblank⟩
  · apply mergeMmcliSources_ne_nil (List.mem_cons_of_mem _ List.mem_cons_self)
    refine ⟨kv.1, kv.2, ?_, hblank⟩
    rw [jsonRun, if_pos rfl]
    exact get_jsonDetails hkey hjson

variable {σ : Type} {cfg : MmcliSettings} {phoneEnv : Nat → Str} {modemIndex : Nat}
  {phoneOverride : Option Str} {s s' : σ} {rs rest' : List RunResult} {stderr : Str}
  {identity : ModemIdentity}

/-- An identity is that of the two sources. -/
theorem probeModemIdentity_ok
    (h : probeModemIdentity loads cfg phoneEnv modemIndex phoneOverride s rs =
      some (.ok identity, s', rest')) :
    ∃ modem s₁ rest₁ sim, modemOverview loads cfg s rs = some (.ok modem, s₁, rest₁) ∧
      simDetails cfg (extractSimPath modem) s₁ rest₁ = some (.ok sim, s', rest') ∧
      identity = identityOf phoneEnv modemIndex phoneOverride (extractSimPath modem)
        (mergeMmcliSources [modem, sim]) := by
  obtain ⟨modem, s₁, rest₁, hmodem, h⟩ := Script.bind_eq_ok.mp h
  obtain ⟨sim, s₂, rest₂, hsim, h⟩ := Script.bind_eq_ok.mp h
  cases h
  exact ⟨modem, s₁, rest₁, sim, hmodem, hsim, rfl⟩

/-- The SIM gives nothing, or the lines of a run that ends with zero. -/
theorem simDetails_ok {simPath : Str} {sim : Details}
    (h : simDetails cfg simPath s rs = some (.ok sim, s', rest')) :
    sim = [] ∨ (simPath ≠ [] ∧ ∃ stdout stderr more, rs = .completed 0 stdout stderr :: more ∧
      sim = parseKeyvalue stdout) := by
  unfold simDetails at h
  split at h
  · cases h
    exact Or.inl rfl
  · next hpath =>
    cases rs with
    | nil => cases h
    | cons answer more =>
      cases answer with
      | completed returncode stdout stderr =>
        by_cases hzero : returncode = 0
        · subst hzero
          cases h
          exact Or.inr ⟨hpath, stdout, stderr, _, rfl, rfl⟩
        · have hnone : (some (.ok (if returncode = 0 then parseKeyvalue stdout else []), s, more) :
              Option (Except Raised Details × σ × List RunResult)) = some (.ok sim, s', rest') := h
          rw [if_neg hzero] at hnone
          cases hnone
          exact Or.inl rfl
      | timeout => cases h
      | launchFailed => cases h

/-- The overview is the merge of its two outputs, or nothing where the second run times out. -/
theorem modemOverview_reported {modem : Details} {s₁ : σ} {rest₁ : List RunResult}
    (hmerged : mergeMmcliSources [parseKeyvalue (printFields fields), jsonRun loads js] ≠ [])
    (h : modemOverview loads cfg s (.completed 0 (printFields fields) stderr :: js :: rest) =
      some (.ok modem, s₁, rest₁)) :
    rest₁ = rest ∧ (modem = [] ∨
      modem = mergeMmcliSources [parseKeyvalue (printFields fields), jsonRun loads js]) := by
  cases js with
  | completed returncode stdout stderr' =>
    have hshow : showModem loads cfg s
        (.completed 0 (printFields fields) stderr :: .completed returncode stdout stderr' :: rest) =
        some (.ok (mergeMmcliSources [parseKeyvalue (printFields fields),
          jsonRun loads (.completed returncode stdout stderr')]), s, rest) := by
      show (if mergeMmcliSources [parseKeyvalue (printFields fields),
          jsonRun loads (.completed returncode stdout stderr')] ≠ [] then _ else _ :
          Mmcli σ Details) s rest = _
      rw [if_pos hmerged]
      rfl
    rw [modemOverview, Script.handle, hshow] at h
    cases h
    exact ⟨rfl, Or.inr rfl⟩
  | timeout =>
    cases h
    exact ⟨rfl, Or.inl rfl⟩
  | launchFailed => cases h

/-- The keys that the identity is read by. -/
def identityKeys : List Str := manufacturerKeys ++ modelKeys ++ imeiKeys ++ firmwareKeys

/-- None of them is below `modem` or `sim`. -/
theorem identityKeys_bare {key : Str} (h : key ∈ identityKeys) :
    ¬ "modem".toList <+: key ∧ ¬ "sim".toList <+: key := by
  have hall : ∀ key ∈ identityKeys, ¬ "modem".toList <+: key ∧ ¬ "sim".toList <+: key := by
    decide +kernel
  exact hall key h

theorem subset_identityKeys : manufacturerKeys ⊆ identityKeys ∧ modelKeys ⊆ identityKeys ∧
    imeiKeys ⊆ identityKeys ∧ firmwareKeys ⊆ identityKeys := by
  simp only [identityKeys, List.append_assoc]
  refine ⟨?_, ?_, ?_, ?_⟩
  · exact List.subset_append_left _ _
  · exact List.subset_append_of_subset_right _ (List.subset_append_left _ _)
  · exact List.subset_append_of_subset_right _
      (List.subset_append_of_subset_right _ (List.subset_append_left _ _))
  · exact List.subset_append_of_subset_right _
      (List.subset_append_of_subset_right _ (List.subset_append_right _ _))

/-- So there is nothing under them. -/
theorem merged_identityKeys (h : ReportsOverview loads m d e r fields js rest)
    (hmerged : mergeMmcliSources [parseKeyvalue (printFields fields), jsonRun loads js] ≠ [])
    {modem sim : Details} {s₁ : σ} {rest₁ : List RunResult}
    (hmodem : modemOverview loads cfg s
      (.completed 0 (printFields fields) stderr :: js :: rest) = some (.ok modem, s₁, rest₁))
    (hsim : simDetails cfg (extractSimPath modem) s₁ rest₁ = some (.ok sim, s', rest'))
    {key : Str} (hkey : key ∈ identityKeys) :
    (mergeMmcliSources [modem, sim]).get key = none := by
  obtain ⟨hnotModem, hnotSim⟩ := identityKeys_bare hkey
  obtain ⟨rfl, hcases⟩ := modemOverview_reported hmerged hmodem
  have hunder : KeysUnder "modem".toList modem := by
    rcases hcases with rfl | rfl
    · exact keysUnder_nil _
    · exact h.keysUnder
  have hsimUnder : KeysUnder "sim".toList sim := by
    rcases simDetails_ok hsim with rfl | ⟨hpath, stdout, stderr, more, hrest, rfl⟩
    · exact keysUnder_nil _
    · rcases hcases with rfl | rfl
      · -- an empty overview names no SIM
        exact absurd (by decide) hpath
      · exact h.sim hpath stdout stderr more hrest
  exact get_mergeMmcliSources_none (hunder.get_none hnotModem) (hsimUnder.get_none hnotSim)

/-- Each value is missing: a placeholder is never returned, and the others are not found. -/
theorem firstValue_ne_reported (h : ReportsOverview loads m d e r fields js rest)
    {modem sim : Details} {s₁ : σ} {rest₁ : List RunResult}
    (hmodem : modemOverview loads cfg s
      (.completed 0 (printFields fields) stderr :: js :: rest) = some (.ok modem, s₁, rest₁))
    (hsim : simDetails cfg (extractSimPath modem) s₁ rest₁ = some (.ok sim, s', rest'))
    {nk v : Str} (hvalue : (nk, v) ∈ overviewValues m d e r) {keys : List Str}
    (hkeys : keys ⊆ identityKeys) :
    firstValue (mergeMmcliSources [modem, sim]) keys ≠ Text.strip v := by
  have hproper : Text.strip v ≠ [] := by
    have hmem : v ∈ [m, d, e, r] := List.mem_map_of_mem (f := Prod.snd) hvalue
    exact (h.proper v hmem).1
  cases hblank : isBlankMmcliValue v with
  | true =>
    -- `--` with spaces around it
    have hplaceholder : Text.strip v = "--".toList := by
      simpa [isBlankMmcliValue, hproper] using hblank
    rw [hplaceholder]
    exact firstValue_ne_placeholder _ _
  | false =>
    have hmerged := h.merged_ne_nil hvalue hblank
    rw [firstValue_of_none (fun key hkey =>
      merged_identityKeys h hmerged hmodem hsim (hkeys hkey))]
    exact Ne.symm hproper

/-- The probe returns the four values as they are reported. -/
def IdentityRead (loads : Str → Option Json) (cfg : MmcliSettings) (phoneEnv : Nat → Str)
    (modemIndex : Nat) (phoneOverride : Option Str) (m d e r : Str) (s : σ)
    (rs : List RunResult) : Prop :=
  ∃ identity s' rest,
    probeModemIdentity loads cfg phoneEnv modemIndex phoneOverride s rs =
      some (.ok identity, s', rest) ∧
    identity.manufacturer = Text.strip m ∧ identity.model = Text.strip d ∧
    identity.imei = Text.strip e ∧ identity.firmware = Text.strip r

/-- None of the four values is read. -/
theorem identity_values_missing (h : ReportsOverview loads m d e r fields js rest)
    (hrun : probeModemIdentity loads cfg phoneEnv modemIndex phoneOverride s
      (.completed 0 (printFields fields) stderr :: js :: rest) = some (.ok identity, s', rest')) :
    identity.manufacturer ≠ Text.strip m ∧ identity.model ≠ Text.strip d ∧
      identity.imei ≠ Text.strip e ∧ identity.firmware ≠ Text.strip r := by
  obtain ⟨modem, s₁, rest₁, sim, hmodem, hsim, rfl⟩ := probeModemIdentity_ok hrun
  obtain ⟨hmanufacturer, hmodel, himei, hfirmware⟩ := subset_identityKeys
  have hm : (_, m) ∈ overviewValues m d e r := List.mem_cons_self
  have hd : (_, d) ∈ overviewValues m d e r := List.mem_cons_of_mem _ List.mem_cons_self
  have he : (_, e) ∈ overviewValues m d e r :=
    List.mem_cons_of_mem _ (List.mem_cons_of_mem _ List.mem_cons_self)
  have hr : (_, r) ∈ overviewValues m d e r :=
    List.mem_cons_of_mem _ (List.mem_cons_of_mem _ (List.mem_cons_of_mem _ List.mem_cons_self))
  refine ⟨?_, ?_, ?_, ?_⟩
  · exact firstValue_ne_reported h hmodem hsim hm hmanufacturer
  · exact firstValue_ne_reported h hmodem hsim hd hmodel
  · exact firstValue_ne_reported h hmodem hsim he himei
  · exact firstValue_ne_reported h hmodem hsim hr hfirmware

end Overview

/-! ## The nested object -/

def overviewFields (m d e r : Str) : List (Str × Json) :=
  [("modem".toList, .obj [("generic".toList, .obj
    [("manufacturer".toList, .str m), ("model".toList, .str d),
     ("equipment-identifier".toList, .str e), ("revision".toList, .str r)])])]

def overviewJson (m d e r : Str) : Str := dumps (.obj (overviewFields m d e r))

/-- `json.loads` on that object. -/
def loadsOverview (m d e r : Str) (raw : Str) : Option Json :=
  if raw = overviewJson m d e r then some (.obj (overviewFields m d e r)) else none

theorem flattenDict_overviewFields (m d e r : Str) :
    flattenDict (overviewFields m d e r) =
      [("modem.generic.manufacturer".toList, .str m), ("modem.generic.model".toList, .str d),
        ("modem.generic.equipment-identifier".toList, .str e),
        ("modem.generic.revision".toList, .str r)] := by
  simp only [overviewFields, flattenDict, flattenItems, flattenItem, List.append_nil,
    List.singleton_append, if_true]
  rfl

/-- Its values are found under the paths of `overviewValues`. -/
theorem normalized_overviewFields (m d e r : Str) :
    (flattenDict (overviewFields m d e r)).map (fun kv => (normalizeKey kv.1, kv.2)) =
      (overviewValues m d e r).map (fun kv => (kv.1, Json.str kv.2)) := by
  have hm : normalizeKey "modem.generic.manufacturer".toList =
    "modemgenericmanufacturer".toList := by decide +kernel
  have hd : normalizeKey "modem.generic.model".toList = "modemgenericmodel".toList := by
    decide +kernel
  have he : normalizeKey "modem.generic.equipment-identifier".toList =
    "modemgenericequipmentidentifier".toList := by decide +kernel
  have hr : normalizeKey "modem.generic.revision".toList = "modemgenericrevision".toList := by
    decide +kernel
  rw [flattenDict_overviewFields]
  simp only [List.map_cons, List.map_nil, hm, hd, he, hr, overviewValues]

theorem value_of_mem_overview {m d e r : Str} {kv : Str × Json}
    (h : kv ∈ flattenDict (overviewFields m d e r)) :
    ∃ value ∈ overviewValues m d e r, value.1 = normalizeKey kv.1 ∧ kv.2 = .str value.2 := by
  have hmem : (normalizeKey kv.1, kv.2) ∈
      (flattenDict (overviewFields m d e r)).map (fun kv => (normalizeKey kv.1, kv.2)) :=
    List.mem_map_of_mem h
  rw [normalized_overviewFields] at hmem
  obtain ⟨value, hvalue, heq⟩ := List.mem_map.mp hmem
  exact ⟨value, hvalue, congrArg Prod.fst heq, (congrArg Prod.snd heq).symm⟩

theorem nodup_overviewValues (m d e r : Str) : ((overviewValues m d e r).map Prod.fst).Nodup := by
  rw [overviewKeys_eq]
  decide

theorem jsonReports_overview {m d e r nk v : Str} (h : (nk, v) ∈ overviewValues m d e r) :
    JsonReports (loadsOverview m d e r) (overviewJson m d e r) nk v := by
  refine ⟨?_, overviewFields m d e r, if_pos rfl, ?_, ?_⟩
  · have hopen := Text.strip_append_cons [] (c := '\x7b') rfl
      (List.intercalate ", ".toList (dumpsFields (overviewFields m d e r)) ++ ['\x7d'])
    rw [List.nil_append] at hopen
    rw [overviewJson, dumps, List.cons_append, hopen]
    simp
  · have hmem : (nk, Json.str v) ∈ (overviewValues m d e r).map (fun kv => (kv.1, Json.str kv.2)) :=
      List.mem_map.mpr ⟨(nk, v), h, rfl⟩
    rw [← normalized_overviewFields] at hmem
    obtain ⟨kv, hkv, heq⟩ := List.mem_map.mp hmem
    exact ⟨kv, hkv, congrArg Prod.fst heq⟩
  · intro kv hkv hkey
    obtain ⟨value, hvalue, hnk, hstr⟩ := value_of_mem_overview hkv
    have hsame : value = (nk, v) :=
      List.inj_on_of_nodup_map (nodup_overviewValues m d e r) hvalue h (hnk.trans hkey)
    rw [hstr, hsame]

theorem extractSimPath_of_none {d : Details} (h : ∀ key ∈ simPathKeys, d.get key = none) :
    extractSimPath d = [] := by
  have hnone : (simPathKeys.map (fun key => Text.strip ((d.get key).getD []))).find?
      (fun val => "/org/freedesktop/ModemManager1/SIM/".toList.isPrefixOf val) = none := by
    rw [List.find?_eq_none]
    intro val hval
    obtain ⟨key, hkey, rfl⟩ := List.mem_map.mp hval
    rw [h key hkey]
    decide
  rw [extractSimPath, hnone]
  rfl

/-- The object alone names no SIM. -/
theorem extractSimPath_overview (m d e r stderr : Str) :
    extractSimPath (mergeMmcliSources [parseKeyvalue (printFields []),
      jsonRun (loadsOverview m d e r) (.completed 0 (overviewJson m d e r) stderr)]) = [] := by
  have hother : ∀ key ∈ simPathKeys, key ∉ (overviewValues m d e r).map Prod.fst := by
    rw [overviewKeys_eq]
    decide +kernel
  apply extractSimPath_of_none
  intro key hkey
  apply get_mergeMmcliSources_none rfl
  have hreports := jsonReports_overview (m := m) (d := d) (e := e) (r := r) List.mem_cons_self
  rw [jsonRun, if_pos rfl, jsonDetails_object hreports.printed (if_pos rfl)]
  apply get_normalizeFlattened_none
  intro kv hkv hnorm
  obtain ⟨value, hvalue, hnk, _⟩ := value_of_mem_overview hkv
  rw [hnorm] at hnk
  exact hother key hkey (List.mem_map.mpr ⟨value, hvalue, hnk⟩)

/-- The nested object is such a report, for all values. -/
theorem reportsOverview_object {m d e r : Str} (rest : List RunResult)
    (hproper : ∀ v ∈ [m, d, e, r], Text.strip v ≠ [] ∧ v ≠ "--".toList ∧ v ≠ "unknown".toList) :
    ReportsOverview (loadsOverview m d e r) m d e r []
      (.completed 0 (overviewJson m d e r) []) rest := by
  refine ⟨hproper, ?_, ?_, ?_, ?_⟩
  · intro f hf
    cases hf
  · intro stdout stderr top hjs hloads
    cases hjs
    rw [loadsOverview, if_pos rfl] at hloads
    cases hloads
    intro field hfield
    rw [overviewFields, List.mem_singleton] at hfield
    rw [hfield]
  · intro kv hkv
    exact Or.inr ⟨_, _, rfl, jsonReports_overview hkv⟩
  · intro hpath
    exact absurd (extractSimPath_overview m d e r []) hpath

/-! ## What is read of it -/

/-- Producer and consumer do not agree on the keys, whatever the values are. -/
theorem identity_never_read {σ : Type} {loads : Str → Option Json} {cfg : MmcliSettings}
    {phoneEnv : Nat → Str} {modemIndex : Nat} {phoneOverride : Option Str} {s : σ}
    {m d e r stderr : Str} {fields : List Field} {js : RunResult} {rest : List RunResult}
    (h : ReportsOverview loads m d e r fields js rest) :
    ¬ IdentityRead loads cfg phoneEnv modemIndex phoneOverride m d e r s
      (.completed 0 (printFields fields) stderr :: js :: rest) := by
  rintro ⟨identity, s', rest', hrun, hmanufacturer, _⟩
  exact (identity_values_missing h hrun).1 hmanufacturer

/-- The overview as lines. -/
def acmeFields : List Field :=
  [⟨"modem.generic.manufacturer".toList, "ACME".toList, by decide, by decide, by decide⟩,
    ⟨"modem.generic.model".toList, "X1".toList, by decide, by decide, by decide⟩,
    ⟨"modem.generic.equipment-identifier".toList, "860123".toList, by decide, by decide,
      by decide⟩,
    ⟨"modem.generic.revision".toList, "1.0".toList, by decide, by decide, by decide⟩]

theorem identity_never_read_acme :
    ¬ IdentityRead (fun _ => none) ⟨"30".toList, 3, by decide⟩ (fun _ => []) 0 none "ACME".toList
      "X1".toList "860123".toList "1.0".toList ()
      (.completed 0 (printFields acmeFields) [] :: .completed 1 [] [] :: []) := by
  have hlines : ∀ kv ∈ overviewValues "ACME".toList "X1".toList "860123".toList "1.0".toList,
      (∃ f ∈ acmeFields, normalizeKey f.key = kv.1) ∧
        ∀ f ∈ acmeFields, normalizeKey f.key = kv.1 → f.value = kv.2 := by decide +kernel
  have hnoSim : extractSimPath (mergeMmcliSources [parseKeyvalue (printFields acmeFields),
      jsonRun (fun _ => none) (.completed 1 [] [])]) = [] := by decide +kernel
  apply identity_never_read
  refine ⟨by decide, by decide, ?_, ?_, ?_⟩
  · intro stdout stderr top hjs
    cases hjs
  · intro kv hkv
    obtain ⟨hprinted, hsame⟩ := hlines kv hkv
    exact Or.inl ⟨hprinted, hsame⟩
  · intro hpath
    exact absurd hnoSim hpath

/-- The overview as the object of the tests: nothing of it is in the identity. -/
theorem identity_object_unread :
    ReportsOverview (loadsOverview "ACME".toList "X1".toList "860123".toList "1.0".toList)
      "ACME".toList "X1".toList "860123".toList "1.0".toList []
      (.completed 0 (overviewJson "ACME".toList "X1".toList "860123".toList "1.0".toList) []) [] ∧
    ¬ IdentityRead (loadsOverview "ACME".toList "X1".toList "860123".toList "1.0".toList)
      ⟨"30".toList, 3, by decide⟩ (fun _ => []) 0 none
      "ACME".toList "X1".toList "860123".toList "1.0".toList ()
      [.completed 0 [] [],
        .completed 0 (overviewJson "ACME".toList "X1".toList "860123".toList "1.0".toList) []] := by
  have hreports := reportsOverview_object (m := "ACME".toList) (d := "X1".toList)
    (e := "860123".toList) (r := "1.0".toList) [] (by decide)
  refine ⟨hreports, ?_⟩
  rintro ⟨identity, s', rest', hrun, hmanufacturer, _⟩
  exact (identity_values_missing hreports hrun).1 hmanufacturer

end HiWaveTel
