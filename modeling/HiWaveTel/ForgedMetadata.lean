import HiWaveTel.SmsReport

/- What the sender of an SMS can do to its other fields. The lines of a text are lines of
   the key-value output, so that a text can have a line with the key of another field.
   That line counts if the field itself was not printed before the text, and the merge
   with the JSON output keeps its value if that is no shorter than the honest one. A
   reader with several keys takes a forged one of them, too, up to its first honest one.

   `metadata_eq_iff` says that this is all: two texts give the same metadata exactly when
   they forge the same. A text of one line forges nothing. -/
namespace HiWaveTel
open Foundation

/-! ## Reports and readers -/

/-- The fields of an SMS in the order in which they are printed around its text. -/
structure Report where
  before : List Field
  after : List Field
  not_text : ∀ f ∈ before ++ after, normalizeKey f.key ≠ textEntry
  distinct : ((before ++ after).map (fun f => normalizeKey f.key)).Nodup

/-- The values of fields under their normalised keys. -/
def fieldEntries (fields : List Field) : List (Str × Str) :=
  fields.map (fun f => (normalizeKey f.key, f.value))

def fieldValue (fields : List Field) (k : Str) : Str :=
  Text.strip ((Dict.get (fieldEntries fields) k).getD [])

def Report.keyvalue (r : Report) (body : Str) : Str := printReport r.before (some body) r.after

def Report.entries (r : Report) (body : Str) : List (Str × Str) :=
  fieldEntries r.before ++ (textEntry, body) :: fieldEntries r.after

/-- The JSON output has these entries and no others. -/
structure JsonCorrect (loads : Str → Option Json) (raw : Str) (entries : List (Str × Str)) :
    Prop where
  printed : Text.strip raw ≠ []
  object : ∃ fields, loads raw = some (.obj fields) ∧
    (∀ e ∈ entries, ∃ kv ∈ flattenDict fields, normalizeKey kv.1 = e.1) ∧
    ∀ kv ∈ flattenDict fields, ∃ v, Dict.get entries (normalizeKey kv.1) = some v ∧ kv.2 = .str v

/-- The readers of the fields around the text. -/
inductive Metadata where
  | fromNumber
  | state
  | smsc
  | timestamp
  deriving DecidableEq, Repr

def Metadata.keys : Metadata → List Str
  | .fromNumber =>
    ["smscontentnumber", "number", "sender", "smssrc", "smsnumber", "mobilenumber"].map
      String.toList
  | .state => ["smspropertiesstate", "state", "smsstate"].map String.toList
  | .smsc => ["smspropertiessmsc", "smsc", "smsservicecenter", "servicecenter"].map String.toList
  | .timestamp =>
    ["smspropertiestimestamp", "timestamp", "datetime", "stamp", "date"].map String.toList

def Metadata.extract : Metadata → Details → Str
  | .fromNumber => extractFromNumber
  | .state => extractState
  | .smsc => extractSmsc
  | .timestamp => extractTimestamp

theorem extract_eq (m : Metadata) (d : Details) : m.extract d = firstPresent d m.keys := by
  cases m <;> rfl

theorem keys_plain (m : Metadata) : ∀ k ∈ m.keys, k ≠ [] ∧ k ≠ textEntry := by
  cases m <;> decide

/-! ## Honest and forged values -/

/-- The value of a field under a key; nothing if it is blank. -/
def Report.honest (r : Report) (k : Str) : Str :=
  let v := fieldValue (r.before ++ r.after) k
  if isBlankMmcliValue v then [] else v

/-- What a reader gets of the fields alone. -/
def Report.reading (r : Report) : List Str → Str
  | [] => []
  | k :: ks => if r.honest k = [] then r.reading ks else r.honest k

/-- The value of the first line of the text with a key. -/
def lineValue (body k : Str) : Option Str := Dict.get ((textTail body).filterMap parseLine) k

/-- It stands in for the field under the key: nothing was printed under it before the text,
    and the value is not blank and not shorter than the honest one. -/
def Report.forgedValue (r : Report) (body k : Str) : Option Str :=
  if fieldValue r.before k ≠ [] then none
  else (lineValue body k).filter (fun v =>
    !isBlankMmcliValue v && decide ((r.honest k).length ≤ v.length))

/-- The first forged value among the keys that a reader tries. -/
def Report.firstForged (r : Report) (body : Str) : List Str → Option Str
  | [] => none
  | k :: ks =>
    match r.forgedValue body k with
    | some v => some v
    | none => if r.honest k = [] then r.firstForged body ks else none

/-- The value that the text gives a reader in place of the honest one. -/
def Report.forged (r : Report) (body : Str) (ks : List Str) : Option Str :=
  (r.firstForged body ks).filter (fun v => v != r.reading ks)

/-! ## What is merged under a key -/

/-- A value that is printed is found unless it is empty. -/
theorem get_parsedFields {fields : List Field} {k : Str} (hk : k ≠ [])
    (hdistinct : (fields.map (fun f => normalizeKey f.key)).Nodup) :
    Dict.get (parsedFields fields) k =
      if fieldValue fields k = [] then none else some (fieldValue fields k) := by
  induction fields with
  | nil => rfl
  | cons f fields ih =>
    rw [List.map_cons, List.nodup_cons] at hdistinct
    rw [parsedFields_cons, Dict.get_append, parseLine_fieldLine f.key_plain]
    by_cases hkey : normalizeKey f.key = k
    · have hnone : Dict.get (parsedFields fields) k = none := by
        apply Dict.get_eq_none.mpr
        intro kv hkv he
        obtain ⟨g, hg, hgk⟩ := exists_field_of_mem hkv
        exact hdistinct.1 (List.mem_map.mpr ⟨g, hg, (hgk.trans he).trans hkey.symm⟩)
      have hvalue : fieldValue (f :: fields) k = Text.strip f.value := by
        rw [fieldValue, fieldEntries, List.map_cons, Dict.get_cons, if_pos (beq_iff_eq.mpr hkey)]
        rfl
      rw [hnone, Option.or_none, hvalue, hkey]
      by_cases hempty : Text.strip f.value = []
      · rw [if_neg (fun h => h.2 hempty), if_pos hempty]
        rfl
      · rw [if_pos ⟨hk, hempty⟩, if_neg hempty]
        simp [Dict.get]
    · have hvalue : fieldValue (f :: fields) k = fieldValue fields k := by
        rw [fieldValue, fieldEntries, List.map_cons, Dict.get_cons,
          if_neg (by simpa using hkey)]
        rfl
      rw [hvalue, ← ih hdistinct.2]
      split
      · simp [Dict.get, hkey]
      · rfl

theorem strip_fieldValue (fields : List Field) (k : Str) :
    Text.strip (fieldValue fields k) = fieldValue fields k := Text.strip_strip _

theorem fieldEntries_append (fields fields' : List Field) :
    fieldEntries (fields ++ fields') = fieldEntries fields ++ fieldEntries fields' :=
  List.map_append

/-- The default tells two options apart that never hold it. -/
theorem getD_inj_of_ne {α : Type} {x : α} {o p : Option α} (ho : o ≠ some x) (hp : p ≠ some x) :
    o.getD x = p.getD x ↔ o = p := by
  constructor
  · intro h
    cases o with
    | none =>
      cases p with
      | none => rfl
      | some w => exact absurd (congrArg some h).symm hp
    | some v =>
      cases p with
      | none => exact absurd (congrArg some h) ho
      | some w => exact congrArg some h
  · exact fun h => congrArg (fun o => o.getD x) h

section Report
variable (r : Report) (body : Str) {k : Str}

/-- A field is on one side of the text. -/
theorem fieldValue_report (k : Str) :
    fieldValue (r.before ++ r.after) k =
      if fieldValue r.before k = [] then fieldValue r.after k else fieldValue r.before k := by
  have hboth : fieldValue (r.before ++ r.after) k =
      Text.strip (((Dict.get (fieldEntries r.before) k).or
        (Dict.get (fieldEntries r.after) k)).getD []) := by
    rw [fieldValue, fieldEntries_append, Dict.get_append]
  rw [hboth]
  cases hbefore : Dict.get (fieldEntries r.before) k with
  | none =>
    have hempty : fieldValue r.before k = [] := by
      rw [fieldValue, hbefore]
      rfl
    rw [if_pos hempty]
    rfl
  | some v =>
    have hvalue : fieldValue r.before k = Text.strip v := by
      rw [fieldValue, hbefore]
      rfl
    have hafter : fieldValue r.after k = [] := by
      have hnone : Dict.get (fieldEntries r.after) k = none := by
        apply Dict.get_eq_none.mpr
        intro kv hkv hk
        obtain ⟨f, hf, hfk⟩ := List.mem_map.mp (Dict.mem_of_get hbefore)
        obtain ⟨g, hg, rfl⟩ := List.mem_map.mp hkv
        have hdistinct := r.distinct
        rw [List.map_append] at hdistinct
        refine (List.disjoint_of_nodup_append hdistinct) (List.mem_map.mpr ⟨f, hf, rfl⟩)
          (List.mem_map.mpr ⟨g, hg, ?_⟩)
        exact hk.trans (Prod.mk.inj hfk).1.symm
      rw [fieldValue, hnone]
      rfl
    rw [hvalue, hafter]
    by_cases hempty : Text.strip v = []
    · rw [if_pos hempty]
      exact hempty
    · rw [if_neg hempty]
      rfl

/-- The first line with a key: of a field before the text, of the text, or of a field after
    it. -/
theorem get_keyvalue (hk : k ≠ []) (htext : k ≠ textEntry) :
    (parseKeyvalue (r.keyvalue body)).get k =
      if fieldValue r.before k = [] then
        (lineValue body k).or
          (if fieldValue r.after k = [] then none else some (fieldValue r.after k))
      else some (fieldValue r.before k) := by
  have hdistinct := r.distinct
  rw [List.map_append] at hdistinct
  have hfirst : Dict.get (parseLine (fieldLine textKey (textHead body))).toList k = none := by
    rw [parseLine_fieldLine textKey_plain, normalizeKey_textKey]
    split
    · simp [Dict.get, Ne.symm htext]
    · rfl
  have hlines : Dict.get (parsedText (some body)) k = lineValue body k := by
    rw [parsedText, Dict.get_append, hfirst, Option.none_or, lineValue]
  rw [get_parseKeyvalue, Report.keyvalue, parsedLines_report, Dict.get_append, Dict.get_append,
    hlines, get_parsedFields hk hdistinct.of_append_left, get_parsedFields hk
    hdistinct.of_append_right]
  by_cases hempty : fieldValue r.before k = []
  · rw [if_pos hempty, if_pos hempty, Option.none_or]
  · rw [if_neg hempty, if_neg hempty, Option.some_or]

theorem get_jsonDetails_correct {loads : Str → Option Json} {raw : Str}
    {entries : List (Str × Str)} (h : JsonCorrect loads raw entries) (hk : k ≠ []) :
    (jsonDetails loads raw).get k = Dict.get entries k := by
  obtain ⟨fields, hloads, hin, hsame⟩ := h.object
  rw [jsonDetails_object h.printed hloads]
  cases hget : Dict.get entries k with
  | none =>
    apply get_normalizeFlattened_none
    intro kv hkv hkey
    obtain ⟨v, hv, _⟩ := hsame kv hkv
    rw [hkey, hget] at hv
    cases hv
  | some v =>
    apply get_normalizeFlattened_some hk (hin _ (Dict.mem_of_get hget))
    intro kv hkv hkey
    obtain ⟨w, hw, hstr⟩ := hsame kv hkv
    rw [hkey, hget] at hw
    cases hw
    exact hstr

/-- The JSON output has the honest values. -/
theorem partValue_jsonDetails {loads : Str → Option Json} {raw : Str}
    (h : JsonCorrect loads raw (r.entries body)) (hk : k ≠ []) (htext : k ≠ textEntry) :
    partValue (jsonDetails loads raw) k = fieldValue (r.before ++ r.after) k := by
  have hentry : Dict.get (r.entries body) k = Dict.get (fieldEntries (r.before ++ r.after)) k := by
    rw [Report.entries, fieldEntries_append, Dict.get_append, Dict.get_append, Dict.get_cons,
      if_neg (by simpa using Ne.symm htext)]
  rw [partValue, get_jsonDetails_correct h hk, hentry]
  rfl

theorem strip_lineValue {v : Str} (h : lineValue body k = some v) : Text.strip v = v := by
  obtain ⟨line, _, hline⟩ := List.mem_filterMap.mp (Dict.mem_of_get h)
  exact (infix_of_parseLine hline).2

theorem honest_eq (k : Str) :
    r.honest k =
      if isBlankMmcliValue (fieldValue (r.before ++ r.after) k) = true then []
      else fieldValue (r.before ++ r.after) k := rfl

/-- What is merged under a key of a field. -/
theorem bestValue_report {loads : Str → Option Json} {raw : Str}
    (h : JsonCorrect loads raw (r.entries body)) (hk : k ≠ []) (htext : k ≠ textEntry) :
    bestValue [parseKeyvalue (r.keyvalue body), jsonDetails loads raw] k =
      (r.forgedValue body k).getD (r.honest k) := by
  have hjson := partValue_jsonDetails r body h hk htext
  have hhonest := honest_eq r k
  have hkv := get_keyvalue r body hk htext
  have hside := fieldValue_report r k
  by_cases hempty : fieldValue r.before k = []
  · rw [if_pos hempty] at hkv hside
    have hforged : r.forgedValue body k = (lineValue body k).filter (fun v =>
        !isBlankMmcliValue v && decide ((r.honest k).length ≤ v.length)) :=
      if_neg (fun hne => hne hempty)
    rw [hforged]
    cases hline : lineValue body k with
    | none =>
      rw [hline, Option.none_or, ← hside] at hkv
      have hpart : partValue (parseKeyvalue (r.keyvalue body)) k =
          fieldValue (r.before ++ r.after) k := by
        rw [partValue, hkv]
        split
        · next hnil =>
          rw [hnil]
          rfl
        · rw [Option.getD_some, strip_fieldValue]
      rw [Option.filter_none, Option.getD_none, hhonest, bestValue_same hpart hjson]
    | some v =>
      rw [hline, Option.some_or] at hkv
      have hpart : partValue (parseKeyvalue (r.keyvalue body)) k = v := by
        rw [partValue, hkv, Option.getD_some, strip_lineValue body hline]
      rw [bestValue_pair, hpart, hjson, Option.filter_some, hhonest]
      cases isBlankMmcliValue v with
      | true => simp
      | false =>
        cases isBlankMmcliValue (fieldValue (r.before ++ r.after) k) with
        | true => simp
        | false =>
          by_cases hlong : v.length < (fieldValue (r.before ++ r.after) k).length
          · simp [hlong, Nat.not_le.mpr hlong]
          · simp [hlong, Nat.le_of_not_lt hlong]
  · rw [if_neg hempty] at hkv hside
    have hforged : r.forgedValue body k = none := if_pos hempty
    have hpart : partValue (parseKeyvalue (r.keyvalue body)) k =
        fieldValue (r.before ++ r.after) k := by
      rw [partValue, hkv, hside, Option.getD_some, strip_fieldValue]
    rw [hforged, Option.getD_none, hhonest, bestValue_same hpart hjson]

theorem forgedValue_ne_nil {v : Str} (h : r.forgedValue body k = some v) : v ≠ [] := by
  unfold Report.forgedValue at h
  split at h
  · cases h
  · rintro rfl
    have hnot := (Option.filter_eq_some_iff.mp h).2
    cases hnot

/-- A reader takes the first forged value, or what it gets of the fields alone. -/
theorem firstPresent_report {loads : Str → Option Json} {raw : Str}
    (h : JsonCorrect loads raw (r.entries body)) {ks : List Str}
    (hks : ∀ k ∈ ks, k ≠ [] ∧ k ≠ textEntry) :
    firstPresent (mergeMmcliSources [parseKeyvalue (r.keyvalue body), jsonDetails loads raw]) ks =
      (r.firstForged body ks).getD (r.reading ks) := by
  induction ks with
  | nil => rfl
  | cons k ks ih =>
    obtain ⟨hk, htext⟩ := hks k List.mem_cons_self
    rw [firstPresent_merged, bestValue_report r body h hk htext, Report.firstForged,
      Report.reading]
    cases hforged : r.forgedValue body k with
    | some v => rw [Option.getD_some, Option.getD_some, if_neg (forgedValue_ne_nil r body hforged)]
    | none =>
      rw [Option.getD_none, ih (fun k hk => hks k (List.mem_cons_of_mem _ hk))]
      by_cases hempty : r.honest k = []
      · simp only [if_pos hempty]
      · simp only [if_neg hempty, Option.getD_none]

theorem forged_getD (ks : List Str) :
    (r.forged body ks).getD (r.reading ks) = (r.firstForged body ks).getD (r.reading ks) := by
  unfold Report.forged
  cases r.firstForged body ks with
  | none => rfl
  | some v =>
    rw [Option.filter_some]
    split
    · rfl
    · next hsame =>
      have hv : v = r.reading ks := by simpa using hsame
      rw [hv]
      rfl

theorem forged_ne (ks : List Str) : r.forged body ks ≠ some (r.reading ks) := by
  intro h
  have hne := (Option.filter_eq_some_iff.mp h).2
  simp at hne

/-- Two texts change a reading in the same way exactly when they forge the same. -/
theorem forged_getD_inj (b₁ b₂ : Str) (ks : List Str) :
    (r.forged b₁ ks).getD (r.reading ks) = (r.forged b₂ ks).getD (r.reading ks) ↔
      r.forged b₁ ks = r.forged b₂ ks :=
  getD_inj_of_ne (forged_ne r b₁ ks) (forged_ne r b₂ ks)

/-- A text of one line forges nothing. -/
theorem forged_singleLine (hbody : Text.SingleLine body) (ks : List Str) :
    r.forged body ks = none := by
  have hline : ∀ k, lineValue body k = none := by
    intro k
    rw [lineValue, textTail, Text.splitLines_singleLine hbody]
    rfl
  have hforged : ∀ k, r.forgedValue body k = none := by
    intro k
    rw [Report.forgedValue, hline]
    split <;> rfl
  have hfirst : r.firstForged body ks = none := by
    induction ks with
    | nil => rfl
    | cons k ks ih =>
      rw [Report.firstForged, hforged]
      simp only
      rw [ih, ite_self]
  rw [Report.forged, hfirst]
  rfl

/-- Any value that is long enough can be forged, by a text whose second line is that field. -/
theorem forgedValue_line (f : Field) (hkey : normalizeKey f.key ≠ [])
    (hbefore : fieldValue r.before (normalizeKey f.key) = [])
    (hstrip : Text.strip f.value = f.value) (hblank : isBlankMmcliValue f.value = false)
    (hlong : (r.honest (normalizeKey f.key)).length ≤ f.value.length) :
    r.forgedValue ('\n' :: fieldLine f.key f.value) (normalizeKey f.key) = some f.value := by
  have htail : textTail ('\n' :: fieldLine f.key f.value) = [fieldLine f.key f.value] := by
    rw [textTail, List.cons_append, Text.splitLines_newline,
      Text.splitLines_singleLine (singleLine_fieldLine f), List.tail_cons]
  have hne : Text.strip f.value ≠ [] := by
    rw [hstrip]
    exact ne_nil_of_not_blank hblank
  have hline : lineValue ('\n' :: fieldLine f.key f.value) (normalizeKey f.key) =
      some f.value := by
    rw [lineValue, htail, List.filterMap_cons, parseLine_fieldLine f.key_plain,
      if_pos ⟨hkey, hne⟩, hstrip]
    simp [Dict.get]
  rw [Report.forgedValue, if_neg (fun h => h hbefore), hline, Option.filter_some, hblank]
  simp [hlong]

/-- A field that was printed before the text is not forged. -/
theorem forged_before (hblank : isBlankMmcliValue (fieldValue r.before k) = false)
    (ks : List Str) : r.forged body (k :: ks) = none := by
  have hne := ne_nil_of_not_blank hblank
  have hhonest : r.honest k ≠ [] := by
    rw [honest_eq, fieldValue_report, if_neg hne, hblank]
    exact hne
  have hforged : r.forgedValue body k = none := if_pos hne
  rw [Report.forged, Report.firstForged, hforged]
  simp only [if_neg hhonest]
  rfl

end Report

/-! ## Two texts -/

section Shown
variable {σ : Type} {loads : Str → Option Json} {cfg : MmcliSettings} {s : σ}
  {r : Report} {rs rest : List RunResult} {body : Str}

/-- The runs of `mmcli` that show an SMS with that text. Some field is not blank; the plain
    output would be asked for otherwise. -/
structure Shown (loads : Str → Option Json) (cfg : MmcliSettings) (r : Report) (body : Str)
    (s : σ) (rs rest : List RunResult) : Prop where
  runs : ∃ cpKv rs₁ cpJs,
    retryingRun cfg "show-kv".toList s rs = some (.ok cpKv, s, rs₁) ∧
    retryingRun cfg "show-json".toList s rs₁ = some (.ok cpJs, s, rest) ∧
    cpKv.stdout = r.keyvalue body ∧ JsonCorrect loads cpJs.stdout (r.entries body)
  field : ∃ k v, k ≠ [] ∧ Dict.get (r.entries body) k = some v ∧ isBlankMmcliValue v = false

theorem showSms_report (h : Shown loads cfg r body s rs rest) :
    ∃ d, showSms loads cfg s rs = some (.ok d, s, rest) ∧
      ∀ m : Metadata, m.extract d = (r.forged body m.keys).getD (r.reading m.keys) := by
  obtain ⟨cpKv, rs₁, cpJs, hkv, hjs, hprinted, hjson⟩ := h.runs
  obtain ⟨k, v, hk, hentry, hblank⟩ := h.field
  have hmerged : mergeMmcliSources [parseKeyvalue cpKv.stdout, jsonDetails loads cpJs.stdout] ≠
      [] := by
    refine mergeMmcliSources_ne_nil (List.mem_cons_of_mem _ List.mem_cons_self) ⟨k, v, ?_, hblank⟩
    rw [get_jsonDetails_correct hjson hk, hentry]
  refine ⟨_, showSms_of_runs hkv hjs hmerged, ?_⟩
  intro m
  rw [extract_eq, hprinted, firstPresent_report r body hjson (keys_plain m), forged_getD]

def receivedReport : Report :=
  ⟨[receivedNumber], [receivedState], by decide +kernel, by decide +kernel⟩

/-- The two runs that show it. -/
def receivedRuns (body : Str) : List RunResult :=
  [.completed 0 (receivedReport.keyvalue body) [],
    .completed 0 (dumps (.obj (receivedFields body))) []]

theorem shown_received {bodies : List Str}
    (hfind : bodies.find? (fun b =>
      dumps (.obj (receivedFields body)) == dumps (.obj (receivedFields b))) = some body)
    (hin : ∀ e ∈ receivedReport.entries body, ∃ kv ∈ flattenDict (receivedFields body),
      normalizeKey kv.1 = e.1)
    (hsame : ∀ kv ∈ flattenDict (receivedFields body), kv.2.str?.isSome = true ∧
      Dict.get (receivedReport.entries body) (normalizeKey kv.1) = kv.2.str?) :
    Shown (loadsReceived bodies) ⟨"30".toList, 3, by decide⟩ receivedReport body ()
      (receivedRuns body) [] := by
  have hprinted : Text.strip (dumps (.obj (receivedFields body))) ≠ [] := by
    obtain ⟨t, ht⟩ : ∃ t, dumps (.obj (receivedFields body)) = [] ++ '\x7b' :: t := ⟨_, rfl⟩
    rw [ht, Text.strip_append_cons [] (by decide) t]
    simp
  have hloads : loadsReceived bodies (dumps (.obj (receivedFields body))) =
      some (.obj (receivedFields body)) := by
    rw [loadsReceived, hfind]
    rfl
  have hobject : ∀ kv ∈ flattenDict (receivedFields body),
      ∃ v, Dict.get (receivedReport.entries body) (normalizeKey kv.1) = some v ∧
        kv.2 = .str v := by
    intro kv hkv
    obtain ⟨hstr, hget⟩ := hsame kv hkv
    obtain ⟨v, hv⟩ := Option.isSome_iff_exists.mp hstr
    exact ⟨v, hget.trans hv, eq_str_of_str? hv⟩
  have hnumber : Dict.get (receivedReport.entries body) "smscontentnumber".toList =
      some receivedNumber.value := by
    have hbefore : Dict.get (fieldEntries receivedReport.before) "smscontentnumber".toList =
        some receivedNumber.value := by decide +kernel
    rw [Report.entries, Dict.get_append, hbefore, Option.some_or]
  exact ⟨⟨_, _, _, rfl, rfl, rfl, hprinted, receivedFields body, hloads, hin, hobject⟩,
    "smscontentnumber".toList, receivedNumber.value, by decide, hnumber, by decide⟩

def plainBody : Str := "hi".toList

/-- Its second line looks like that of the number, which is printed before the text. -/
def numberBody : Str := "hi\nsms.content.number : +351900000000".toList

/-- Its second line looks like that of the state, which is printed after it. -/
def stateBody : Str := "hi\nsms.properties.state : delivered".toList

/-- Two texts give the same metadata exactly when they forge the same. -/
theorem metadata_eq_iff {b₁ b₂ : Str} {rs₁ rs₂ rest₁ rest₂ : List RunResult}
    (h₁ : Shown loads cfg r b₁ s rs₁ rest₁) (h₂ : Shown loads cfg r b₂ s rs₂ rest₂) :
    ∃ d₁ d₂, showSms loads cfg s rs₁ = some (.ok d₁, s, rest₁) ∧
      showSms loads cfg s rs₂ = some (.ok d₂, s, rest₂) ∧
      ((∀ m : Metadata, m.extract d₁ = m.extract d₂) ↔
        ∀ m : Metadata, r.forged b₁ m.keys = r.forged b₂ m.keys) := by
  obtain ⟨d₁, hd₁, hread₁⟩ := showSms_report h₁
  obtain ⟨d₂, hd₂, hread₂⟩ := showSms_report h₂
  refine ⟨d₁, d₂, hd₁, hd₂, forall_congr' ?_⟩
  intro m
  rw [hread₁, hread₂, forged_getD_inj]

/-- `json.loads` for the three of them. -/
def loadsBodies : Str → Option Json := loadsReceived [plainBody, numberBody, stateBody]

theorem shown_plainBody : Shown loadsBodies ⟨"30".toList, 3, by decide⟩ receivedReport plainBody ()
    (receivedRuns plainBody) [] :=
  shown_received (by decide +kernel) (by decide +kernel) (by decide +kernel)

theorem metadata_eq_number :
    ∃ d₁ d₂,
      showSms loadsBodies ⟨"30".toList, 3, by decide⟩ () (receivedRuns plainBody) =
        some (.ok d₁, (), []) ∧
      showSms loadsBodies ⟨"30".toList, 3, by decide⟩ () (receivedRuns numberBody) =
        some (.ok d₂, (), []) ∧
      ∀ m : Metadata, m.extract d₁ = m.extract d₂ := by
  have hnumber : Shown loadsBodies ⟨"30".toList, 3, by decide⟩ receivedReport numberBody ()
      (receivedRuns numberBody) [] :=
    shown_received (by decide +kernel) (by decide +kernel) (by decide +kernel)
  obtain ⟨d₁, d₂, hd₁, hd₂, hiff⟩ := metadata_eq_iff shown_plainBody hnumber
  refine ⟨d₁, d₂, hd₁, hd₂, hiff.mpr ?_⟩
  intro m
  cases m <;> decide +kernel

/-- The state of an SMS is what its text says. -/
theorem metadata_forged :
    ¬ ∀ (loads : Str → Option Json) (cfg : MmcliSettings) (r : Report) (b₁ b₂ : Str)
        (rs₁ rs₂ rest₁ rest₂ : List RunResult),
      Shown loads cfg r b₁ () rs₁ rest₁ → Shown loads cfg r b₂ () rs₂ rest₂ →
      ∃ d₁ d₂, showSms loads cfg () rs₁ = some (.ok d₁, (), rest₁) ∧
        showSms loads cfg () rs₂ = some (.ok d₂, (), rest₂) ∧
        ∀ m : Metadata, m.extract d₁ = m.extract d₂ := by
  intro h
  have hstate : Shown loadsBodies ⟨"30".toList, 3, by decide⟩ receivedReport stateBody ()
      (receivedRuns stateBody) [] :=
    shown_received (by decide +kernel) (by decide +kernel) (by decide +kernel)
  obtain ⟨d₁, d₂, hd₁, hd₂, hsame⟩ := h _ _ _ _ _ _ _ _ _ shown_plainBody hstate
  obtain ⟨e₁, he₁, hread₁⟩ := showSms_report shown_plainBody
  obtain ⟨e₂, he₂, hread₂⟩ := showSms_report hstate
  rw [hd₁] at he₁
  rw [hd₂] at he₂
  cases he₁
  cases he₂
  have hstates := hsame .state
  rw [hread₁, hread₂] at hstates
  exact absurd hstates (by decide +kernel)

end Shown

end HiWaveTel
