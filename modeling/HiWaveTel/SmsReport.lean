import HiWaveTel.ShowSms

/- What `mmcli` prints of one SMS. `--output-keyvalue` has a line for each field, except
   that the text of the SMS is printed as it is, so that its line breaks start lines of
   their own. `parsedLines_report` says what the line-based parser finds in such an
   output: the fields before the text, the lines of the text, and the fields after it.

   `showSms_body`: where the JSON output has the text, that is what the readers get. No
   value that the parser cuts out of the text is longer than the text. -/
namespace HiWaveTel
open Foundation

/-! ## The two outputs -/

/-- A field that is printed on one line. -/
structure Field where
  key : Str
  value : Str
  key_plain : ':' ∉ key
  key_single : Text.SingleLine key
  value_single : Text.SingleLine value

def fieldLine (key value : Str) : Str := key ++ " : ".toList ++ value

def printFields (fields : List Field) : Str :=
  fields.flatMap (fun f => fieldLine f.key f.value ++ ['\n'])

def textKey : Str := "sms.content.text".toList

/-- The key of the text in a snapshot. -/
def textEntry : Str := "smscontenttext".toList

/-- The text as it is; no line where it is left out. -/
def printText : Option Str → Str
  | none => []
  | some body => fieldLine textKey body ++ ['\n']

/-- The object of the output has `v` under the key, however it is spelled, and nothing else. -/
structure JsonReports (loads : Str → Option Json) (raw nk v : Str) : Prop where
  printed : Text.strip raw ≠ []
  object : ∃ fields, loads raw = some (.obj fields) ∧
    (∃ kv ∈ flattenDict fields, normalizeKey kv.1 = nk) ∧
    ∀ kv ∈ flattenDict fields, normalizeKey kv.1 = nk → kv.2 = .str v

theorem get_jsonDetails {loads : Str → Option Json} {raw nk v : Str} (hnk : nk ≠ [])
    (h : JsonReports loads raw nk v) : (jsonDetails loads raw).get nk = some v := by
  obtain ⟨fields, hloads, hin, hsame⟩ := h.object
  rw [jsonDetails_object h.printed hloads]
  exact get_normalizeFlattened_some hnk hin hsame

/-! ## What the parser finds -/

theorem parseLine_fieldLine {key : Str} (h : ':' ∉ key) (value : Str) :
    parseLine (fieldLine key value) =
      if normalizeKey key ≠ [] ∧ Text.strip value ≠ [] then
        some (normalizeKey key, Text.strip value)
      else none := by
  have hline : fieldLine key value = (key ++ [' ']) ++ ':' :: ' ' :: value := by
    simp [fieldLine]
  have hplain : ':' ∉ key ++ [' '] := by simp [h]
  rw [hline, parseLine_field hplain, normalizeKey_append_space rfl, Text.strip_cons_space rfl]

theorem singleLine_fieldLine (f : Field) : Text.SingleLine (fieldLine f.key f.value) := by
  intro c hc
  rcases List.mem_append.mp hc with hc | hc
  · rcases List.mem_append.mp hc with hc | hc
    · exact f.key_single c hc
    · have hsep : Text.SingleLine " : ".toList := by decide
      exact hsep c hc
  · exact f.value_single c hc

/-- The keys and values that the parser finds in the lines of fields. -/
def parsedFields (fields : List Field) : List (Str × Str) :=
  fields.filterMap (fun f => parseLine (fieldLine f.key f.value))

theorem parsedFields_cons (f : Field) (fields : List Field) :
    parsedFields (f :: fields) =
      (parseLine (fieldLine f.key f.value)).toList ++ parsedFields fields := by
  rw [parsedFields, List.filterMap_cons]
  cases parseLine (fieldLine f.key f.value) <;> rfl

theorem parsedLines_printFields (fields : List Field) (s : Str) :
    parsedLines (printFields fields ++ s) = parsedFields fields ++ parsedLines s := by
  induction fields with
  | nil => rfl
  | cons f fields ih =>
    have hcons : printFields (f :: fields) ++ s =
        fieldLine f.key f.value ++ '\n' :: (printFields fields ++ s) := by
      simp [printFields]
    rw [hcons, parsedLines_line (singleLine_fieldLine f), ih, parsedFields_cons,
      List.append_assoc]

theorem parsedLines_fields (fields : List Field) :
    parsedLines (printFields fields) = parsedFields fields := by
  have hall := parsedLines_printFields fields []
  rwa [List.append_nil, show parsedLines [] = [] from rfl, List.append_nil] at hall

/-- The first line of a text. -/
def textHead (body : Str) : Str := (Text.splitLines (body ++ ['\n'])).headD []

/-- The lines of a text that begin a line of the output. -/
def textTail (body : Str) : List Str := (Text.splitLines (body ++ ['\n'])).tail

theorem splitLines_text (body : Str) :
    Text.splitLines (body ++ ['\n']) = textHead body :: textTail body := by
  obtain ⟨l, ls, h⟩ := Text.exists_splitLines_eq (s := body ++ ['\n']) (by simp)
  rw [textHead, textTail, h]
  rfl

/-- What the parser finds in the lines of a text. -/
def parsedText : Option Str → List (Str × Str)
  | none => []
  | some body =>
    (parseLine (fieldLine textKey (textHead body))).toList ++ (textTail body).filterMap parseLine

theorem parsedLines_printText (text : Option Str) (s : Str) :
    parsedLines (printText text ++ s) = parsedText text ++ parsedLines s := by
  cases text with
  | none => rfl
  | some body =>
    have hsingle : Text.SingleLine (textKey ++ " : ".toList) := by decide
    have hlines : Text.splitLines (printText (some body) ++ s) =
        fieldLine textKey (textHead body) :: textTail body ++ Text.splitLines s := by
      have hbreak : printText (some body) ++ s = fieldLine textKey body ++ '\n' :: s := by
        simp [printText]
      have hfirst : fieldLine textKey body ++ ['\n'] =
          (textKey ++ " : ".toList) ++ (body ++ ['\n']) := by
        simp [fieldLine]
      rw [hbreak, Text.splitLines_append_newline, hfirst,
        Text.splitLines_append hsingle (splitLines_text body)]
      rfl
    rw [parsedLines, hlines, List.filterMap_append, List.filterMap_cons, parsedText]
    cases parseLine (fieldLine textKey (textHead body)) <;> rfl

/-- The key-value output of an SMS; the text is printed as it is or left out. -/
def printReport (before : List Field) (text : Option Str) (after : List Field) : Str :=
  printFields before ++ (printText text ++ printFields after)

theorem parsedLines_report (before : List Field) (text : Option Str) (after : List Field) :
    parsedLines (printReport before text after) =
      parsedFields before ++ (parsedText text ++ parsedFields after) := by
  rw [printReport, parsedLines_printFields, parsedLines_printText, parsedLines_fields]

/-- A value in the text is a stripped part of it. -/
theorem infix_of_parseLine_text {body line k v : Str} (hline : line <:+: body ++ ['\n'])
    (h : parseLine line = some (k, v)) : v <:+: Text.strip body := by
  obtain ⟨hpart, hstrip⟩ := infix_of_parseLine h
  have hwhole := Text.infix_strip (hpart.trans hline) hstrip
  rwa [Text.strip_append_space rfl] at hwhole

theorem textKey_plain : ':' ∉ textKey := by decide

theorem normalizeKey_textKey : normalizeKey textKey = textEntry := by decide +kernel

/-- What the parser finds in the lines of the text is part of the text. -/
theorem infix_of_mem_parsedText {body k v : Str} (h : (k, v) ∈ parsedText (some body)) :
    v <:+: Text.strip body := by
  have hlines := splitLines_text body
  rcases List.mem_append.mp h with h | h
  · rw [Option.mem_toList, parseLine_fieldLine textKey_plain] at h
    have hhead : textHead body <:+: body ++ ['\n'] := (Text.prefix_of_splitLines hlines).isInfix
    split at h
    · cases h
      have hwhole := Text.infix_strip ((Text.strip_infix _).trans hhead) (Text.strip_strip _)
      rwa [Text.strip_append_space rfl] at hwhole
    · cases h
  · obtain ⟨line, hmem, hline⟩ := List.mem_filterMap.mp h
    have hin : line ∈ Text.splitLines (body ++ ['\n']) := by
      rw [hlines]
      exact List.mem_cons_of_mem _ hmem
    exact infix_of_parseLine_text (Text.infix_of_mem_splitLines hin) hline

/-- A key that is found is the key of a field. -/
theorem exists_field_of_mem {fields : List Field} {kv : Str × Str} (h : kv ∈ parsedFields fields) :
    ∃ f ∈ fields, normalizeKey f.key = kv.1 := by
  obtain ⟨f, hmem, hf⟩ := List.mem_filterMap.mp h
  rw [parseLine_fieldLine f.key_plain] at hf
  split at hf
  · cases hf
    exact ⟨f, hmem, rfl⟩
  · cases hf

/-! ## The text of an SMS -/

/-- What the parser finds under the key of the text is part of the text. -/
theorem infix_of_get_report {before after : List Field} {body v : Str} {text : Option Str}
    (htext : text = none ∨ text = some body)
    (hother : ∀ f ∈ before ++ after, normalizeKey f.key ≠ textEntry)
    (h : (parseKeyvalue (printReport before text after)).get textEntry = some v) :
    v <:+: Text.strip body := by
  rw [get_parseKeyvalue, parsedLines_report] at h
  rcases List.mem_append.mp (Dict.mem_of_get h) with hmem | hmem
  · obtain ⟨f, hf, hkey⟩ := exists_field_of_mem hmem
    exact absurd hkey (hother f (List.mem_append_left _ hf))
  · rcases List.mem_append.mp hmem with hmem | hmem
    · rcases htext with rfl | rfl
      · cases hmem
      · exact infix_of_mem_parsedText hmem
    · obtain ⟨f, hf, hkey⟩ := exists_field_of_mem hmem
      exact absurd hkey (hother f (List.mem_append_right _ hf))

/-- A part of the text is not preferred to the text. -/
theorem bestValue_text {kv js : Details} {k body : Str} (hjs : js.get k = some body)
    (hblank : isBlankMmcliValue body = false)
    (hkv : ∀ v, kv.get k = some v → v <:+: Text.strip body ∧ Text.strip v = v) :
    bestValue [kv, js] k = Text.strip body := by
  have hq : partValue js k = Text.strip body := by
    rw [partValue, hjs]
    rfl
  have hp : partValue kv k <:+: Text.strip body := by
    rw [partValue]
    cases hget : kv.get k with
    | none => exact List.nil_infix
    | some v =>
      obtain ⟨hsub, hstrip⟩ := hkv v hget
      rw [Option.getD_some, hstrip]
      exact hsub
  rw [← isBlankMmcliValue_strip, ← hq] at hblank
  rw [bestValue_pair, hblank, hq]
  split
  · rfl
  · split
    · rfl
    · next hlong =>
      have hge : (Text.strip body).length ≤ (partValue kv k).length := by
        by_contra hlt
        exact hlong ⟨rfl, Nat.lt_of_not_le hlt⟩
      exact hp.sublist.eq_of_length (Nat.le_antisymm hp.length_le hge)

/-- What the merge makes of an output whose JSON has the text. -/
theorem bestValue_body {loads : Str → Option Json} {raw body : Str} {text : Option Str}
    {before after : List Field} (htext : text = none ∨ text = some body)
    (hother : ∀ f ∈ before ++ after, normalizeKey f.key ≠ textEntry)
    (hreported : JsonReports loads raw textEntry body) (hbody : isBlankMmcliValue body = false) :
    bestValue [parseKeyvalue (printReport before text after), jsonDetails loads raw] textEntry =
      Text.strip body := by
  apply bestValue_text (get_jsonDetails (by decide) hreported) hbody
  intro v hv
  exact ⟨infix_of_get_report htext hother hv, strip_of_get_parseKeyvalue hv⟩

section Text
variable {σ : Type} {loads : Str → Option Json} {cfg : MmcliSettings} {s : σ}
  {rs rs₁ rest : List RunResult} {cpKv cpJs : CompletedProcess}

/-- The readers get the text that the JSON output has. -/
theorem showSms_body {before after : List Field} {body : Str} {text : Option Str}
    (hkv : retryingRun cfg "show-kv".toList s rs = some (.ok cpKv, s, rs₁))
    (hjs : retryingRun cfg "show-json".toList s rs₁ = some (.ok cpJs, s, rest))
    (hprinted : cpKv.stdout = printReport before text after)
    (htext : text = none ∨ text = some body)
    (hother : ∀ f ∈ before ++ after, normalizeKey f.key ≠ textEntry)
    (hreported : JsonReports loads cpJs.stdout textEntry body)
    (hbody : isBlankMmcliValue body = false) :
    ∃ d, showSms loads cfg s rs = some (.ok d, s, rest) ∧ extractText d = Text.strip body := by
  have hbest := bestValue_body htext hother hreported hbody
  rw [← hprinted] at hbest
  have hne : Text.strip body ≠ [] :=
    ne_nil_of_not_blank ((isBlankMmcliValue_strip body).trans hbody)
  have hmerged : mergeMmcliSources [parseKeyvalue cpKv.stdout, jsonDetails loads cpJs.stdout] ≠
      [] :=
    mergeMmcliSources_ne_nil (List.mem_cons_of_mem _ List.mem_cons_self)
      ⟨textEntry, body, get_jsonDetails (by decide) hreported, hbody⟩
  refine ⟨_, showSms_of_runs hkv hjs hmerged, ?_⟩
  refine (firstPresent_merged _ textEntry _).trans ?_
  rw [hbest, if_neg hne]

end Text

/-! ## A received SMS -/

def receivedNumber : Field :=
  ⟨"sms.content.number".toList, "+351912345678".toList, by decide, by decide, by decide⟩

def receivedState : Field :=
  ⟨"sms.properties.state".toList, "received".toList, by decide, by decide, by decide⟩

def receivedFields (body : Str) : List (Str × Json) :=
  [("sms".toList, .obj
    [("content".toList, .obj [("number".toList, .str receivedNumber.value),
      ("text".toList, .str body)]),
     ("properties".toList, .obj [("state".toList, .str receivedState.value)])])]

/-- `json.loads` on the objects of such SMS. -/
def loadsReceived (bodies : List Str) (raw : Str) : Option Json :=
  (bodies.find? (fun body => raw == dumps (.obj (receivedFields body)))).map
    (fun body => .obj (receivedFields body))

def Json.str? : Json → Option Str
  | .str s => some s
  | _ => none

theorem eq_str_of_str? {v : Json} {s : Str} (h : v.str? = some s) : v = .str s := by
  cases v with
  | str t => exact congrArg Json.str (Option.some.inj h)
  | _ => cases h

/-- A text that looks like a line of the output. -/
def linedBody : Str := "first\nsms.content.text : second\nlast".toList

theorem showSms_body_lined :
    ∃ d, showSms (loadsReceived [linedBody]) ⟨"30".toList, 3, by decide⟩ ()
        [.completed 0 (printReport [receivedNumber] (some linedBody) [receivedState]) [],
          .completed 0 (dumps (.obj (receivedFields linedBody))) []] = some (.ok d, (), []) ∧
      extractText d = Text.strip linedBody := by
  have hreported : JsonReports (loadsReceived [linedBody])
      (dumps (.obj (receivedFields linedBody))) textEntry linedBody := by
    refine ⟨by decide +kernel, receivedFields linedBody, ?_, by decide +kernel, ?_⟩
    · simp [loadsReceived]
    · have hsame : ∀ kv ∈ flattenDict (receivedFields linedBody), normalizeKey kv.1 = textEntry →
          kv.2.str? = some linedBody := by decide +kernel
      intro kv hkv hkey
      exact eq_str_of_str? (hsame kv hkv hkey)
  have hother : ∀ f ∈ [receivedNumber] ++ [receivedState], normalizeKey f.key ≠ textEntry := by
    decide +kernel
  exact showSms_body rfl rfl rfl (Or.inr rfl) hother hreported (by decide)

end HiWaveTel
