import Mathlib.Data.List.Dedup
import HiWaveTel.MmcliClient
import HiWaveTel.Foundation.Dict
import HiWaveTel.Foundation.Lines
import HiWaveTel.Foundation.Unicode

/- What `mmcli_client.py` makes of the output of `mmcli`: the lines of
   `--output-keyvalue`, the object of `--output-json`, and the merge of both. Keys are
   compared by their letters and digits. Of two values for a key in one output the first
   line wins, and of two outputs the longer value.

   `get_parseKeyvalue` and `get_mergeMmcliSources` say what the two loops leave for a
   key; callers do not unfold them. -/
namespace HiWaveTel
open Foundation

/-! ## Keys and values -/

/-- `_normalize_key`. -/
def normalizeKey (raw : Str) : Str := (Text.lower raw).filter Text.isAlnum

/-- `_is_blank_mmcli_value`. -/
def isBlankMmcliValue (val : Str) : Bool :=
  let s := Text.strip val
  s == [] || s == "--".toList

theorem isBlankMmcliValue_strip (v : Str) :
    isBlankMmcliValue (Text.strip v) = isBlankMmcliValue v := by
  unfold isBlankMmcliValue
  rw [Text.strip_strip]

theorem ne_nil_of_not_blank {v : Str} (h : isBlankMmcliValue v = false) : v ≠ [] := by
  rintro rfl
  cases h

/-! ## --output-keyvalue -/

/-- One line of the output: its key and value, if it has both. -/
def parseLine (line : Str) : Option (Str × Str) :=
  let line := Text.strip line
  if line = [] ∨ ':' ∉ line then none
  else
    let nk := normalizeKey (line.takeWhile (fun c => c != ':'))
    let val := Text.strip ((line.dropWhile (fun c => c != ':')).drop 1)
    if nk ≠ [] ∧ val ≠ [] then some (nk, val) else none

/-- The keys and values of the lines, in their order. -/
def parsedLines (text : Str) : List (Str × Str) := (Text.splitLines text).filterMap parseLine

/-- `_parse_keyvalue`. -/
def parseKeyvalue (text : Str) : Details :=
  (parsedLines text).foldl (fun out kv => Dict.setDefault out kv.1 kv.2) []

/-- A dictionary is read as its readers read it. -/
theorem Details.get_eq (d : Details) (k : Str) : d.get k = Dict.get d k := rfl

/-- The same dictionary, in whatever order its keys are. -/
def SameDict (d e : Details) : Prop := ∀ k, d.get k = e.get k

/-- The code points of `str.isspace`. -/
def spaceCodes : List Nat :=
  List.range' 9 5 ++ List.range' 28 5 ++ List.range' 0x2000 11 ++
    [0x85, 0xA0, 0x1680, 0x2028, 0x2029, 0x202F, 0x205F, 0x3000]

theorem mem_spaceCodes {c : Char} (h : Text.isSpace c = true) : c.toNat ∈ spaceCodes := by
  simp only [Text.isSpace, Bool.or_eq_true, Bool.and_eq_true, decide_eq_true_eq, beq_iff_eq] at h
  simp only [spaceCodes, List.mem_append, List.mem_range'_1, List.mem_cons, List.not_mem_nil,
    or_false]
  omega

/-- No space is part of a key, or of a word of it. -/
theorem normalizeKey_space {c : Char} (h : Text.isSpace c = true) :
    normalizeKey [c] = [] ∧ Text.separates c = true := by
  have hall : ∀ n ∈ spaceCodes,
      normalizeKey [Char.ofNat n] = [] ∧ Text.separates (Char.ofNat n) = true := by decide +kernel
  have hc := hall c.toNat (mem_spaceCodes h)
  rwa [Char.ofNat_toNat] at hc

theorem normalizeKey_cons_space {c : Char} (h : Text.isSpace c = true) (key : Str) :
    normalizeKey (c :: key) = normalizeKey key := by
  obtain ⟨hnone, hseparates⟩ := normalizeKey_space h
  have hfirst : ∀ s, normalizeKey (c :: s) =
      (Text.lowerChar c).filter Text.isAlnum ++ normalizeKey s := by
    intro s
    rw [normalizeKey, Text.lower, Text.lowerFrom_separates hseparates, List.filter_append]
    rfl
  rw [hfirst] at hnone
  rw [hfirst, (List.append_eq_nil_iff.mp hnone).1, List.nil_append]

theorem normalizeKey_append_space {c : Char} (h : Text.isSpace c = true) (key : Str) :
    normalizeKey (key ++ [c]) = normalizeKey key := by
  obtain ⟨hnone, hseparates⟩ := normalizeKey_space h
  have hhead : ∀ d ∈ [c].head?, Text.separates d = true := by
    intro d hd
    cases hd
    exact hseparates
  rw [normalizeKey, Text.lower_append key hhead, List.filter_append]
  exact (congrArg (normalizeKey key ++ ·) hnone).trans (List.append_nil _)

theorem normalizeKey_dropWhile (s : Str) :
    normalizeKey (s.dropWhile Text.isSpace) = normalizeKey s := by
  induction s with
  | nil => rfl
  | cons c s ih =>
    cases hc : Text.isSpace c with
    | true =>
      rw [List.dropWhile_cons_of_pos hc, ih, normalizeKey_cons_space hc]
    | false => rw [List.dropWhile_cons_of_neg (by simp [hc])]

theorem parseLine_field {key : Str} (h : ':' ∉ key) (val : Str) :
    parseLine (key ++ ':' :: val) =
      if normalizeKey key ≠ [] ∧ Text.strip val ≠ [] then
        some (normalizeKey key, Text.strip val)
      else none := by
  have hall : ∀ c ∈ key.dropWhile Text.isSpace, (c != ':') = true := by
    intro c hc
    have hne : c ≠ ':' := by
      rintro rfl
      exact h ((List.dropWhile_suffix _).subset hc)
    simpa using hne
  have htake : (key.dropWhile Text.isSpace ++ ':' :: val.rdropWhile Text.isSpace).takeWhile
      (fun c => c != ':') = key.dropWhile Text.isSpace := by
    rw [List.takeWhile_append_of_pos hall, List.takeWhile_cons_of_neg (by decide), List.append_nil]
  have hdrop : (key.dropWhile Text.isSpace ++ ':' :: val.rdropWhile Text.isSpace).dropWhile
      (fun c => c != ':') = ':' :: val.rdropWhile Text.isSpace := by
    rw [List.dropWhile_append_of_pos hall, List.dropWhile_cons_of_neg (by decide)]
  unfold parseLine
  rw [Text.strip_append_cons key (by decide) val, if_neg (by simp)]
  simp only [htake, hdrop, List.drop_succ_cons, List.drop_zero, normalizeKey_dropWhile,
    Text.strip_rdropWhile]

/-- A value is a stripped part of its line. -/
theorem infix_of_parseLine {line k v : Str} (h : parseLine line = some (k, v)) :
    v <:+: line ∧ Text.strip v = v := by
  unfold parseLine at h
  simp only at h
  split at h
  · cases h
  · split at h
    · cases h
      refine ⟨?_, Text.strip_strip _⟩
      have hdrop : ((Text.strip line).dropWhile (fun c => c != ':')).drop 1 <:+ Text.strip line :=
        (List.drop_suffix _ _).trans (List.dropWhile_suffix _)
      exact ((Text.strip_infix _).trans hdrop.isInfix).trans (Text.strip_infix line)
    · cases h

/-- The first line with a key gives its value. -/
theorem get_parseKeyvalue (text k : Str) :
    (parseKeyvalue text).get k = Dict.get (parsedLines text) k := by
  rw [Details.get_eq, parseKeyvalue, Dict.get_foldl_setDefault]
  rfl

/-- `_run` reads the output as text. -/
theorem parseKeyvalue_universalNewlines (text : Str) :
    parseKeyvalue (Text.universalNewlines text) = parseKeyvalue text := by
  unfold parseKeyvalue parsedLines
  rw [Text.splitLines_universalNewlines]

theorem strip_of_get_parseKeyvalue {text k v : Str} (h : (parseKeyvalue text).get k = some v) :
    Text.strip v = v := by
  rw [get_parseKeyvalue] at h
  obtain ⟨line, _, hline⟩ := List.mem_filterMap.mp (Dict.mem_of_get h)
  exact (infix_of_parseLine hline).2

theorem parsedLines_line {line : Str} (h : Text.SingleLine line) (s : Str) :
    parsedLines (line ++ '\n' :: s) = (parseLine line).toList ++ parsedLines s := by
  rw [parsedLines, Text.splitLines_line h, List.filterMap_cons]
  cases parseLine line <;> rfl

/-! ## --output-json -/

/-- What `json.loads` returns; a number is the text that `str` gives of it. -/
inductive Json where
  | null
  | bool (b : Bool)
  | num (text : Str)
  | str (s : Str)
  | arr (items : List Json)
  | obj (fields : List (Str × Json))

mutual

/-- The pairs that `_flatten_dict` collects. -/
def flattenItems (parentKey : Str) : List (Str × Json) → List (Str × Json)
  | [] => []
  | kv :: rest => flattenItem parentKey kv ++ flattenItems parentKey rest

def flattenItem (parentKey : Str) : Str × Json → List (Str × Json)
  | (k, .obj fields) =>
    -- the nested call returns a `dict`, too
    Dict.ofItems (flattenItems (if parentKey = [] then k else parentKey ++ '.' :: k) fields)
  | (k, v) => [(if parentKey = [] then k else parentKey ++ '.' :: k, v)]

end

/-- `_flatten_dict`. -/
def flattenDict (nested : List (Str × Json)) : List (Str × Json) :=
  Dict.ofItems (flattenItems [] nested)

theorem flattenItem_leaf {parentKey k : Str} {v : Json} (hleaf : ∀ fields, v ≠ .obj fields) :
    flattenItem parentKey (k, v) = [(if parentKey = [] then k else parentKey ++ '.' :: k, v)] := by
  cases v with
  | obj fields => exact absurd rfl (hleaf fields)
  | _ => rw [flattenItem]; exact hleaf

/-- A character of a string in JSON, with `ensure_ascii=False`. -/
def escapeJsonChar (c : Char) : Str :=
  if c = '"' then ['\\', '"']
  else if c = '\\' then ['\\', '\\']
  else if c = '\n' then ['\\', 'n']
  else if c = '\r' then ['\\', 'r']
  else if c = '\t' then ['\\', 't']
  else if c.toNat = 8 then ['\\', 'b']
  else if c.toNat = 12 then ['\\', 'f']
  else if c.toNat < 32 then
    "\\u00".toList ++ [Nat.digitChar (c.toNat / 16), Nat.digitChar (c.toNat % 16)]
  else [c]

def dumpsStr (s : Str) : Str := '"' :: s.flatMap escapeJsonChar ++ ['"']

/-- `json.dumps` of a number, which spells three of them in its own way. -/
def dumpsNum (text : Str) : Str :=
  if text = "nan".toList then "NaN".toList
  else if text = "inf".toList then "Infinity".toList
  else if text = "-inf".toList then "-Infinity".toList
  else text

mutual

/-- `json.dumps(val, ensure_ascii=False)`. -/
def dumps : Json → Str
  | .null => "null".toList
  | .bool b => if b then "true".toList else "false".toList
  | .num text => dumpsNum text
  | .str s => dumpsStr s
  | .arr items => '[' :: List.intercalate ", ".toList (dumpsItems items) ++ [']']
  | .obj fields => '\x7b' :: List.intercalate ", ".toList (dumpsFields fields) ++ ['\x7d']

def dumpsItems : List Json → List Str
  | [] => []
  | v :: rest => dumps v :: dumpsItems rest

def dumpsFields : List (Str × Json) → List Str
  | [] => []
  | kv :: rest => dumpsField kv :: dumpsFields rest

def dumpsField : Str × Json → Str
  | (k, v) => dumpsStr k ++ ": ".toList ++ dumps v

end

/-- The text of one value. -/
def jsonText : Json → Str
  | .null => []
  | .bool b => if b then "True".toList else "False".toList
  | .num text => text
  | .str s => s
  | v => dumps v

/-- The loop of `_normalize_mmcli_json` over the flattened object. -/
def normalizeFlattened (flattened : List (Str × Json)) : Details :=
  flattened.foldl (fun out kv =>
    let nk := normalizeKey kv.1
    if nk = [] then out else Dict.set out nk (jsonText kv.2)) []

/-- The normalised pairs in their order. -/
def normalizedItems (flattened : List (Str × Json)) : List (Str × Str) :=
  flattened.filterMap (fun kv =>
    if normalizeKey kv.1 = [] then none else some (normalizeKey kv.1, jsonText kv.2))

/-- The last pair with a key gives its value. -/
theorem get_normalizeFlattened (flattened : List (Str × Json)) (k : Str) :
    (normalizeFlattened flattened).get k = Dict.get (normalizedItems flattened).reverse k := by
  have hsame : normalizeFlattened flattened = Dict.ofItems (normalizedItems flattened) := by
    rw [normalizedItems, Dict.ofItems, List.foldl_filterMap]
    unfold normalizeFlattened
    congr
    funext out kv
    by_cases hk : normalizeKey kv.1 = []
    · simp [hk]
    · simp [hk]
  rw [Details.get_eq, hsame, Dict.ofItems, Dict.get_foldl_set, Dict.get_nil, Option.or_none]

/-- All values under one key are the same text. -/
theorem get_normalizeFlattened_some {flattened : List (Str × Json)} {k v : Str} (hk : k ≠ [])
    (hin : ∃ kv ∈ flattened, normalizeKey kv.1 = k)
    (hsame : ∀ kv ∈ flattened, normalizeKey kv.1 = k → kv.2 = .str v) :
    (normalizeFlattened flattened).get k = some v := by
  have hitem : ∀ kv ∈ flattened, normalizeKey kv.1 = k →
      (if normalizeKey kv.1 = [] then none else some (normalizeKey kv.1, jsonText kv.2)) =
        some (k, v) := by
    intro kv hmem hkv
    rw [hsame kv hmem hkv, hkv, if_neg hk]
    rfl
  rw [get_normalizeFlattened]
  apply Dict.get_eq_some
  · obtain ⟨kv, hmem, hkv⟩ := hin
    exact ⟨(k, v), List.mem_reverse.mpr (List.mem_filterMap.mpr ⟨kv, hmem, hitem kv hmem hkv⟩), rfl⟩
  · intro item hitem' hkey
    obtain ⟨kv, hmem, hof⟩ := List.mem_filterMap.mp (List.mem_reverse.mp hitem')
    have hkv : normalizeKey kv.1 = k := by
      by_cases hnil : normalizeKey kv.1 = []
      · simp [hnil] at hof
      · rw [if_neg hnil] at hof
        cases hof
        exact hkey
    rw [hitem kv hmem hkv] at hof
    cases hof
    rfl

theorem get_normalizeFlattened_none {flattened : List (Str × Json)} {k : Str}
    (hnot : ∀ kv ∈ flattened, normalizeKey kv.1 ≠ k) :
    (normalizeFlattened flattened).get k = none := by
  rw [get_normalizeFlattened]
  apply Dict.get_eq_none.mpr
  intro item hitem hkey
  obtain ⟨kv, hmem, hof⟩ := List.mem_filterMap.mp (List.mem_reverse.mp hitem)
  by_cases hnil : normalizeKey kv.1 = []
  · simp [hnil] at hof
  · rw [if_neg hnil] at hof
    cases hof
    exact hnot kv hmem hkey

section Loads
variable (loads : Str → Option Json)    -- `json.loads`; `none` is its `ValueError`

/-- `_normalize_mmcli_json`. -/
def normalizeMmcliJson (raw : Str) : Option Details :=
  match loads raw with
  | none => none
  | some (.obj fields) => some (normalizeFlattened (flattenDict fields))
  | some _ => some []

/-- The `js_data` of an output: nothing if it is blank or does not parse. -/
def jsonDetails (stdout : Str) : Details :=
  if Text.strip stdout = [] then [] else (normalizeMmcliJson loads stdout).getD []

theorem jsonDetails_object {loads : Str → Option Json} {raw : Str} {fields : List (Str × Json)}
    (hraw : Text.strip raw ≠ []) (hloads : loads raw = some (.obj fields)) :
    jsonDetails loads raw = normalizeFlattened (flattenDict fields) := by
  rw [jsonDetails, if_neg hraw, normalizeMmcliJson, hloads]
  rfl

end Loads

/-! ## The merge -/

/-- The best value for a key so far, and the part `p` after it. -/
def longerValue (k : Str) (best : Str) (p : Details) : Str :=
  let v := Text.strip ((p.get k).getD [])
  if isBlankMmcliValue v then best
  else if best = [] ∨ best.length < v.length then v
  else best

/-- `_merge_mmcli_sources`; the order of its keys, that of a `set`, shows nowhere. -/
def mergeMmcliSources (parts : List Details) : Details :=
  (parts.flatMap (fun p => p.map Prod.fst)).dedup.filterMap (fun k =>
    let best := parts.foldl (longerValue k) []
    if best = [] then none else some (k, best))

/-- The value that all parts leave for a key. -/
def bestValue (parts : List Details) (k : Str) : Str := parts.foldl (longerValue k) []

theorem longerValue_of_get_none {k best : Str} {p : Details} (h : p.get k = none) :
    longerValue k best p = best := by
  unfold longerValue
  rw [h]
  exact if_pos (by decide)

/-- A key of no part has no value. -/
theorem bestValue_of_not_mem {parts : List Details} {k : Str}
    (h : k ∉ parts.flatMap (fun p => p.map Prod.fst)) : bestValue parts k = [] := by
  induction parts with
  | nil => rfl
  | cons p parts ih =>
    rw [List.flatMap_cons, List.mem_append, not_or] at h
    have hnone : p.get k = none := by
      rw [Details.get_eq]
      exact Dict.get_eq_none.mpr (fun kv hkv hk => h.1 (List.mem_map.mpr ⟨kv, hkv, hk⟩))
    rw [bestValue, List.foldl_cons, longerValue_of_get_none hnone]
    exact ih h.2

theorem get_mergeMmcliSources (parts : List Details) (k : Str) :
    (mergeMmcliSources parts).get k =
      if bestValue parts k = [] then none else some (bestValue parts k) := by
  have hsame : mergeMmcliSources parts =
      (parts.flatMap (fun p => p.map Prod.fst)).dedup.filterMap (fun k =>
        (if bestValue parts k = [] then none else some (bestValue parts k)).map
          (fun v => (k, v))) := by
    unfold mergeMmcliSources
    congr
    funext k
    show (if bestValue parts k = [] then none else some (k, bestValue parts k)) = _
    split <;> rfl
  rw [Details.get_eq, hsame]
  apply Dict.get_filterMap (f := fun k =>
    if bestValue parts k = [] then none else some (bestValue parts k))
  intro hnot
  exact if_pos (bestValue_of_not_mem (fun hmem => hnot (List.mem_dedup.mpr hmem)))

/-- The value of a key in one part. -/
def partValue (p : Details) (k : Str) : Str := Text.strip ((p.get k).getD [])

theorem longerValue_eq (k best : Str) (p : Details) :
    longerValue k best p =
      if isBlankMmcliValue (partValue p k) = true then best
      else if best = [] ∨ best.length < (partValue p k).length then partValue p k
      else best := rfl

theorem length_le_longerValue (k best : Str) (p : Details) :
    best.length ≤ (longerValue k best p).length := by
  rw [longerValue_eq]
  split
  · exact Nat.le_refl _
  · split
    · next hlong =>
      rcases hlong with rfl | hlong
      · exact Nat.zero_le _
      · exact Nat.le_of_lt hlong
    · exact Nat.le_refl _

theorem partValue_le_longerValue {k : Str} {p : Details}
    (h : isBlankMmcliValue (partValue p k) = false) (best : Str) :
    (partValue p k).length ≤ (longerValue k best p).length := by
  rw [longerValue_eq, if_neg (by simp [h])]
  split
  · exact Nat.le_refl _
  · next hlong =>
    rw [not_or, Nat.not_lt] at hlong
    exact hlong.2

/-- No part has a longer value. -/
theorem partValue_le_bestValue {parts : List Details} {p : Details} {k : Str} (hp : p ∈ parts)
    (h : isBlankMmcliValue (partValue p k) = false) :
    (partValue p k).length ≤ (bestValue parts k).length := by
  have hrest : ∀ (rest : List Details) (best : Str),
      best.length ≤ (rest.foldl (longerValue k) best).length := by
    intro rest
    induction rest with
    | nil => exact fun best => Nat.le_refl _
    | cons q rest ih => exact fun best => (length_le_longerValue k best q).trans (ih _)
  obtain ⟨before, after, rfl⟩ := List.append_of_mem hp
  rw [bestValue, List.foldl_append, List.foldl_cons]
  exact (partValue_le_longerValue h _).trans (hrest after _)

/-- A value that is not blank is merged, or one that is no shorter. -/
theorem get_mergeMmcliSources_of_part {parts : List Details} {p : Details} {k v : Str}
    (hp : p ∈ parts) (hget : p.get k = some v) (hblank : isBlankMmcliValue v = false) :
    ∃ w, (mergeMmcliSources parts).get k = some w ∧ (Text.strip v).length ≤ w.length := by
  have hpart : partValue p k = Text.strip v := by
    rw [partValue, hget, Option.getD_some]
  rw [← isBlankMmcliValue_strip, ← hpart] at hblank
  have hle := partValue_le_bestValue hp hblank
  have hne : bestValue parts k ≠ [] := by
    intro hnil
    rw [hnil, List.length_nil, Nat.le_zero, List.length_eq_zero_iff] at hle
    rw [hle] at hblank
    cases hblank
  rw [get_mergeMmcliSources, if_neg hne, ← hpart]
  exact ⟨_, rfl, hle⟩

/-- The best value is the value of a part. -/
theorem bestValue_cases (parts : List Details) (k : Str) :
    bestValue parts k = [] ∨
      ∃ p ∈ parts, isBlankMmcliValue (partValue p k) = false ∧
        bestValue parts k = partValue p k := by
  have hfold : ∀ best, parts.foldl (longerValue k) best = best ∨
      ∃ p ∈ parts, isBlankMmcliValue (partValue p k) = false ∧
        parts.foldl (longerValue k) best = partValue p k := by
    induction parts with
    | nil => exact fun best => Or.inl rfl
    | cons q parts ih =>
      intro best
      rw [List.foldl_cons]
      rcases ih (longerValue k best q) with hsame | ⟨p, hp, hblank, hvalue⟩
      · rw [hsame, longerValue_eq]
        cases hblank : isBlankMmcliValue (partValue q k) with
        | true => exact Or.inl (if_pos rfl)
        | false =>
          rw [if_neg Bool.false_ne_true]
          split
          · exact Or.inr ⟨q, List.mem_cons_self, hblank, rfl⟩
          · exact Or.inl rfl
      · exact Or.inr ⟨p, List.mem_cons_of_mem _ hp, hblank, hvalue⟩
  exact hfold []

theorem bestValue_pair (p q : Details) (k : Str) :
    bestValue [p, q] k =
      if isBlankMmcliValue (partValue p k) = true then
        if isBlankMmcliValue (partValue q k) = true then [] else partValue q k
      else if isBlankMmcliValue (partValue q k) = false ∧
          (partValue p k).length < (partValue q k).length then partValue q k
      else partValue p k := by
  rw [bestValue, List.foldl_cons, List.foldl_cons, List.foldl_nil, longerValue_eq,
    longerValue_eq]
  cases hp : isBlankMmcliValue (partValue p k) with
  | true => simp
  | false =>
    have hne := ne_nil_of_not_blank hp
    cases isBlankMmcliValue (partValue q k) with
    | true => simp
    | false => simp [hne]

/-- Parts that agree. -/
theorem bestValue_same {p q : Details} {k v : Str} (hp : partValue p k = v)
    (hq : partValue q k = v) :
    bestValue [p, q] k = if isBlankMmcliValue v = true then [] else v := by
  rw [bestValue_pair, hp, hq]
  split
  · rfl
  · rw [if_neg (fun h => Nat.lt_irrefl _ h.2)]

theorem present_eq (v : Str) : present v = !isBlankMmcliValue v := by
  unfold present isBlankMmcliValue
  simp [bne]

/-- A reader takes the merged value as it is. -/
theorem firstPresent_merged (parts : List Details) (k : Str) (ks : List Str) :
    firstPresent (mergeMmcliSources parts) (k :: ks) =
      if bestValue parts k = [] then firstPresent (mergeMmcliSources parts) ks
      else bestValue parts k := by
  rw [firstPresent, get_mergeMmcliSources]
  by_cases hempty : bestValue parts k = []
  · rw [if_pos hempty, if_pos hempty]
  · rw [if_neg hempty, if_neg hempty]
    rcases bestValue_cases parts k with hnil | ⟨p, _, hblank, hvalue⟩
    · exact absurd hnil hempty
    · simp only
      rw [hvalue, present_eq, hblank, Bool.not_false, if_pos rfl]
      exact Text.strip_strip _

example : mergeMmcliSources
    [parseKeyvalue "sms.content.number : +351\nsms.content.text : part one\n".toList,
      normalizeFlattened (flattenDict [("sms".toList, .obj [("content".toList,
        .obj [("text".toList, .str "part one, part two".toList)])])])] =
    [("smscontentnumber".toList, "+351".toList),
      ("smscontenttext".toList, "part one, part two".toList)] := by decide +kernel

end HiWaveTel
