import HiWaveTel.SmsReport

/- The two decoders of `mmcli_client.py` on one object: `_normalize_mmcli_json` of its JSON text
   and `_parse_keyvalue` of a line for each of its leaves. What the object has is said apart from
   both, as its leaves with the keys on the way to them; the decoders are compared with that.

   `flattenDict_eq_leaves` — `_flatten_dict`, which puts its prefix together on the way down and
   makes a dictionary at every level, gives each leaf under its dotted path. -/
namespace HiWaveTel
open Foundation

/-! ## Objects of strings -/

/-- A key that can be printed in front of a colon; a dot in it does no harm. -/
structure PlainKey (k : Str) : Prop where
  ne_nil : k ≠ []
  plain : ':' ∉ k
  single : Text.SingleLine k

/-- A string that a line gives back. -/
structure PlainLeaf (s : Str) : Prop where
  ne_nil : s ≠ []
  stripped : Text.strip s = s
  single : Text.SingleLine s

instance (k : Str) : Decidable (PlainKey k) :=
  decidable_of_iff (k ≠ [] ∧ ':' ∉ k ∧ Text.SingleLine k)
    ⟨fun h => ⟨h.1, h.2.1, h.2.2⟩, fun h => ⟨h.ne_nil, h.plain, h.single⟩⟩

instance (s : Str) : Decidable (PlainLeaf s) :=
  decidable_of_iff (s ≠ [] ∧ Text.strip s = s ∧ Text.SingleLine s)
    ⟨fun h => ⟨h.1, h.2.1, h.2.2⟩, fun h => ⟨h.ne_nil, h.stripped, h.single⟩⟩

mutual

def PlainFields : List (Str × Json) → Prop
  | [] => True
  | field :: rest => PlainField field ∧ PlainFields rest

def PlainField : Str × Json → Prop
  | (k, .obj fields) => PlainKey k ∧ PlainFields fields
  | (k, .str s) => PlainKey k ∧ PlainLeaf s
  | (_, .null) | (_, .bool _) | (_, .num _) | (_, .arr _) => False

end

mutual

/-- The leaves, each with the keys on the way to it. -/
def leaves : List (Str × Json) → List (List Str × Str)
  | [] => []
  | field :: rest => leavesOf field ++ leaves rest

def leavesOf : Str × Json → List (List Str × Str)
  | (k, .obj fields) => (leaves fields).map (fun leaf => (k :: leaf.1, leaf.2))
  | (k, .str s) => [([k], s)]
  | (_, .null) | (_, .bool _) | (_, .num _) | (_, .arr _) => []

end

/-- `'.'.join(path)`. -/
def dotted (path : List Str) : Str := List.intercalate ['.'] path

/-- An object whose leaves can be told apart by their normalised dotted paths. -/
structure PlainObject where
  fields : List (Str × Json)
  plain : PlainFields fields
  named : ∀ leaf ∈ leaves fields, normalizeKey (dotted leaf.1) ≠ []
  distinct : ((leaves fields).map (fun leaf => normalizeKey (dotted leaf.1))).Nodup

/-- A line for each leaf. -/
def printLeaves (lines : List (List Str × Str)) : Str :=
  lines.flatMap (fun leaf => fieldLine (dotted leaf.1) leaf.2 ++ ['\n'])

/-! ## What holds of every leaf -/

theorem dotted_cons (k : Str) {path : List Str} (h : path ≠ []) :
    dotted (k :: path) = k ++ '.' :: dotted path := by
  obtain ⟨first, rest, rfl⟩ := List.exists_cons_of_ne_nil h
  rw [dotted, dotted, List.intercalate_cons_cons]
  simp

theorem dotted_singleton (k : Str) : dotted [k] = k := by
  rw [dotted, List.intercalate_singleton]

/-- The path of a leaf is not empty and has a plain text, and so has the leaf. -/
structure PlainPath (leaf : List Str × Str) : Prop where
  ne_nil : leaf.1 ≠ []
  plain : ':' ∉ dotted leaf.1
  single : Text.SingleLine (dotted leaf.1)
  leaf : PlainLeaf leaf.2

theorem plainPath_singleton {k s : Str} (hk : PlainKey k) (hs : PlainLeaf s) :
    PlainPath ([k], s) := by
  refine ⟨by simp, ?_, ?_, hs⟩
  · rw [dotted_singleton]
    exact hk.plain
  · rw [dotted_singleton]
    exact hk.single

theorem plainPath_cons {k : Str} {leaf : List Str × Str} (hk : PlainKey k) (h : PlainPath leaf) :
    PlainPath (k :: leaf.1, leaf.2) := by
  refine ⟨by simp, ?_, ?_, h.leaf⟩
  · rw [dotted_cons k h.ne_nil]
    simp [hk.plain, h.plain]
  · rw [dotted_cons k h.ne_nil]
    intro c hc
    rcases List.mem_append.mp hc with hc | hc
    · exact hk.single c hc
    · rcases List.mem_cons.mp hc with rfl | hc
      · decide
      · exact h.single c hc

mutual

theorem plainPath_leaves :
    ∀ fields : List (Str × Json), PlainFields fields → ∀ leaf ∈ leaves fields, PlainPath leaf
  | [], _, leaf, h => by
    rw [leaves] at h
    cases h
  | field :: rest, hplain, leaf, h => by
    rw [PlainFields] at hplain
    rw [leaves] at h
    rcases List.mem_append.mp h with h | h
    · exact plainPath_leavesOf field hplain.1 leaf h
    · exact plainPath_leaves rest hplain.2 leaf h

theorem plainPath_leavesOf :
    ∀ field : Str × Json, PlainField field → ∀ leaf ∈ leavesOf field, PlainPath leaf
  | (k, .obj fields), hplain, leaf, h => by
    rw [PlainField] at hplain
    rw [leavesOf] at h
    obtain ⟨below, hbelow, rfl⟩ := List.mem_map.mp h
    exact plainPath_cons hplain.1 (plainPath_leaves fields hplain.2 below hbelow)
  | (k, .str s), hplain, leaf, h => by
    rw [PlainField] at hplain
    rw [leavesOf, List.mem_singleton] at h
    rw [h]
    exact plainPath_singleton hplain.1 hplain.2
  | (_, .null), hplain, _, _ | (_, .bool _), hplain, _, _ | (_, .num _), hplain, _, _
  | (_, .arr _), hplain, _, _ => by
    rw [PlainField] at hplain
    exact hplain.elim

end

/-! ## _flatten_dict -/

/-- The key of a leaf below a parent key. -/
def underKey (parentKey : Str) (path : List Str) : Str :=
  if parentKey = [] then dotted path else parentKey ++ '.' :: dotted path

theorem underKey_cons {parentKey k : Str} (hk : k ≠ []) {path : List Str} (h : path ≠ []) :
    underKey (if parentKey = [] then k else parentKey ++ '.' :: k) path =
      underKey parentKey (k :: path) := by
  unfold underKey
  rw [dotted_cons k h]
  by_cases hparent : parentKey = []
  · rw [if_pos hparent, if_pos hparent, if_neg hk]
  · rw [if_neg hparent, if_neg hparent, if_neg (by simp), List.append_assoc, List.cons_append]

/-- A leaf with its key, as `_flatten_dict` gives it. -/
def flatItem (parentKey : Str) (leaf : List Str × Str) : Str × Json :=
  (underKey parentKey leaf.1, .str leaf.2)

mutual

theorem flattenItems_eq_leaves (parentKey : Str) : ∀ fields : List (Str × Json),
    PlainFields fields → ((leaves fields).map (fun leaf => underKey parentKey leaf.1)).Nodup →
    flattenItems parentKey fields = (leaves fields).map (flatItem parentKey)
  | [], _, _ => by
    rw [flattenItems, leaves]
    rfl
  | field :: rest, hplain, hdistinct => by
    rw [PlainFields] at hplain
    rw [leaves, List.map_append] at hdistinct
    obtain ⟨hfield, hrest, _⟩ := List.nodup_append.mp hdistinct
    rw [flattenItems, leaves, List.map_append, flattenItem_eq_leaves parentKey field hplain.1 hfield,
      flattenItems_eq_leaves parentKey rest hplain.2 hrest]

theorem flattenItem_eq_leaves (parentKey : Str) : ∀ field : Str × Json,
    PlainField field → ((leavesOf field).map (fun leaf => underKey parentKey leaf.1)).Nodup →
    flattenItem parentKey field = (leavesOf field).map (flatItem parentKey)
  | (k, .obj fields), hplain, hdistinct => by
    rw [PlainField] at hplain
    have hunder : ∀ leaf ∈ leaves fields,
        underKey (if parentKey = [] then k else parentKey ++ '.' :: k) leaf.1 =
          underKey parentKey (k :: leaf.1) := fun leaf hleaf =>
      underKey_cons hplain.1.ne_nil (plainPath_leaves fields hplain.2 leaf hleaf).ne_nil
    rw [leavesOf, List.map_map] at hdistinct
    have hdistinct' : ((leaves fields).map (fun leaf =>
        underKey (if parentKey = [] then k else parentKey ++ '.' :: k) leaf.1)).Nodup := by
      rw [List.map_congr_left hunder]
      exact hdistinct
    rw [flattenItem, flattenItems_eq_leaves _ fields hplain.2 hdistinct', leavesOf, List.map_map,
      Dict.ofItems_of_nodup (by rw [List.map_map]; exact hdistinct')]
    refine List.map_congr_left (fun leaf hleaf => ?_)
    rw [flatItem, hunder leaf hleaf]
    rfl
  | (k, .str s), _, _ => by
    rw [flattenItem_leaf (fun fields hobj => by cases hobj), leavesOf, List.map_singleton, flatItem,
      underKey, dotted_singleton]
  | (_, .null), hplain, _ | (_, .bool _), hplain, _ | (_, .num _), hplain, _
  | (_, .arr _), hplain, _ => by
    rw [PlainField] at hplain
    exact hplain.elim

end

theorem underKey_nil (path : List Str) : underKey [] path = dotted path := if_pos rfl

/-- No leaf is lost, merged or renamed. -/
theorem flattenDict_eq_leaves (o : PlainObject) :
    flattenDict o.fields = (leaves o.fields).map (fun leaf => (dotted leaf.1, .str leaf.2)) := by
  have hnodup : ((leaves o.fields).map (fun leaf => dotted leaf.1)).Nodup := by
    apply List.Nodup.of_map normalizeKey
    rw [List.map_map]
    exact o.distinct
  have hunder : ∀ leaf ∈ leaves o.fields, underKey [] leaf.1 = dotted leaf.1 :=
    fun leaf _ => underKey_nil leaf.1
  rw [flattenDict, flattenItems_eq_leaves [] o.fields o.plain
    (by rw [List.map_congr_left hunder]; exact hnodup)]
  rw [Dict.ofItems_of_nodup (by
    rw [List.map_map]
    exact (List.map_congr_left hunder).symm ▸ hnodup)]
  exact List.map_congr_left (fun leaf hleaf => by rw [flatItem, hunder leaf hleaf])

/-! ## The two decoders -/

/-- What both decoders make of a leaf. -/
def leafEntry (leaf : List Str × Str) : Str × Str := (normalizeKey (dotted leaf.1), leaf.2)

theorem normalizedItems_flattenDict (o : PlainObject) :
    normalizedItems (flattenDict o.fields) = (leaves o.fields).map leafEntry := by
  rw [normalizedItems, flattenDict_eq_leaves, List.filterMap_map, ← List.filterMap_eq_map]
  apply List.filterMap_congr
  intro leaf hleaf
  simp only [Function.comp_apply]
  rw [if_neg (o.named leaf hleaf)]
  rfl

theorem parseLine_leaf {leaf : List Str × Str} (hplain : PlainPath leaf)
    (hnamed : normalizeKey (dotted leaf.1) ≠ []) :
    parseLine (fieldLine (dotted leaf.1) leaf.2) = some (leafEntry leaf) := by
  have hne : Text.strip leaf.2 ≠ [] := by
    rw [hplain.leaf.stripped]
    exact hplain.leaf.ne_nil
  rw [parseLine_fieldLine hplain.plain, if_pos ⟨hnamed, hne⟩, hplain.leaf.stripped]
  rfl

theorem parsedLines_printLeaves {lines : List (List Str × Str)}
    (hplain : ∀ leaf ∈ lines, PlainPath leaf)
    (hnamed : ∀ leaf ∈ lines, normalizeKey (dotted leaf.1) ≠ []) :
    parsedLines (printLeaves lines) = lines.map leafEntry := by
  induction lines with
  | nil => rfl
  | cons leaf lines ih =>
    have hleaf := hplain leaf List.mem_cons_self
    have hsingle : Text.SingleLine (fieldLine (dotted leaf.1) leaf.2) :=
      singleLine_fieldLine ⟨dotted leaf.1, leaf.2, hleaf.plain, hleaf.single, hleaf.leaf.single⟩
    have hcons : printLeaves (leaf :: lines) =
        fieldLine (dotted leaf.1) leaf.2 ++ '\n' :: printLeaves lines := by
      simp [printLeaves]
    rw [hcons, parsedLines_line hsingle, parseLine_leaf hleaf (hnamed leaf List.mem_cons_self),
      ih (fun l hl => hplain l (List.mem_cons_of_mem _ hl))
        (fun l hl => hnamed l (List.mem_cons_of_mem _ hl))]
    rfl

theorem nodup_leafEntries (o : PlainObject) :
    (((leaves o.fields).map leafEntry).map Prod.fst).Nodup := by
  rw [List.map_map]
  exact o.distinct

theorem get_normalizeFlattened_leaves (o : PlainObject) (k : Str) :
    (normalizeFlattened (flattenDict o.fields)).get k =
      Dict.get ((leaves o.fields).map leafEntry) k := by
  rw [get_normalizeFlattened, normalizedItems_flattenDict]
  exact (Dict.get_of_perm (nodup_leafEntries o) (List.reverse_perm _).symm k).symm

/-- The JSON decoder on the text of an object of strings, and the line decoder on a line for each
    of its leaves, in whatever order, give the same dictionary: each leaf under its normalised
    dotted path, and nothing else. -/
theorem decoders_agree (o : PlainObject) (loads : Str → Option Json) (raw : Str)
    (hloads : loads raw = some (.obj o.fields)) (lines : List (List Str × Str))
    (hlines : lines.Perm (leaves o.fields)) :
    flattenDict o.fields = (leaves o.fields).map (fun leaf => (dotted leaf.1, .str leaf.2)) ∧
    ∃ d, normalizeMmcliJson loads raw = some d ∧ SameDict d (parseKeyvalue (printLeaves lines)) ∧
      (∀ leaf ∈ leaves o.fields, d.get (normalizeKey (dotted leaf.1)) = some leaf.2) ∧
      ∀ k v, d.get k = some v → ∃ leaf ∈ leaves o.fields, leafEntry leaf = (k, v) := by
  refine ⟨flattenDict_eq_leaves o, normalizeFlattened (flattenDict o.fields), ?_, ?_, ?_, ?_⟩
  · rw [normalizeMmcliJson, hloads]
  · intro k
    have hplain : ∀ leaf ∈ lines, PlainPath leaf := fun leaf hleaf =>
      plainPath_leaves o.fields o.plain leaf (hlines.subset hleaf)
    have hnamed : ∀ leaf ∈ lines, normalizeKey (dotted leaf.1) ≠ [] := fun leaf hleaf =>
      o.named leaf (hlines.subset hleaf)
    calc (normalizeFlattened (flattenDict o.fields)).get k
        = Dict.get ((leaves o.fields).map leafEntry) k := get_normalizeFlattened_leaves o k
      _ = Dict.get (lines.map leafEntry) k :=
          Dict.get_of_perm (nodup_leafEntries o) (hlines.symm.map leafEntry) k
      _ = (parseKeyvalue (printLeaves lines)).get k := by
          rw [get_parseKeyvalue, parsedLines_printLeaves hplain hnamed]
  · intro leaf hleaf
    rw [get_normalizeFlattened_leaves]
    exact Dict.get_of_mem (nodup_leafEntries o) (List.mem_map_of_mem hleaf)
  · intro k v hget
    rw [get_normalizeFlattened_leaves] at hget
    exact List.mem_map.mp (Dict.mem_of_get hget)

/-- The object of a received SMS. -/
def receivedObject : PlainObject where
  fields := receivedFields "see: you".toList
  plain := by
    simp only [receivedFields, PlainFields, PlainField]
    decide +kernel
  named := by decide +kernel
  distinct := by decide +kernel

theorem decoders_agree_received :
    ∃ d, normalizeMmcliJson (loadsReceived ["see: you".toList])
        (dumps (.obj receivedObject.fields)) = some d ∧
      SameDict d (parseKeyvalue (printLeaves (leaves receivedObject.fields).reverse)) := by
  have hloads : loadsReceived ["see: you".toList] (dumps (.obj receivedObject.fields)) =
      some (.obj receivedObject.fields) := by
    simp [loadsReceived, receivedObject]
  obtain ⟨_, d, hd, hsame, _⟩ := decoders_agree receivedObject _ _ hloads
    (leaves receivedObject.fields).reverse (List.reverse_perm _)
  exact ⟨d, hd, hsame⟩

end HiWaveTel
