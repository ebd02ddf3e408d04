import Mathlib.Data.List.DropRight
import Mathlib.Data.List.Infix

/- Python text. A `str` is a list of code points; `strip` and `in` follow the documented
   behaviour of the language: `strip` removes the characters for which `str.isspace`
   holds, on both sides. -/
namespace Foundation

/-- A Python `str`. -/
abbrev Str := List Char

instance : LawfulBEq Str := inferInstance

namespace Text

/-- `str.isspace` for one character. -/
def isSpace (c : Char) : Bool :=
  let n := c.toNat
  (9 ≤ n && n ≤ 13) || (28 ≤ n && n ≤ 32) || n == 0x85 || n == 0xA0 || n == 0x1680 ||
    (0x2000 ≤ n && n ≤ 0x200A) || n == 0x2028 || n == 0x2029 || n == 0x202F || n == 0x205F ||
    n == 0x3000

/-- `str.strip()`. -/
def strip (s : Str) : Str := (s.dropWhile isSpace).rdropWhile isSpace

/-- `str(n)`. -/
def ofNat (n : Nat) : Str := Nat.toDigits 10 n

/-- `str(n)` of an `int`. -/
def ofInt : Int → Str
  | .ofNat n => ofNat n
  | .negSucc n => '-' :: ofNat (n + 1)

/-- `int(s)`, for a string of ASCII digits. -/
def toNat? (s : Str) : Option Nat :=
  if s ≠ [] ∧ s.all Char.isDigit = true then some (Nat.ofDigitChars 10 s 0) else none

/-- `needle in s`. -/
def contains (s needle : Str) : Bool := decide (needle <:+: s)

/-- A letter of a pattern under `re.IGNORECASE`; `p` is not a capital. Besides the ASCII capitals
    four letters match. -/
def matchesIgnoreCase (p c : Char) : Bool :=
  let n := c.toNat
  c == p || (p.isLower && n + 32 == p.toNat) || (p == 'i' && (n == 0x130 || n == 0x131)) ||
    (p == 's' && n == 0x17F) || (p == 'k' && n == 0x212A)

/-- What follows the literal at the front of `s`, under `re.IGNORECASE`. -/
def afterLiteral : Str → Str → Option Str
  | [], s => some s
  | _ :: _, [] => none
  | p :: literal, c :: s => if matchesIgnoreCase p c then afterLiteral literal s else none

/-- `re.search`, with the pattern given by what it matches at the front. -/
def search {α : Type} (matchFront : Str → Option α) : Str → Option α
  | [] => matchFront []
  | c :: s =>
    match matchFront (c :: s) with
    | some a => some a
    | none => search matchFront s

/-- `re.findall`, for a pattern whose matches cannot overlap. -/
def findAll {α : Type} (matchFront : Str → Option α) : Str → List α
  | [] => (matchFront []).toList
  | c :: s => (matchFront (c :: s)).toList ++ findAll matchFront s

/-- Two patterns that match at the same places. -/
theorem findAll_map {α β : Type} {f : Str → Option α} {g : Str → Option β} {p : α → β}
    (h : ∀ s, g s = (f s).map p) (s : Str) : findAll g s = (findAll f s).map p := by
  induction s with
  | nil => rw [findAll, findAll, h, Option.toList_map]
  | cons c s ih => rw [findAll, findAll, h, ih, List.map_append, Option.toList_map]

/-- Characters at which no match begins. -/
theorem findAll_append_of_none {α : Type} {f : Str → Option α} {chars : Str}
    (h : ∀ c ∈ chars, ∀ s, f (c :: s) = none) (s : Str) :
    findAll f (chars ++ s) = findAll f s := by
  induction chars with
  | nil => rfl
  | cons c chars ih =>
    obtain ⟨hc, hchars⟩ := List.forall_mem_cons.mp h
    rw [List.cons_append, findAll, hc, Option.toList_none, List.nil_append]
    exact ih hchars

/-- A match is one at the front of what is left of the text somewhere. -/
theorem exists_of_mem_findAll {α : Type} {f : Str → Option α} {a : α} {s : Str}
    (h : a ∈ findAll f s) : ∃ t, t <:+ s ∧ f t = some a := by
  induction s with
  | nil =>
    rw [findAll, Option.mem_toList] at h
    exact ⟨[], List.suffix_rfl, h⟩
  | cons c s ih =>
    rw [findAll, List.mem_append, Option.mem_toList] at h
    rcases h with hfront | hlater
    · exact ⟨c :: s, List.suffix_rfl, hfront⟩
    · obtain ⟨t, ht, hft⟩ := ih hlater
      exact ⟨t, ht.trans (List.suffix_cons c s), hft⟩

/-- The first match is the one that is found. -/
theorem search_eq_head? {α : Type} (f : Str → Option α) (s : Str) :
    search f s = (findAll f s).head? := by
  induction s with
  | nil => rw [search, findAll, Option.head?_toList]
  | cons c s ih =>
    rw [search, findAll, List.head?_append, Option.head?_toList, ← ih]
    cases f (c :: s) <;> rfl

theorem strip_length_le (s : Str) : (strip s).length ≤ s.length := by
  have hr : (strip s).length ≤ (s.dropWhile isSpace).length :=
    (List.rdropWhile_prefix isSpace _).length_le
  exact hr.trans (List.dropWhile_suffix isSpace).length_le

/-- A list that starts with a non-space keeps its head under right stripping. -/
theorem rdropWhile_cons_of_not {c : Char} {s : Str} (h : isSpace c = false) :
    ∃ t, (c :: s).rdropWhile isSpace = c :: t := by
  induction s using List.reverseRecOn with
  | nil => exact ⟨[], by simp [h]⟩
  | append_singleton s d ih =>
    rw [← List.cons_append]
    cases hd : isSpace d
    · exact ⟨s ++ [d], by rw [List.rdropWhile_concat_neg _ _ _ (by simp [hd]), List.cons_append]⟩
    · rw [List.rdropWhile_concat_pos _ _ _ (by simp [hd])]
      exact ih

@[simp] theorem strip_strip (s : Str) : strip (strip s) = strip s := by
  unfold strip
  cases h : s.dropWhile isSpace with
  | nil => simp
  | cons c t =>
    have hc : isSpace c = false := by
      have := List.head_dropWhile_not isSpace (l := s) (by simp [h])
      simpa [h] using this
    obtain ⟨u, hu⟩ := rdropWhile_cons_of_not (s := t) hc
    rw [hu, List.dropWhile_cons_of_neg (by simp [hc]), ← hu, List.rdropWhile_idempotent]

theorem infix_dropWhile {p : Char → Bool} {v s : Str} (h : v <:+: s) (hv : v.dropWhile p = v) :
    v <:+: s.dropWhile p := by
  cases v with
  | nil => exact List.nil_infix
  | cons c v =>
    have hc : ¬ p c = true := by simpa using (List.dropWhile_eq_self_iff.mp hv) (Nat.succ_pos _)
    obtain ⟨a, b, rfl⟩ := h
    induction a with
    | nil =>
      rw [List.nil_append, List.cons_append, List.dropWhile_cons_of_neg hc]
      exact ⟨[], b, by simp⟩
    | cons d a ih =>
      by_cases hd : p d = true
      · rw [List.cons_append, List.cons_append, List.dropWhile_cons_of_pos hd]
        exact ih
      · rw [List.cons_append, List.cons_append, List.dropWhile_cons_of_neg hd]
        exact ⟨d :: a, b, by simp⟩

theorem infix_rdropWhile {p : Char → Bool} {v s : Str} (h : v <:+: s) (hv : v.rdropWhile p = v) :
    v <:+: s.rdropWhile p := by
  have hrev : v.reverse.dropWhile p = v.reverse := by
    rw [← List.reverse_eq_iff]
    exact hv
  have hinfix := infix_dropWhile (List.reverse_infix.mpr h) hrev
  rw [← List.reverse_infix] at hinfix
  rwa [List.reverse_reverse] at hinfix

theorem strip_infix (s : Str) : strip s <:+: s :=
  (List.rdropWhile_prefix isSpace _).isInfix.trans (List.dropWhile_suffix isSpace).isInfix

theorem ends_of_strip {v : Str} (h : strip v = v) :
    v.dropWhile isSpace = v ∧ v.rdropWhile isSpace = v := by
  have hleft : v.dropWhile isSpace = v := by
    have hle : v.length ≤ (v.dropWhile isSpace).length := by
      have hlen := (List.rdropWhile_prefix isSpace (v.dropWhile isSpace)).length_le
      rwa [show (v.dropWhile isSpace).rdropWhile isSpace = v from h] at hlen
    exact (List.dropWhile_suffix isSpace).eq_of_length_le hle
  refine ⟨hleft, ?_⟩
  rw [strip, hleft] at h
  exact h

theorem rdropWhile_append_cons {p : Char → Bool} (a : Str) {c : Char} (h : p c = false) (b : Str) :
    (a ++ c :: b).rdropWhile p = a ++ c :: b.rdropWhile p := by
  induction b using List.reverseRecOn with
  | nil => rw [List.rdropWhile_concat_neg _ _ _ (by simp [h]), List.rdropWhile_nil]
  | append_singleton b d ih =>
    rw [← List.cons_append, ← List.append_assoc]
    by_cases hd : p d = true
    · rw [List.rdropWhile_concat_pos _ _ _ hd, List.rdropWhile_concat_pos _ _ _ hd, ih]
    · rw [List.rdropWhile_concat_neg _ _ _ hd, List.rdropWhile_concat_neg _ _ _ hd,
        List.append_assoc]
      rfl

/-- A text with a character that stays, stripped on both sides of it. -/
theorem strip_append_cons (a : Str) {c : Char} (h : isSpace c = false) (b : Str) :
    strip (a ++ c :: b) = a.dropWhile isSpace ++ c :: b.rdropWhile isSpace := by
  have hleft : (a ++ c :: b).dropWhile isSpace = a.dropWhile isSpace ++ c :: b := by
    induction a with
    | nil => exact List.dropWhile_cons_of_neg (by simp [h])
    | cons d a ih =>
      by_cases hd : isSpace d = true
      · rw [List.cons_append, List.dropWhile_cons_of_pos hd, List.dropWhile_cons_of_pos hd, ih]
      · rw [List.cons_append, List.dropWhile_cons_of_neg hd, List.dropWhile_cons_of_neg hd,
          List.cons_append]
  rw [strip, hleft, rdropWhile_append_cons _ h]

theorem strip_rdropWhile (s : Str) : strip (s.rdropWhile isSpace) = strip s := by
  cases hs : s.dropWhile isSpace with
  | nil =>
    -- nothing but spaces
    have hall : ∀ c ∈ s, isSpace c = true := List.dropWhile_eq_nil_iff.mp hs
    rw [List.rdropWhile_eq_nil_iff.mpr hall, strip, strip, hs]
    rfl
  | cons c t =>
    have hc : isSpace c = false := by
      have hnot := List.head_dropWhile_not isSpace (l := s) (by simp [hs])
      simpa [hs] using hnot
    have hsplit : s = s.takeWhile isSpace ++ c :: t := by
      rw [← hs, List.takeWhile_append_dropWhile]
    rw [hsplit, rdropWhile_append_cons _ hc, strip_append_cons _ hc, strip_append_cons _ hc,
      List.rdropWhile_idempotent]

theorem strip_cons_space {c : Char} (h : isSpace c = true) (s : Str) : strip (c :: s) = strip s := by
  rw [strip, strip, List.dropWhile_cons_of_pos h]

theorem strip_append_space {c : Char} (h : isSpace c = true) (s : Str) :
    strip (s ++ [c]) = strip s := by
  rw [← strip_rdropWhile (s ++ [c]), List.rdropWhile_concat_pos _ _ _ h, strip_rdropWhile]

/-- A stripped part of a text is part of it when stripped. -/
theorem infix_strip {v s : Str} (h : v <:+: s) (hv : strip v = v) : v <:+: strip s := by
  obtain ⟨hleft, hright⟩ := ends_of_strip hv
  exact infix_rdropWhile (infix_dropWhile h hleft) hright

/-- Text without spaces. -/
theorem strip_eq_self {s : Str} (h : ∀ c ∈ s, isSpace c = false) : strip s = s := by
  have hleft : s.dropWhile isSpace = s := by
    rw [List.dropWhile_eq_self_iff]
    intro hlen
    rw [h _ (List.getElem_mem _)]
    exact Bool.noConfusion
  have hright : s.rdropWhile isSpace = s := by
    rw [List.rdropWhile_eq_self_iff]
    intro hne
    rw [h _ (List.getLast_mem hne)]
    exact Bool.noConfusion
  rw [strip, hleft, hright]

@[simp] theorem toNat?_ofNat (n : Nat) : toNat? (ofNat n) = some n := by
  have hdigits : (ofNat n).all Char.isDigit = true :=
    List.all_eq_true.mpr (fun c hc => Nat.isDigit_of_mem_toDigits (by decide) (by decide) hc)
  unfold toNat?
  rw [if_pos ⟨Nat.toDigits_ne_nil, hdigits⟩, ofNat, Nat.ofDigitChars_ten_toDigits]

theorem ofNat_injective {m n : Nat} (h : ofNat m = ofNat n) : m = n := by
  have heq : some m = some n := by rw [← toNat?_ofNat m, ← toNat?_ofNat n, h]
  exact Option.some.inj heq

theorem isDigit_eq_digitChar {c : Char} (h : c.isDigit = true) :
    ∃ d, d < 10 ∧ c = Nat.digitChar d := by
  have hrange : 48 ≤ c.toNat ∧ c.toNat ≤ 57 := by
    simpa [Char.isDigit, UInt32.le_iff_toNat_le] using h
  refine ⟨c.toNat - 48, by omega, ?_⟩
  apply Char.toNat_inj.mp
  rw [Nat.toNat_digitChar_of_lt_ten (by omega)]
  omega

/-- A numeral ends with the number as it is printed: before it are zeros only. -/
theorem ofNat_suffix {s : Str} {n : Nat} (h : toNat? s = some n) : ofNat n <:+ s := by
  have hnumeral : ∀ s : Str, s ≠ [] → s.all Char.isDigit = true →
      ofNat (Nat.ofDigitChars 10 s 0) <:+ s := by
    intro s
    induction s using List.reverseRecOn with
    | nil => exact fun hne _ => absurd rfl hne
    | append_singleton s c ih =>
      intro _ hdigits
      rw [List.all_append, Bool.and_eq_true, List.all_cons, List.all_nil, Bool.and_true] at hdigits
      obtain ⟨d, hd, rfl⟩ := isDigit_eq_digitChar hdigits.2
      rw [Nat.ofDigitChars_append, Nat.ofDigitChars_cons_digitChar_of_lt_ten hd,
        Nat.ofDigitChars_nil]
      rcases Nat.eq_zero_or_pos (Nat.ofDigitChars 10 s 0) with hzero | hpos
      · rw [hzero, Nat.mul_zero, Nat.zero_add, ofNat, Nat.toDigits_of_lt_base hd]
        exact List.suffix_append s _
      · have hne : s ≠ [] := by
          rintro rfl
          exact absurd hpos (by simp)
        have hlast : ofNat (10 * Nat.ofDigitChars 10 s 0 + d) =
            ofNat (Nat.ofDigitChars 10 s 0) ++ [Nat.digitChar d] := by
          rw [ofNat, ofNat, ← Nat.toDigits_append_toDigits (by decide) hpos hd,
            Nat.toDigits_of_lt_base hd]
        rw [hlast, List.suffix_append_inj_of_length_eq rfl]
        exact ⟨ih hne hdigits.1, rfl⟩
  unfold toNat? at h
  split at h
  · next hs =>
    cases h
    exact hnumeral s hs.1 hs.2
  · cases h

end Text

end Foundation
