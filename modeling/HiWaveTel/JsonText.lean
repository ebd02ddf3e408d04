import HiWaveTel.MmcliOutput
import HiWaveTel.Foundation.Reader

/- JSON as text: what `json.loads` reads, for one of the texts that `json.dumps(...,
   ensure_ascii=False)` writes. The details of an SMS or a modem come out of such a text, and a
   list among them goes back into one (`_normalize_mmcli_json`).

   `json_settles` — whatever text is read, the value that comes out of it is written as a text
   that is read as the same value, and so is each list that the details keep.

   Not in the model: a lone surrogate in an escape, which `Char` does not have (it is not
   read here), and the depth at which the interpreter refuses to recurse. -/
namespace HiWaveTel
open Foundation

/-! ## json.loads -/

/-- `WHITESPACE`. -/
def isJsonSpace (c : Char) : Bool := c == ' ' || c == '\t' || c == '\n' || c == '\r'

def skipSpace : Reader Char Str := Reader.takeWhile isJsonSpace

def hexValue (c : Char) : Option Nat :=
  if c.isDigit then some (c.toNat - 48)
  else if 'a' ≤ c ∧ c ≤ 'f' then some (c.toNat - 87)
  else if 'A' ≤ c ∧ c ≤ 'F' then some (c.toNat - 55)
  else none

def readHex : Reader Char Nat := do
  let c ← Reader.next
  match hexValue c with
  | some n => pure n
  | none => Reader.fail

/-- The four digits after `\u`. -/
def readUnit : Reader Char Nat := do
  let a ← readHex
  let b ← readHex
  let c ← readHex
  let d ← readHex
  pure (((a * 16 + b) * 16 + c) * 16 + d)

def isHighSurrogate (unit : Nat) : Bool := decide (0xD800 ≤ unit ∧ unit ≤ 0xDBFF)

def isLowSurrogate (unit : Nat) : Bool := decide (0xDC00 ≤ unit ∧ unit ≤ 0xDFFF)

/-- After `\u`; two surrogates are one character. -/
def readUnicode : Reader Char Char := do
  let unit ← readUnit
  if isHighSurrogate unit then do
    let _ ← Reader.literal "\\u".toList
    let low ← readUnit
    if isLowSurrogate low then
      pure (Char.ofNat (0x10000 + (unit - 0xD800) * 0x400 + (low - 0xDC00)))
    else Reader.fail
  else if isLowSurrogate unit then Reader.fail
  else pure (Char.ofNat unit)

/-- After a backslash. -/
def readEscape : Reader Char Char := do
  let c ← Reader.next
  if c = '"' ∨ c = '\\' ∨ c = '/' then pure c
  else if c = 'n' then pure '\n'
  else if c = 'r' then pure '\r'
  else if c = 't' then pure '\t'
  else if c = 'b' then pure (Char.ofNat 8)
  else if c = 'f' then pure (Char.ofNat 12)
  else if c = 'u' then readUnicode
  else Reader.fail

/-- One round of `scanstring`; a control character is refused (`strict`). -/
def charsStep (chars : Reader Char Str) : Reader Char Str := do
  let c ← Reader.next
  if c = '"' then pure []
  else if c = '\\' then do
    let e ← readEscape
    let s ← chars
    pure (e :: s)
  else if c.toNat < 32 then Reader.fail
  else do
    let s ← chars
    pure (c :: s)

/-- `scanstring`, after the quote. -/
def readChars : Reader Char Str := Reader.fix charsStep

/-- What `NUMBER_RE` takes apart. -/
structure NumberParts where
  sign : Str
  int : Str
  frac : Str
  exp : Str

namespace NumberParts

def text (p : NumberParts) : Str := p.sign ++ (p.int ++ (p.frac ++ p.exp))

def isFloat (p : NumberParts) : Bool := p.frac != [] || p.exp != []

end NumberParts

/-- One or more. -/
def readDigits : Reader Char Str := do
  let digits ← Reader.takeWhile Char.isDigit
  if digits = [] then Reader.fail else pure digits

/-- No digit comes after a leading zero. -/
def readInt : Reader Char Str := do
  let c ← Reader.next
  if c = '0' then pure ['0']
  else if c.isDigit then do
    let digits ← Reader.takeWhile Char.isDigit
    pure (c :: digits)
  else Reader.fail

def readFrac : Reader Char Str := do
  let _ ← Reader.literal ['.']
  let digits ← readDigits
  pure ('.' :: digits)

def readExpSign : Reader Char Str := Reader.orElse (Reader.literal ['+']) (Reader.literal ['-'])

def readExp : Reader Char Str := do
  let e ← Reader.next
  if e = 'e' ∨ e = 'E' then do
    let sign ← Reader.optional readExpSign
    let digits ← readDigits
    pure (e :: (sign ++ digits))
  else Reader.fail

/-- `_match_number`. -/
def readParts : Reader Char NumberParts := do
  let sign ← Reader.optional (Reader.literal ['-'])
  let int ← readInt
  let frac ← Reader.optional readFrac
  let exp ← Reader.optional readExp
  pure ⟨sign, int, frac, exp⟩

/-- The constants and what is read for them. -/
def jsonConstants : List (Str × Json) :=
  [("null".toList, .null), ("true".toList, .bool true), ("false".toList, .bool false),
    ("NaN".toList, .num "nan".toList), ("Infinity".toList, .num "inf".toList),
    ("-Infinity".toList, .num "-inf".toList)]

def readConstant : List (Str × Json) → Reader Char Json
  | [] => Reader.fail
  | (word, v) :: rest =>
    Reader.orElse (do let _ ← Reader.literal word; pure v) (readConstant rest)

/-- After an item: its separator, or the end. -/
def readMore (close : Char) : Reader Char Bool := do
  let _ ← skipSpace
  let c ← Reader.next
  if c = close then pure false
  else if c = ',' then do
    let _ ← skipSpace
    pure true
  else Reader.fail

/-- After the opening bracket. -/
def readItems {α : Type} (item : Reader Char α) (close : Char) : Reader Char (List α) := do
  let _ ← skipSpace
  Reader.orElse (do let _ ← Reader.literal [close]; pure []) (Reader.items item (readMore close))

def readField (value : Reader Char Json) : Reader Char (Str × Json) := do
  let _ ← Reader.literal ['"']
  let k ← readChars
  let _ ← skipSpace
  let _ ← Reader.literal [':']
  let _ ← skipSpace
  let v ← value
  pure (k, v)

/-- A string, an array or an object. -/
def readBracketed (value : Reader Char Json) : Reader Char Json := do
  let c ← Reader.next
  if c = '"' then do
    let s ← readChars
    pure (.str s)
  else if c = '[' then do
    let items ← readItems value ']'
    pure (.arr items)
  else if c = '\x7b' then do
    let fields ← readItems (readField value) '\x7d'
    pure (.obj (Dict.ofItems fields))
  else Reader.fail

section Loads
variable (floatText : Str → Str)     -- `repr(float(text))`

/-- `int` or `float` of it, as `str` gives it; `int` refuses more than 4300 digits. -/
def numberText (p : NumberParts) : Option Str :=
  if p.isFloat then some (floatText p.text)
  else if 4300 < p.int.length then none
  else some (if p.int = ['0'] then ['0'] else p.text)

def readNumber : Reader Char Json := do
  let p ← readParts
  match numberText floatText p with
  | some text => pure (.num text)
  | none => Reader.fail

/-- One round of `scan_once`. -/
def valueStep (value : Reader Char Json) : Reader Char Json :=
  Reader.orElse (readBracketed value)
    (Reader.orElse (readConstant jsonConstants) (readNumber floatText))

/-- `scan_once`. -/
def readValue : Reader Char Json := Reader.fix (valueStep floatText)

def readDocument : Reader Char Json := do
  let _ ← skipSpace
  let v ← readValue floatText
  let _ ← skipSpace
  pure v

/-- `json.loads`; `none` is its `ValueError`. No value begins with a byte order mark. -/
def loads (s : Str) : Option Json :=
  match readDocument floatText s with
  | some (v, []) => some v
  | _ => none

end Loads

/-! ## Strings -/

theorem shrinks_readHex : Reader.Shrinks readHex := by
  refine Reader.shrinks_bind Reader.shrinks_next (fun c => ?_)
  cases hexValue c with
  | none => exact Reader.shrinks_fail.keeps
  | some n => exact Reader.keeps_pure n

theorem keeps_readUnit : Reader.Keeps readUnit := by
  have hhex := shrinks_readHex.keeps
  refine Reader.keeps_bind hhex (fun a => Reader.keeps_bind hhex (fun b => ?_))
  refine Reader.keeps_bind hhex (fun c => Reader.keeps_bind hhex (fun d => ?_))
  exact Reader.keeps_pure _

theorem keeps_readUnicode : Reader.Keeps readUnicode := by
  refine Reader.keeps_bind keeps_readUnit (fun unit => ?_)
  refine Reader.keeps_ite ?_ (Reader.keeps_ite Reader.shrinks_fail.keeps (Reader.keeps_pure _))
  refine Reader.keeps_bind (Reader.keeps_literal _) (fun _ => ?_)
  refine Reader.keeps_bind keeps_readUnit (fun low => ?_)
  exact Reader.keeps_ite (Reader.keeps_pure _) Reader.shrinks_fail.keeps

theorem keeps_readEscape : Reader.Keeps readEscape := by
  refine Reader.keeps_bind Reader.shrinks_next.keeps (fun c => ?_)
  refine Reader.keeps_ite (Reader.keeps_pure _) (Reader.keeps_ite (Reader.keeps_pure _) ?_)
  refine Reader.keeps_ite (Reader.keeps_pure _) (Reader.keeps_ite (Reader.keeps_pure _) ?_)
  refine Reader.keeps_ite (Reader.keeps_pure _) (Reader.keeps_ite (Reader.keeps_pure _) ?_)
  exact Reader.keeps_ite keeps_readUnicode Reader.shrinks_fail.keeps

theorem productive_charsStep : Reader.Productive charsStep where
  shrinks chars hchars := by
    refine Reader.shrinks_bind Reader.shrinks_next (fun c => ?_)
    -- the branches that go on with the string, after at least one character
    have hcons : ∀ d : Char, Reader.Keeps (do let s ← chars; pure (d :: s)) :=
      fun d => Reader.keeps_bind hchars.keeps (fun s => Reader.keeps_pure (d :: s))
    refine Reader.keeps_ite (Reader.keeps_pure []) (Reader.keeps_ite ?_ ?_)
    · exact Reader.keeps_bind keeps_readEscape hcons
    · exact Reader.keeps_ite Reader.shrinks_fail.keeps (hcons c)
  agree n p q hp _ hpq := by
    refine Reader.agree_after Reader.shrinks_next (fun c => ?_)
    have hcons : ∀ d : Char, Reader.AgreeBelow n (do let s ← p; pure (d :: s))
        (do let s ← q; pure (d :: s)) :=
      fun d => Reader.agree_bind hp.keeps hpq (fun s => Reader.agree_refl n _)
    refine Reader.agree_ite (Reader.agree_refl n _) (Reader.agree_ite ?_ ?_)
    · exact Reader.agree_bind keeps_readEscape (Reader.agree_refl n _) hcons
    · exact Reader.agree_ite (Reader.agree_refl n _) (hcons c)

theorem readChars_eq : readChars = charsStep readChars := Reader.fix_eq productive_charsStep

theorem shrinks_readChars : Reader.Shrinks readChars := Reader.shrinks_fix productive_charsStep

theorem hexValue_digitChar : ∀ d < 16, hexValue (Nat.digitChar d) = some d := by decide

theorem reads_readHex {d : Nat} (hd : d < 16) :
    Reader.Reads readHex [Nat.digitChar d] d fun _ => True := by
  refine Reader.reads_map (Reader.reads_next _) (fun s => ?_)
  rw [hexValue_digitChar d hd]
  rfl

theorem reads_readUnit {a b c d : Nat} (ha : a < 16) (hb : b < 16) (hc : c < 16) (hd : d < 16) :
    Reader.Reads readUnit [Nat.digitChar a, Nat.digitChar b, Nat.digitChar c, Nat.digitChar d]
      (((a * 16 + b) * 16 + c) * 16 + d) fun _ => True := by
  refine Reader.reads_seq (reads_readHex ha) (Reader.reads_seq (reads_readHex hb) ?_)
  refine Reader.reads_seq (reads_readHex hc) (Reader.reads_map (reads_readHex hd) ?_)
  exact fun s => rfl

/-- A control character as `\u00XY`. -/
theorem reads_readUnicode {c : Char} (hc : c.toNat < 32) :
    Reader.Reads readUnicode
      ['0', '0', Nat.digitChar (c.toNat / 16), Nat.digitChar (c.toNat % 16)] c fun _ => True := by
  have hunit : Reader.Reads readUnit
      ['0', '0', Nat.digitChar (c.toNat / 16), Nat.digitChar (c.toNat % 16)] c.toNat
      fun _ => True := by
    have hread := reads_readUnit (a := 0) (b := 0) (c := c.toNat / 16) (d := c.toNat % 16)
      (by decide) (by decide) (by omega) (by omega)
    have hsum : ((0 * 16 + 0) * 16 + c.toNat / 16) * 16 + c.toNat % 16 = c.toNat := by omega
    rwa [hsum] at hread
  refine Reader.reads_map hunit (fun s => ?_)
  have hhigh : isHighSurrogate c.toNat = false := decide_eq_false (by omega)
  have hlow : isLowSurrogate c.toNat = false := decide_eq_false (by omega)
  rw [hhigh, hlow, Char.ofNat_toNat]
  rfl

/-- A character stands for itself, or it is escaped. -/
theorem escapeJsonChar_cases (c : Char) :
    (escapeJsonChar c = [c] ∧ c ≠ '"' ∧ c ≠ '\\' ∧ ¬ c.toNat < 32) ∨
    ∃ e, escapeJsonChar c = '\\' :: e ∧ Reader.Reads readEscape e c fun _ => True := by
  unfold escapeJsonChar
  split_ifs with hquote hback hn hr ht hb hf hctl
  · subst hquote
    exact Or.inr ⟨['"'], rfl, fun _ _ => rfl⟩
  · subst hback
    exact Or.inr ⟨['\\'], rfl, fun _ _ => rfl⟩
  · exact Or.inr ⟨['n'], rfl, fun _ _ => hn ▸ rfl⟩
  · exact Or.inr ⟨['r'], rfl, fun _ _ => hr ▸ rfl⟩
  · exact Or.inr ⟨['t'], rfl, fun _ _ => ht ▸ rfl⟩
  · refine Or.inr ⟨['b'], rfl, fun _ _ => ?_⟩
    rw [← Char.ofNat_toNat c, hb]
    rfl
  · refine Or.inr ⟨['f'], rfl, fun _ _ => ?_⟩
    rw [← Char.ofNat_toNat c, hf]
    rfl
  · refine Or.inr ⟨'u' :: ['0', '0', Nat.digitChar (c.toNat / 16), Nat.digitChar (c.toNat % 16)],
      rfl, ?_⟩
    exact Reader.reads_seq (Reader.reads_next 'u') (reads_readUnicode hctl)
  · exact Or.inl ⟨rfl, hquote, hback, hctl⟩

/-- What is written of a string is read as the string. -/
theorem reads_readChars (s : Str) :
    Reader.Reads readChars (s.flatMap escapeJsonChar ++ ['"']) s fun _ => True := by
  induction s with
  | nil =>
    rw [readChars_eq]
    exact Reader.reads_map (Reader.reads_next '"') (fun _ => rfl)
  | cons c s ih =>
    have htail : Reader.Reads (do let t ← readChars; pure (c :: t))
        (s.flatMap escapeJsonChar ++ ['"']) (c :: s) fun _ => True :=
      Reader.reads_map ih (fun _ => rfl)
    rw [List.flatMap_cons, List.append_assoc, readChars_eq]
    cases escapeJsonChar_cases c with
    | inl hplain =>
      obtain ⟨hself, hquote, hback, hctl⟩ := hplain
      rw [hself]
      -- `c` is no quote, no backslash and no control character, so it is taken as it is
      refine Reader.reads_seq (Reader.reads_next c) ?_
      rw [if_neg hquote, if_neg hback, if_neg hctl]
      exact htail
    | inr hescaped =>
      obtain ⟨e, he, hread⟩ := hescaped
      rw [he]
      show Reader.Reads _ (['\\'] ++ (e ++ (s.flatMap escapeJsonChar ++ ['"']))) _ _
      -- the escape after the backslash gives `c`, then the string goes on
      refine Reader.reads_seq (Reader.reads_next '\\') ?_
      rw [if_neg (by decide), if_pos rfl]
      exact Reader.reads_seq hread htail

/-! ## Numbers -/

/-- What may not follow a number that ends here. -/
def isNumberChar (c : Char) : Bool := c.isDigit || c == '.' || c == 'e' || c == 'E'

def NumberEnds : Str → Prop := Reader.HeadNot isNumberChar

def AllDigits (ds : Str) : Prop := ∀ c ∈ ds, c.isDigit = true

/-- The parts as `NUMBER_RE` takes them. -/
structure NumberParts.Shaped (p : NumberParts) : Prop where
  sign : p.sign = [] ∨ p.sign = ['-']
  int : p.int = ['0'] ∨ ∃ d ds, p.int = d :: ds ∧ d ≠ '0' ∧ AllDigits p.int
  frac : p.frac = [] ∨ ∃ ds, p.frac = '.' :: ds ∧ ds ≠ [] ∧ AllDigits ds
  exp : p.exp = [] ∨ ∃ e sign ds, p.exp = e :: (sign ++ ds) ∧ (e = 'e' ∨ e = 'E') ∧
    (sign = [] ∨ sign = ['+'] ∨ sign = ['-']) ∧ ds ≠ [] ∧ AllDigits ds

theorem isDigit_ne {c d : Char} (hc : c.isDigit = true) (hd : d.isDigit = false) : c ≠ d := by
  intro heq
  rw [heq, hd] at hc
  cases hc

theorem reads_readDigits {ds : Str} (hne : ds ≠ []) (h : AllDigits ds) :
    Reader.Reads readDigits ds ds (Reader.HeadNot Char.isDigit) := by
  refine Reader.reads_map (Reader.reads_takeWhile h) (fun s => ?_)
  rw [if_neg hne]
  rfl

namespace NumberParts.Shaped
variable {p : NumberParts} (h : p.Shaped)
include h

theorem int_head : ∃ d ds, p.int = d :: ds ∧ d.isDigit = true := by
  cases h.int with
  | inl hzero => exact ⟨'0', [], hzero, rfl⟩
  | inr hint =>
    obtain ⟨d, ds, hint, _, hdigits⟩ := hint
    exact ⟨d, ds, hint, hdigits d (hint ▸ List.mem_cons_self)⟩

theorem reads_sign : Reader.Reads (Reader.optional (Reader.literal ['-'])) p.sign p.sign
    (fun rest => rest.head? ≠ some '-') := by
  cases h.sign with
  | inl hnil =>
    rw [hnil]
    exact Reader.reads_absent (fun rest hrest => Reader.literal_fail hrest)
  | inr hminus =>
    rw [hminus]
    exact Reader.reads_orElse ((Reader.reads_literal ['-']).weaken (fun _ _ => trivial))

theorem reads_int : Reader.Reads readInt p.int p.int (Reader.HeadNot Char.isDigit) := by
  cases h.int with
  | inl hzero =>
    rw [hzero]
    exact fun rest _ => rfl
  | inr hint =>
    obtain ⟨d, ds, hint, hne, hdigits⟩ := hint
    rw [hint] at hdigits ⊢
    have hd : d.isDigit = true := hdigits d List.mem_cons_self
    have hds : AllDigits ds := fun c hc => hdigits c (List.mem_cons_of_mem d hc)
    show Reader.Reads readInt ([d] ++ ds) (d :: ds) _
    refine Reader.reads_seq (Reader.reads_next d) ?_
    rw [if_neg hne, if_pos hd]
    exact Reader.reads_map (Reader.reads_takeWhile hds) (fun _ => rfl)

theorem reads_frac : Reader.Reads (Reader.optional readFrac) p.frac p.frac
    (Reader.HeadNot fun c => c.isDigit || c == '.') := by
  cases h.frac with
  | inl hnil =>
    rw [hnil]
    refine Reader.reads_absent (fun rest hrest => Reader.bind_fail (Reader.literal_fail ?_))
    intro hdot
    exact absurd (hrest '.' hdot) (by decide)
  | inr hfrac =>
    obtain ⟨ds, hfrac, hne, hdigits⟩ := hfrac
    rw [hfrac]
    have hread : Reader.Reads readFrac (['.'] ++ ds) ('.' :: ds) (Reader.HeadNot Char.isDigit) :=
      Reader.reads_seq (Reader.reads_literal ['.'])
        (Reader.reads_map (reads_readDigits hne hdigits) (fun _ => rfl))
    refine Reader.reads_orElse (hread.weaken (fun rest hrest c hc => ?_))
    exact (Bool.or_eq_false_iff.mp (hrest c hc)).1

theorem reads_exp : Reader.Reads (Reader.optional readExp) p.exp p.exp NumberEnds := by
  cases h.exp with
  | inl hnil =>
    rw [hnil]
    refine Reader.reads_absent (fun rest hrest => ?_)
    cases rest with
    | nil => rfl
    | cons c rest =>
      have hc := Reader.headNot_cons.mp hrest
      simp only [isNumberChar, Bool.or_eq_false_iff, beq_eq_false_iff_ne] at hc
      show (if c = 'e' ∨ c = 'E' then _ else Reader.fail : Reader Char Str) rest = none
      rw [if_neg (not_or.mpr ⟨hc.1.2, hc.2⟩)]
      rfl
  | inr hexp =>
    obtain ⟨e, sign, ds, hexp, he, hsign, hne, hdigits⟩ := hexp
    rw [hexp]
    have hreadSign : Reader.Reads (Reader.optional readExpSign) sign sign
        (fun rest => rest.head? ≠ some '+' ∧ rest.head? ≠ some '-') := by
      obtain rfl | rfl | rfl := hsign
      · refine Reader.reads_absent (fun rest hrest => ?_)
        exact Reader.orElse_fail (Reader.literal_fail hrest.1) (Reader.literal_fail hrest.2)
      · exact fun rest _ => rfl
      · exact fun rest _ => rfl
    have hread : Reader.Reads readExp ([e] ++ (sign ++ ds)) (e :: (sign ++ ds))
        (Reader.HeadNot Char.isDigit) := by
      refine Reader.reads_seq (Reader.reads_next e) ?_
      rw [if_pos he]
      -- a digit comes after the sign, so no second sign is taken
      refine Reader.reads_bind hreadSign
        (Reader.reads_map (reads_readDigits hne hdigits) (fun _ => rfl)) (fun rest _ => ?_)
      obtain ⟨d, ds', rfl⟩ := List.exists_cons_of_ne_nil hne
      have hd : d.isDigit = true := hdigits d List.mem_cons_self
      exact ⟨fun hplus => isDigit_ne hd (by decide) (Option.some.inj hplus),
        fun hminus => isDigit_ne hd (by decide) (Option.some.inj hminus)⟩
    refine Reader.reads_orElse (hread.weaken (fun rest hrest c hc => ?_))
    have hkind := hrest c hc
    simp only [isNumberChar, Bool.or_eq_false_iff] at hkind
    exact hkind.1.1.1

/-- An exponent, and what may follow it, goes on no digits and no fraction. -/
theorem after_frac {rest : Str} (hrest : NumberEnds rest) :
    Reader.HeadNot (fun c => c.isDigit || c == '.') (p.exp ++ rest) := by
  cases h.exp with
  | inl hnil =>
    rw [hnil]
    intro c hc
    have hkind := hrest c hc
    simp only [isNumberChar, Bool.or_eq_false_iff] at hkind ⊢
    exact hkind.1.1
  | inr hexp =>
    obtain ⟨e, sign, ds, hexp, he, _⟩ := hexp
    rw [hexp]
    apply Reader.headNot_cons.mpr
    cases he with
    | inl he => rw [he]; rfl
    | inr he => rw [he]; rfl

theorem after_int {rest : Str} (hrest : NumberEnds rest) :
    Reader.HeadNot Char.isDigit (p.frac ++ p.exp ++ rest) := by
  cases h.frac with
  | inl hnil =>
    rw [hnil]
    exact fun c hc => (Bool.or_eq_false_iff.mp (h.after_frac hrest c hc)).1
  | inr hfrac =>
    obtain ⟨ds, hfrac, _⟩ := hfrac
    rw [hfrac]
    exact Reader.headNot_cons.mpr rfl

/-- The parts are read back off their text. -/
theorem reads_parts : Reader.Reads readParts p.text p NumberEnds := by
  refine Reader.reads_bind h.reads_sign (Reader.reads_bind h.reads_int
    (Reader.reads_bind h.reads_frac (Reader.reads_map h.reads_exp (fun _ => rfl))
      (fun rest hrest => h.after_frac hrest)) (fun rest hrest => h.after_int hrest)) ?_
  -- an absent sign is not taken for one: the integer begins with a digit
  intro rest _ hminus
  obtain ⟨d, ds, hint, hd⟩ := h.int_head
  rw [hint] at hminus
  exact isDigit_ne hd (by decide) (Option.some.inj hminus)

end NumberParts.Shaped

theorem yields_readDigits : Reader.Yields readDigits fun ds => ds ≠ [] ∧ AllDigits ds := by
  refine Reader.yields_bind (Reader.yields_takeWhile Char.isDigit) (fun ds hds => ?_)
  exact Reader.yields_ite (fun _ => Reader.yields_fail) (fun hne => Reader.yields_pure ⟨hne, hds⟩)

theorem yields_readParts : Reader.Yields readParts NumberParts.Shaped := by
  have hsign : Reader.Yields (Reader.optional (Reader.literal ['-']))
      fun sign => sign = [] ∨ sign = ['-'] :=
    Reader.yields_optional (fun s u rest h => Or.inr (Reader.yields_literal _ s u rest h))
      (Or.inl rfl)
  have hint : Reader.Yields readInt
      fun int => int = ['0'] ∨ ∃ d ds, int = d :: ds ∧ d ≠ '0' ∧ AllDigits int := by
    refine Reader.yields_bind (Reader.yields_true _) (fun c _ => ?_)
    refine Reader.yields_ite (fun _ => Reader.yields_pure (Or.inl rfl)) (fun hne => ?_)
    refine Reader.yields_ite (fun hc => ?_) (fun _ => Reader.yields_fail)
    refine Reader.yields_bind (Reader.yields_takeWhile _) (fun ds hds => Reader.yields_pure ?_)
    exact Or.inr ⟨c, ds, rfl, hne, List.forall_mem_cons.mpr ⟨hc, hds⟩⟩
  have hfrac : Reader.Yields (Reader.optional readFrac)
      fun frac => frac = [] ∨ ∃ ds, frac = '.' :: ds ∧ ds ≠ [] ∧ AllDigits ds := by
    refine Reader.yields_optional ?_ (Or.inl rfl)
    refine Reader.yields_bind (Reader.yields_true _) (fun _ _ => ?_)
    refine Reader.yields_bind yields_readDigits (fun ds hds => Reader.yields_pure ?_)
    exact Or.inr ⟨ds, rfl, hds⟩
  have hexpSign : Reader.Yields (Reader.optional readExpSign)
      fun sign => sign = [] ∨ sign = ['+'] ∨ sign = ['-'] := by
    refine Reader.yields_optional (Reader.yields_orElse ?_ ?_) (Or.inl rfl)
    · exact fun s u rest h => Or.inr (Or.inl (Reader.yields_literal _ s u rest h))
    · exact fun s u rest h => Or.inr (Or.inr (Reader.yields_literal _ s u rest h))
  have hexp : Reader.Yields (Reader.optional readExp)
      fun exp => exp = [] ∨ ∃ e sign ds, exp = e :: (sign ++ ds) ∧ (e = 'e' ∨ e = 'E') ∧
        (sign = [] ∨ sign = ['+'] ∨ sign = ['-']) ∧ ds ≠ [] ∧ AllDigits ds := by
    refine Reader.yields_optional ?_ (Or.inl rfl)
    refine Reader.yields_bind (Reader.yields_true _) (fun e _ => ?_)
    refine Reader.yields_ite (fun he => ?_) (fun _ => Reader.yields_fail)
    refine Reader.yields_bind hexpSign (fun sign hsign => ?_)
    refine Reader.yields_bind yields_readDigits (fun ds hds => Reader.yields_pure ?_)
    exact Or.inr ⟨e, sign, ds, rfl, he, hsign, hds⟩
  refine Reader.yields_bind hsign (fun sign hs => Reader.yields_bind hint (fun int hi => ?_))
  refine Reader.yields_bind hfrac (fun frac hf => Reader.yields_bind hexp (fun exp he => ?_))
  exact Reader.yields_pure ⟨hs, hi, hf, he⟩

/-! ## Items -/

theorem keeps_readMore (close : Char) : Reader.Keeps (readMore close) := by
  refine Reader.keeps_bind (Reader.keeps_takeWhile _) (fun _ => ?_)
  refine Reader.keeps_bind Reader.shrinks_next.keeps (fun c => ?_)
  refine Reader.keeps_ite (Reader.keeps_pure _) (Reader.keeps_ite ?_ Reader.shrinks_fail.keeps)
  exact Reader.keeps_bind (Reader.keeps_takeWhile _) (fun _ => Reader.keeps_pure _)

section Items
variable {α : Type} {item item' : Reader Char α} {close : Char}

theorem keeps_readItems (h : Reader.Shrinks item) : Reader.Keeps (readItems item close) := by
  refine Reader.keeps_bind (Reader.keeps_takeWhile _) (fun _ => Reader.keeps_orElse ?_ ?_)
  · exact Reader.keeps_bind (Reader.keeps_literal _) (fun _ => Reader.keeps_pure [])
  · exact (Reader.shrinks_items h (keeps_readMore close)).keeps

theorem agree_readItems {n : Nat} (h : Reader.Shrinks item) (h' : Reader.Shrinks item')
    (hagree : Reader.AgreeBelow n item item') :
    Reader.AgreeBelow n (readItems item close) (readItems item' close) := by
  refine Reader.agree_bind (Reader.keeps_takeWhile _) (Reader.agree_refl n _) (fun _ => ?_)
  exact Reader.agree_orElse (Reader.agree_refl n _)
    (Reader.agree_items h h' (keeps_readMore close) hagree)

theorem yields_readItems {P : α → Prop} (h : Reader.Yields item P) :
    Reader.Yields (readItems item close) fun as => ∀ a ∈ as, P a := by
  refine Reader.yields_bind (Reader.yields_true _) (fun _ _ => ?_)
  refine Reader.yields_orElse ?_ (Reader.yields_items h)
  exact Reader.yields_bind (Reader.yields_true _)
    (fun _ _ => Reader.yields_pure (fun a ha => absurd ha List.not_mem_nil))

theorem reads_skipSpace : Reader.Reads skipSpace [] [] (Reader.HeadNot isJsonSpace) :=
  Reader.reads_takeWhile (fun _ hc => absurd hc List.not_mem_nil)

variable (hclose : close = ']' ∨ close = '\x7d')
include hclose

theorem reads_more_sep :
    Reader.Reads (readMore close) ", ".toList true (Reader.HeadNot isJsonSpace) := by
  have hne : ',' ≠ close := by
    cases hclose with
    | inl h => rw [h]; decide
    | inr h => rw [h]; decide
  have hspace : Reader.Reads skipSpace [' '] [' '] (Reader.HeadNot isJsonSpace) :=
    Reader.reads_takeWhile (List.forall_mem_singleton.mpr (by decide))
  show Reader.Reads _ ([] ++ ([','] ++ [' '])) _ _
  refine Reader.reads_bind reads_skipSpace ?_ (fun rest _ => Reader.headNot_cons.mpr rfl)
  refine Reader.reads_seq (Reader.reads_next ',') ?_
  rw [if_neg hne, if_pos rfl]
  exact Reader.reads_map hspace (fun _ => rfl)

theorem reads_more_close : Reader.Reads (readMore close) [close] false fun _ => True := by
  have hspace : isJsonSpace close = false := by
    cases hclose with
    | inl h => rw [h]; rfl
    | inr h => rw [h]; rfl
  show Reader.Reads _ ([] ++ [close]) _ _
  refine Reader.reads_bind reads_skipSpace ?_ (fun rest _ => Reader.headNot_cons.mpr hspace)
  refine Reader.reads_map (Reader.reads_next close) (fun s => ?_)
  rw [if_pos rfl]
  rfl

/-- The items that are written between the brackets are read. -/
theorem reads_readItems {print : α → Str} (hitem : Reader.Shrinks item) {as : List α}
    (hread : ∀ a ∈ as, Reader.Reads item (print a) a NumberEnds)
    (hhead : ∀ a ∈ as, ∃ c t, print a = c :: t ∧ isJsonSpace c = false ∧ c ≠ close) :
    Reader.Reads (readItems item close) (List.intercalate ", ".toList (as.map print) ++ [close]) as
      fun _ => True := by
  have hends : ∀ rest, NumberEnds (close :: rest) := by
    intro rest
    cases hclose with
    | inl h => rw [h]; exact Reader.headNot_cons.mpr rfl
    | inr h => rw [h]; exact Reader.headNot_cons.mpr rfl
  have hspace : isJsonSpace close = false := by
    cases hclose with
    | inl h => rw [h]; rfl
    | inr h => rw [h]; rfl
  cases as with
  | nil =>
    show Reader.Reads _ ([] ++ [close]) _ _
    refine Reader.reads_bind reads_skipSpace (Reader.reads_orElse ?_)
      (fun rest _ => Reader.headNot_cons.mpr hspace)
    exact Reader.reads_map (Reader.reads_literal [close]) (fun _ => rfl)
  | cons a as =>
    have hitems := Reader.reads_items hitem (keeps_readMore close) (reads_more_sep hclose)
      (reads_more_close hclose) (fun rest => Reader.headNot_cons.mpr rfl) hends
      (List.cons_ne_nil a as) hread (fun b hb rest => by
        obtain ⟨c, t, hprint, hc, _⟩ := hhead b hb
        rw [hprint]
        exact Reader.headNot_cons.mpr hc)
    -- the first item does not begin like the bracket, so the list is not taken for an empty one
    obtain ⟨c, t, hprint, hc, hne⟩ := hhead a List.mem_cons_self
    have hfirst : ∃ t', List.intercalate ", ".toList ((a :: as).map print) ++ [close] = c :: t' := by
      cases as with
      | nil => exact ⟨t ++ [close], by simp [List.intercalate, hprint]⟩
      | cons b as => exact ⟨_, by simp [List.intercalate, hprint]; rfl⟩
    obtain ⟨t', hfirst⟩ := hfirst
    rw [hfirst] at hitems ⊢
    show Reader.Reads _ ([] ++ (c :: t')) _ _
    refine Reader.reads_bind reads_skipSpace (Reader.reads_second (fun rest _ => ?_) hitems)
      (fun rest _ => Reader.headNot_cons.mpr hc)
    exact Reader.bind_fail (Reader.literal_fail (fun heq => hne (Option.some.inj heq)))

end Items

theorem shrinks_readField {value : Reader Char Json} (h : Reader.Shrinks value) :
    Reader.Shrinks (readField value) := by
  refine Reader.shrinks_bind (Reader.shrinks_literal (by decide)) (fun _ => ?_)
  refine Reader.keeps_bind shrinks_readChars.keeps (fun k => ?_)
  refine Reader.keeps_bind (Reader.keeps_takeWhile _) (fun _ => ?_)
  refine Reader.keeps_bind (Reader.keeps_literal _) (fun _ => ?_)
  refine Reader.keeps_bind (Reader.keeps_takeWhile _) (fun _ => ?_)
  exact Reader.keeps_bind h.keeps (fun v => Reader.keeps_pure (k, v))

theorem agree_readField {n : Nat} {value value' : Reader Char Json} (h : Reader.Shrinks value)
    (hagree : Reader.AgreeBelow n value value') :
    Reader.AgreeBelow n (readField value) (readField value') := by
  refine Reader.agree_bind (Reader.keeps_literal _) (Reader.agree_refl n _) (fun _ => ?_)
  refine Reader.agree_bind shrinks_readChars.keeps (Reader.agree_refl n _) (fun k => ?_)
  refine Reader.agree_bind (Reader.keeps_takeWhile _) (Reader.agree_refl n _) (fun _ => ?_)
  refine Reader.agree_bind (Reader.keeps_literal _) (Reader.agree_refl n _) (fun _ => ?_)
  refine Reader.agree_bind (Reader.keeps_takeWhile _) (Reader.agree_refl n _) (fun _ => ?_)
  exact Reader.agree_bind h.keeps hagree (fun v => Reader.agree_refl n _)

theorem yields_readField {value : Reader Char Json} {P : Json → Prop}
    (h : Reader.Yields value P) : Reader.Yields (readField value) fun kv => P kv.2 := by
  refine Reader.yields_bind (Reader.yields_true _) (fun _ _ => ?_)
  refine Reader.yields_bind (Reader.yields_true _) (fun k _ => ?_)
  refine Reader.yields_bind (Reader.yields_true _) (fun _ _ => ?_)
  refine Reader.yields_bind (Reader.yields_true _) (fun _ _ => ?_)
  refine Reader.yields_bind (Reader.yields_true _) (fun _ _ => ?_)
  exact Reader.yields_bind h (fun v hv => Reader.yields_pure hv)

theorem dumpsField_head (kv : Str × Json) : ∃ t, dumpsField kv = '"' :: t := by
  obtain ⟨k, v⟩ := kv
  exact ⟨_, rfl⟩

theorem reads_readField {value : Reader Char Json} {kv : Str × Json}
    (h : Reader.Reads value (dumps kv.2) kv.2 NumberEnds)
    (hhead : ∃ c t, dumps kv.2 = c :: t ∧ isJsonSpace c = false) :
    Reader.Reads (readField value) (dumpsField kv) kv NumberEnds := by
  obtain ⟨k, v⟩ := kv
  obtain ⟨c, t, hdumps, hc⟩ := hhead
  have hspace : Reader.Reads skipSpace [' '] [' '] (Reader.HeadNot isJsonSpace) :=
    Reader.reads_takeWhile (List.forall_mem_singleton.mpr (by decide))
  have hsplit : dumpsField (k, v) =
      ['"'] ++ ((k.flatMap escapeJsonChar ++ ['"']) ++ ([] ++ ([':'] ++ ([' '] ++ dumps v)))) := by
    simp [dumpsField, dumpsStr]
  rw [hsplit]
  refine Reader.reads_seq (Reader.reads_literal ['"']) (Reader.reads_seq (reads_readChars k) ?_)
  refine Reader.reads_bind reads_skipSpace ?_ (fun rest _ => Reader.headNot_cons.mpr rfl)
  refine Reader.reads_seq (Reader.reads_literal [':']) ?_
  refine Reader.reads_bind hspace (Reader.reads_map h (fun _ => rfl)) (fun rest _ => ?_)
  rw [hdumps]
  exact Reader.headNot_cons.mpr hc

/-! ## Values -/

theorem dumpsItems_eq (items : List Json) : dumpsItems items = items.map dumps := by
  induction items with
  | nil => rfl
  | cons v items ih => rw [dumpsItems, ih, List.map_cons]

theorem dumpsFields_eq (fields : List (Str × Json)) : dumpsFields fields = fields.map dumpsField := by
  induction fields with
  | nil => rfl
  | cons kv fields ih => rw [dumpsFields, ih, List.map_cons]

theorem shrinks_readParts : Reader.Shrinks readParts := by
  have hdigits : Reader.Keeps readDigits := Reader.keeps_bind (Reader.keeps_takeWhile _)
    (fun _ => Reader.keeps_ite Reader.shrinks_fail.keeps (Reader.keeps_pure _))
  have hint : Reader.Shrinks readInt := by
    refine Reader.shrinks_bind Reader.shrinks_next (fun c => ?_)
    refine Reader.keeps_ite (Reader.keeps_pure _) (Reader.keeps_ite ?_ Reader.shrinks_fail.keeps)
    exact Reader.keeps_bind (Reader.keeps_takeWhile _) (fun _ => Reader.keeps_pure _)
  have hfrac : Reader.Keeps readFrac := Reader.keeps_bind (Reader.keeps_literal _)
    (fun _ => Reader.keeps_bind hdigits (fun _ => Reader.keeps_pure _))
  have hsign : Reader.Keeps (Reader.optional readExpSign) := Reader.keeps_optional
    (Reader.keeps_orElse (Reader.keeps_literal _) (Reader.keeps_literal _))
  have hexp : Reader.Keeps readExp := by
    refine Reader.keeps_bind Reader.shrinks_next.keeps (fun c => ?_)
    refine Reader.keeps_ite (Reader.keeps_bind hsign (fun _ => ?_)) Reader.shrinks_fail.keeps
    exact Reader.keeps_bind hdigits (fun _ => Reader.keeps_pure _)
  refine Reader.shrinks_then (Reader.keeps_optional (Reader.keeps_literal _)) (fun _ => ?_)
  refine Reader.shrinks_bind hint (fun _ => ?_)
  refine Reader.keeps_bind (Reader.keeps_optional hfrac) (fun _ => ?_)
  exact Reader.keeps_bind (Reader.keeps_optional hexp) (fun _ => Reader.keeps_pure _)

theorem shrinks_readConstant {words : List (Str × Json)} (h : ∀ word ∈ words, word.1 ≠ []) :
    Reader.Shrinks (readConstant words) := by
  induction words with
  | nil => exact Reader.shrinks_fail
  | cons word words ih =>
    obtain ⟨hword, hwords⟩ := List.forall_mem_cons.mp h
    refine Reader.shrinks_orElse ?_ (ih hwords)
    exact Reader.shrinks_bind (Reader.shrinks_literal hword) (fun _ => Reader.keeps_pure _)

theorem jsonConstants_ne : ∀ word ∈ jsonConstants, word.1 ≠ [] := by
  intro word hword
  simp only [jsonConstants, List.mem_cons, List.not_mem_nil, or_false] at hword
  obtain rfl | rfl | rfl | rfl | rfl | rfl := hword <;> decide

theorem yields_readConstant {P : Json → Prop} {words : List (Str × Json)}
    (h : ∀ word ∈ words, P word.2) : Reader.Yields (readConstant words) P := by
  induction words with
  | nil => exact Reader.yields_fail
  | cons word words ih =>
    obtain ⟨hword, hwords⟩ := List.forall_mem_cons.mp h
    refine Reader.yields_orElse ?_ (ih hwords)
    exact Reader.yields_bind (Reader.yields_true _) (fun _ _ => Reader.yields_pure hword)

section Values
variable {floatText : Str → Str}

theorem productive_valueStep : Reader.Productive (valueStep floatText) where
  shrinks value h := by
    refine Reader.shrinks_orElse ?_ (Reader.shrinks_orElse ?_ ?_)
    · refine Reader.shrinks_bind Reader.shrinks_next (fun c => ?_)
      refine Reader.keeps_ite ?_ (Reader.keeps_ite ?_ (Reader.keeps_ite ?_
        Reader.shrinks_fail.keeps))
      · exact Reader.keeps_bind shrinks_readChars.keeps (fun _ => Reader.keeps_pure _)
      · exact Reader.keeps_bind (keeps_readItems h) (fun _ => Reader.keeps_pure _)
      · exact Reader.keeps_bind (keeps_readItems (shrinks_readField h))
          (fun _ => Reader.keeps_pure _)
    · exact shrinks_readConstant jsonConstants_ne
    · refine Reader.shrinks_bind shrinks_readParts (fun p => ?_)
      cases numberText floatText p with
      | none => exact Reader.shrinks_fail.keeps
      | some text => exact Reader.keeps_pure _
  agree n value value' h h' hagree := by
    refine Reader.agree_orElse ?_ (Reader.agree_refl _ _)
    refine Reader.agree_after Reader.shrinks_next (fun c => ?_)
    refine Reader.agree_ite (Reader.agree_refl n _) (Reader.agree_ite ?_ (Reader.agree_ite ?_
      (Reader.agree_refl n _)))
    · exact Reader.agree_bind (keeps_readItems h) (agree_readItems h h' hagree)
        (fun _ => Reader.agree_refl n _)
    · exact Reader.agree_bind (keeps_readItems (shrinks_readField h))
        (agree_readItems (shrinks_readField h) (shrinks_readField h') (agree_readField h hagree))
        (fun _ => Reader.agree_refl n _)

theorem readValue_eq : readValue floatText = valueStep floatText (readValue floatText) :=
  Reader.fix_eq productive_valueStep

theorem shrinks_readValue : Reader.Shrinks (readValue floatText) :=
  Reader.shrinks_fix productive_valueStep

end Values

section Printable
variable (floatText : Str → Str)

/-- A number that is read as it is written. -/
def NumberPrintable (text : Str) : Prop :=
  text ∈ ["nan".toList, "inf".toList, "-inf".toList] ∨
    ∃ p : NumberParts, p.Shaped ∧ p.text = text ∧ numberText floatText p = some text

/-- What `json.dumps` can write of what `json.loads` can read. -/
inductive Printable : Json → Prop
  | null : Printable .null
  | bool (b : Bool) : Printable (.bool b)
  | str (s : Str) : Printable (.str s)
  | num {text : Str} (h : NumberPrintable floatText text) : Printable (.num text)
  | arr {items : List Json} (h : ∀ v ∈ items, Printable v) : Printable (.arr items)
  | obj {fields : List (Str × Json)} (hnodup : (fields.map Prod.fst).Nodup)
      (h : ∀ kv ∈ fields, Printable kv.2) : Printable (.obj fields)

/-- `repr` of a number that `float` read: it is a number again, or it was too large, and to
    read it once more changes nothing. -/
structure FloatRepr : Prop where
  stable : ∀ p : NumberParts, p.Shaped → p.isFloat = true →
    floatText p.text ∈ ["inf".toList, "-inf".toList] ∨
      ∃ q : NumberParts, q.Shaped ∧ q.isFloat = true ∧ q.text = floatText p.text ∧
        floatText q.text = q.text

end Printable

section Written
variable {floatText : Str → Str}

/-- A number begins with a digit, or with its sign and a digit. -/
theorem NumberParts.Shaped.text_head {p : NumberParts} (h : p.Shaped) :
    ∃ d t, d.isDigit = true ∧ (p.text = d :: t ∨ p.text = '-' :: d :: t) := by
  obtain ⟨d, ds, hint, hd⟩ := h.int_head
  refine ⟨d, ds ++ (p.frac ++ p.exp), hd, ?_⟩
  cases h.sign with
  | inl hnil => exact Or.inl (by rw [NumberParts.text, hnil, hint]; rfl)
  | inr hminus => exact Or.inr (by rw [NumberParts.text, hminus, hint]; rfl)

theorem dumpsNum_parts {p : NumberParts} (h : p.Shaped) : dumpsNum p.text = p.text := by
  have hne : ∀ word : Str, readParts word = none → p.text ≠ word := by
    intro word hnone heq
    have hread := h.reads_parts [] (fun c hc => by cases hc)
    rw [List.append_nil, heq, hnone] at hread
    cases hread
  unfold dumpsNum
  rw [if_neg (hne _ (by decide)), if_neg (hne _ (by decide)), if_neg (hne _ (by decide))]

theorem literal_digit {d : Char} (hd : d.isDigit = true) {c : Char} (hc : c.isDigit = false)
    (w t : Str) : Reader.literal (c :: w) (d :: t) = none :=
  Reader.literal_fail (fun heq => isDigit_ne hd hc (Option.some.inj heq))

theorem literal_sign_digit {d : Char} (hd : d.isDigit = true) (t : Str) :
    Reader.literal "-Infinity".toList ('-' :: d :: t) = none := by
  have hne : ('I' == d) = false := beq_false_of_ne (isDigit_ne hd (by decide)).symm
  have hnot : "-Infinity".toList.isPrefixOf ('-' :: d :: t) = false := by
    have hword : "-Infinity".toList = '-' :: 'I' :: "nfinity".toList := by decide
    rw [hword, List.isPrefixOf_cons_cons, List.isPrefixOf_cons_cons, hne, Bool.false_and,
      Bool.and_false]
  unfold Reader.literal
  rw [hnot]
  rfl

/-- No constant and no bracket begins like a number. -/
theorem readConstant_number {s t : Str} {d : Char} (hd : d.isDigit = true)
    (hs : s = d :: t ∨ s = '-' :: d :: t) : readConstant jsonConstants s = none := by
  -- all constants begin with a letter, except `-Infinity`, which begins like a negative number
  have hother : ∀ c w, c.isDigit = false → c ≠ '-' → Reader.literal (c :: w) s = none := by
    intro c w hc hne
    cases hs with
    | inl hs => rw [hs]; exact literal_digit hd hc w t
    | inr hs => rw [hs]; exact Reader.literal_fail (fun heq => hne (Option.some.inj heq).symm)
  have hlast : Reader.literal "-Infinity".toList s = none := by
    cases hs with
    | inl hs => rw [hs]; exact literal_digit hd (by decide) _ t
    | inr hs => rw [hs]; exact literal_sign_digit hd t
  refine Reader.orElse_fail (Reader.bind_fail (hother 'n' _ (by decide) (by decide))) ?_
  refine Reader.orElse_fail (Reader.bind_fail (hother 't' _ (by decide) (by decide))) ?_
  refine Reader.orElse_fail (Reader.bind_fail (hother 'f' _ (by decide) (by decide))) ?_
  refine Reader.orElse_fail (Reader.bind_fail (hother 'N' _ (by decide) (by decide))) ?_
  refine Reader.orElse_fail (Reader.bind_fail (hother 'I' _ (by decide) (by decide))) ?_
  exact Reader.orElse_fail (Reader.bind_fail hlast) rfl

theorem readBracketed_fail (value : Reader Char Json) {c : Char} (t : Str)
    (h : c ≠ '"' ∧ c ≠ '[' ∧ c ≠ '\x7b') : readBracketed value (c :: t) = none := by
  show (if c = '"' then _ else if c = '[' then _ else if c = '\x7b' then _ else Reader.fail :
    Reader Char Json) t = none
  rw [if_neg h.1, if_neg h.2.1, if_neg h.2.2]
  rfl

theorem reads_number {value : Reader Char Json} {p : NumberParts} (h : p.Shaped)
    (htext : numberText floatText p = some p.text) :
    Reader.Reads (valueStep floatText value) p.text (.num p.text) NumberEnds := by
  obtain ⟨d, t, hd, htexts⟩ := h.text_head
  -- the brackets and the constants are tried first and fail
  refine Reader.reads_second (fun rest _ => ?_) (Reader.reads_second (fun rest _ => ?_) ?_)
  · cases htexts with
    | inl hs =>
      rw [hs]
      exact readBracketed_fail value _ ⟨isDigit_ne hd (by decide), isDigit_ne hd (by decide),
        isDigit_ne hd (by decide)⟩
    | inr hs =>
      rw [hs]
      exact readBracketed_fail value _ (by decide)
  · apply readConstant_number (t := t ++ rest) hd
    cases htexts with
    | inl hs => exact Or.inl (by rw [hs]; rfl)
    | inr hs => exact Or.inr (by rw [hs]; rfl)
  · refine Reader.reads_map h.reads_parts (fun s => ?_)
    rw [htext]
    rfl

/-- No written value begins with a space or closes an array. -/
theorem Printable.head {j : Json} (h : Printable floatText j) :
    ∃ c t, dumps j = c :: t ∧ isJsonSpace c = false ∧ c ≠ ']' := by
  cases h with
  | null => exact ⟨'n', "ull".toList, by decide, by decide, by decide⟩
  | bool b =>
    cases b with
    | false => exact ⟨'f', "alse".toList, by decide, by decide, by decide⟩
    | true => exact ⟨'t', "rue".toList, by decide, by decide, by decide⟩
  | str s => exact ⟨'"', _, rfl, by decide, by decide⟩
  | arr h => exact ⟨'[', _, rfl, by decide, by decide⟩
  | obj hnodup h => exact ⟨'\x7b', _, rfl, by decide, by decide⟩
  | num h =>
    obtain hword | ⟨p, hp, rfl, _⟩ := h
    · simp only [List.mem_cons, List.not_mem_nil, or_false] at hword
      obtain rfl | rfl | rfl := hword
      · exact ⟨'N', "aN".toList, by decide, by decide, by decide⟩
      · exact ⟨'I', "nfinity".toList, by decide, by decide, by decide⟩
      · exact ⟨'-', "Infinity".toList, by decide, by decide, by decide⟩
    · rw [dumps, dumpsNum_parts hp]
      obtain ⟨d, t, hd, hs | hs⟩ := hp.text_head
      · refine ⟨d, t, hs, ?_, isDigit_ne hd (by decide)⟩
        simp only [isJsonSpace, Bool.or_eq_false_iff, beq_eq_false_iff_ne]
        exact ⟨⟨⟨isDigit_ne hd (by decide), isDigit_ne hd (by decide)⟩,
          isDigit_ne hd (by decide)⟩, isDigit_ne hd (by decide)⟩
      · exact ⟨'-', d :: t, hs, by decide, by decide⟩

/-- The written value is read, in front of all that ends a number. -/
theorem reads_readValue {j : Json} (h : Printable floatText j) :
    Reader.Reads (readValue floatText) (dumps j) j NumberEnds := by
  induction h with
  | null => exact readValue_eq ▸ fun rest _ => rfl
  | bool b => cases b <;> exact readValue_eq ▸ fun rest _ => rfl
  | str s =>
    rw [readValue_eq]
    show Reader.Reads _ (['"'] ++ (s.flatMap escapeJsonChar ++ ['"'])) _ _
    refine Reader.reads_orElse (Reader.reads_seq (Reader.reads_next '"') ?_)
    exact Reader.reads_map ((reads_readChars s).weaken (fun _ _ => trivial)) (fun _ => rfl)
  | num h =>
    rw [readValue_eq]
    obtain hword | ⟨p, hp, rfl, htext⟩ := h
    · simp only [List.mem_cons, List.not_mem_nil, or_false] at hword
      obtain rfl | rfl | rfl := hword <;> exact fun rest _ => rfl
    · rw [dumps, dumpsNum_parts hp]
      exact reads_number hp htext
  | @arr items h ih =>
    have hitems := reads_readItems (Or.inl rfl) shrinks_readValue ih
      (fun v hv => (h v hv).head)
    rw [readValue_eq, dumps, dumpsItems_eq]
    show Reader.Reads _ (['['] ++ (_ ++ _)) _ _
    refine Reader.reads_orElse (Reader.reads_seq (Reader.reads_next '[') ?_)
    exact Reader.reads_map (hitems.weaken (fun _ _ => trivial)) (fun _ => rfl)
  | @obj fields hnodup h ih =>
    have hread : ∀ kv ∈ fields, Reader.Reads (readField (readValue floatText)) (dumpsField kv) kv
        NumberEnds := by
      intro kv hkv
      obtain ⟨c, t, hdumps, hc, _⟩ := (h kv hkv).head
      exact reads_readField (ih kv hkv) ⟨c, t, hdumps, hc⟩
    have hfields := reads_readItems (Or.inr rfl) (shrinks_readField shrinks_readValue) hread
      (fun kv _ => by
        obtain ⟨t, hfield⟩ := dumpsField_head kv
        exact ⟨'"', t, hfield, by decide, by decide⟩)
    rw [readValue_eq, dumps, dumpsFields_eq]
    show Reader.Reads _ (['\x7b'] ++ (_ ++ _)) _ _
    refine Reader.reads_orElse (Reader.reads_seq (Reader.reads_next '\x7b') ?_)
    refine Reader.reads_map (hfields.weaken (fun _ _ => trivial)) (fun s => ?_)
    -- no key is there twice, so the dict that is built has the fields as they were written
    rw [Dict.ofItems_of_nodup hnodup]
    rfl

theorem reads_readDocument {j : Json} (h : Printable floatText j) :
    Reader.Reads (readDocument floatText) (dumps j) j (fun rest => rest = []) := by
  have hempty : ∀ kind : Char → Bool, Reader.HeadNot kind ([] : Str) := by
    intro kind c hc
    cases hc
  obtain ⟨c, t, hdumps, hc, _⟩ := h.head
  have hread : Reader.Reads (readDocument floatText) ([] ++ (dumps j ++ [])) j
      (fun rest => rest = []) := by
    refine Reader.reads_bind reads_skipSpace ?_ ?_
    · refine Reader.reads_bind (reads_readValue h)
        (Reader.reads_map (reads_skipSpace.weaken ?_) (fun _ => rfl)) ?_
      · intro rest hrest
        rw [hrest]
        exact hempty _
      · intro rest hrest
        rw [hrest]
        exact hempty _
    · intro rest _
      rw [hdumps]
      exact Reader.headNot_cons.mpr hc
  rwa [List.nil_append, List.append_nil] at hread

/-- `json.loads(json.dumps(j))`. -/
theorem loads_dumps {j : Json} (h : Printable floatText j) : loads floatText (dumps j) = some j := by
  have hread := reads_readDocument h [] rfl
  rw [List.append_nil] at hread
  rw [loads, hread]

theorem dumps_injective {j j' : Json} (h : Printable floatText j) (h' : Printable floatText j')
    (heq : dumps j = dumps j') : j = j' := by
  have hread := loads_dumps h
  rw [heq, loads_dumps h'] at hread
  exact (Option.some.inj hread).symm

theorem numberText_of_int {p : NumberParts} (hp : p.Shaped) {text : Str}
    (hfloat : p.isFloat = false) (h : numberText floatText p = some text) :
    NumberPrintable floatText text := by
  unfold numberText at h
  rw [hfloat, if_neg Bool.false_ne_true] at h
  split_ifs at h with hlong hzero
  · cases h
    refine Or.inr ⟨⟨[], ['0'], [], []⟩, ?_, rfl, rfl⟩
    exact ⟨Or.inl rfl, Or.inl rfl, Or.inl rfl, Or.inl rfl⟩
  · cases h
    refine Or.inr ⟨p, hp, rfl, ?_⟩
    rw [numberText, hfloat, if_neg Bool.false_ne_true, if_neg hlong, if_neg hzero]

theorem printable_number (hfloat : FloatRepr floatText) {p : NumberParts} (hp : p.Shaped)
    {text : Str} (h : numberText floatText p = some text) : NumberPrintable floatText text := by
  cases hkind : p.isFloat with
  | false => exact numberText_of_int hp hkind h
  | true =>
    rw [numberText, if_pos hkind] at h
    cases h
    -- a float that is too large is written as a constant, any other one as its own `repr`
    obtain hlarge | ⟨q, hq, hqfloat, hqtext, hqstable⟩ := hfloat.stable p hp hkind
    · exact Or.inl (List.mem_cons_of_mem _ hlarge)
    · refine Or.inr ⟨q, hq, hqtext, ?_⟩
      rw [numberText, if_pos hqfloat, hqstable, hqtext]

theorem yields_readValue (hfloat : FloatRepr floatText) :
    Reader.Yields (readValue floatText) (Printable floatText) := by
  refine Reader.yields_fix (fun value hvalue => ?_)
  refine Reader.yields_orElse ?_ (Reader.yields_orElse ?_ ?_)
  · refine Reader.yields_bind (Reader.yields_true _) (fun c _ => ?_)
    refine Reader.yields_ite (fun _ => ?_) (fun _ => Reader.yields_ite (fun _ => ?_) (fun _ =>
      Reader.yields_ite (fun _ => ?_) (fun _ => Reader.yields_fail)))
    · exact Reader.yields_bind (Reader.yields_true _)
        (fun s _ => Reader.yields_pure (Printable.str s))
    · exact Reader.yields_bind (yields_readItems hvalue)
        (fun items hitems => Reader.yields_pure (Printable.arr hitems))
    · refine Reader.yields_bind (yields_readItems (yields_readField hvalue))
        (fun fields hfields => Reader.yields_pure ?_)
      exact Printable.obj (Dict.nodup_keys_ofItems fields) (Dict.forall_values_ofItems hfields)
  · apply yields_readConstant
    intro word hword
    simp only [jsonConstants, List.mem_cons, List.not_mem_nil, or_false] at hword
    obtain rfl | rfl | rfl | rfl | rfl | rfl := hword
    · exact Printable.null
    · exact Printable.bool true
    · exact Printable.bool false
    · exact Printable.num (Or.inl (by decide))
    · exact Printable.num (Or.inl (by decide))
    · exact Printable.num (Or.inl (by decide))
  · refine Reader.yields_bind yields_readParts (fun p hp => ?_)
    cases htext : numberText floatText p with
    | none => exact Reader.yields_fail
    | some text => exact Reader.yields_pure (Printable.num (printable_number hfloat hp htext))

theorem printable_of_loads (hfloat : FloatRepr floatText) {s : Str} {j : Json}
    (h : loads floatText s = some j) : Printable floatText j := by
  unfold loads at h
  split at h
  · next v hread =>
    cases h
    have hyields : Reader.Yields (readDocument floatText) (Printable floatText) := by
      refine Reader.yields_bind (Reader.yields_true _) (fun _ _ => ?_)
      refine Reader.yields_bind (yields_readValue hfloat) (fun v hv => ?_)
      exact Reader.yields_bind (Reader.yields_true _) (fun _ _ => Reader.yields_pure hv)
    exact hyields s _ _ hread
  · cases h

mutual

/-- What is flattened is what was in the object. -/
theorem printable_flattenItems (parentKey : Str) :
    ∀ fields : List (Str × Json), (∀ kv ∈ fields, Printable floatText kv.2) →
      ∀ kv ∈ flattenItems parentKey fields, Printable floatText kv.2
  | [], _, kv, h => by
    rw [flattenItems] at h
    cases h
  | field :: rest, hfields, kv, h => by
    obtain ⟨hfield, hrest⟩ := List.forall_mem_cons.mp hfields
    rw [flattenItems] at h
    cases List.mem_append.mp h with
    | inl h => exact printable_flattenItem parentKey field hfield kv h
    | inr h => exact printable_flattenItems parentKey rest hrest kv h

theorem printable_flattenItem (parentKey : Str) :
    ∀ field : Str × Json, Printable floatText field.2 →
      ∀ kv ∈ flattenItem parentKey field, Printable floatText kv.2
  | (k, .obj fields), hfield, kv, h => by
    cases hfield with
    | obj _ hvalues =>
      rw [flattenItem] at h
      exact Dict.forall_values_ofItems (printable_flattenItems _ fields hvalues) kv h
  | (k, .null), hfield, kv, h | (k, .bool _), hfield, kv, h | (k, .num _), hfield, kv, h
  | (k, .str _), hfield, kv, h | (k, .arr _), hfield, kv, h => by
    rw [flattenItem_leaf (fun fields hobj => by cases hobj), List.mem_singleton] at h
    rw [h]
    exact hfield

end

/-- The list under a key that no other key is normalised to. -/
theorem get_list {fields : List (Str × Json)} {key : Str} {items : List Json}
    (hmem : (key, .arr items) ∈ flattenDict fields) (hne : normalizeKey key ≠ [])
    (honly : ∀ kv ∈ flattenDict fields, normalizeKey kv.1 = normalizeKey key → kv.1 = key) :
    (normalizeFlattened (flattenDict fields)).get (normalizeKey key) = some (dumps (.arr items)) := by
  have hpair : ∀ kv ∈ flattenDict fields, normalizeKey kv.1 = normalizeKey key →
      kv = (key, .arr items) := by
    intro kv hkv hkey
    have hnodup : ((flattenDict fields).map Prod.fst).Nodup := Dict.nodup_keys_ofItems _
    exact List.inj_on_of_nodup_map hnodup hkv hmem (honly kv hkv hkey)
  -- of equal keys the last one wins, and here all of them have the same text
  rw [get_normalizeFlattened]
  apply Dict.get_eq_some
  · refine ⟨(normalizeKey key, dumps (.arr items)), List.mem_reverse.mpr ?_, rfl⟩
    refine List.mem_filterMap.mpr ⟨(key, .arr items), hmem, ?_⟩
    rw [if_neg hne]
    rfl
  · intro item hitem hkey
    obtain ⟨kv, hkv, hof⟩ := List.mem_filterMap.mp (List.mem_reverse.mp hitem)
    split_ifs at hof
    cases hof
    rw [hpair kv hkv hkey]
    rfl

end Written

/-- Whatever text is read: the value is written as a text that is read as the same value. And of
    an object's lists none is lost in the details: the text that is kept for it is read as it. -/
theorem json_settles {floatText : Str → Str} (hfloat : FloatRepr floatText) {raw : Str} {j : Json}
    (h : loads floatText raw = some j) :
    loads floatText (dumps j) = some j ∧
    ∀ fields, j = .obj fields → ∃ d, normalizeMmcliJson (loads floatText) raw = some d ∧
      ∀ key items, (key, .arr items) ∈ flattenDict fields → normalizeKey key ≠ [] →
        (∀ kv ∈ flattenDict fields, normalizeKey kv.1 = normalizeKey key → kv.1 = key) →
        ∃ text, d.get (normalizeKey key) = some text ∧
          loads floatText text = some (.arr items) := by
  have hprintable := printable_of_loads hfloat h
  refine ⟨loads_dumps hprintable, ?_⟩
  rintro fields rfl
  refine ⟨normalizeFlattened (flattenDict fields), ?_, ?_⟩
  · rw [normalizeMmcliJson, h]
  · intro key items hmem hne honly
    refine ⟨dumps (.arr items), get_list hmem hne honly, loads_dumps ?_⟩
    cases hprintable with
    | obj _ hvalues =>
      exact Dict.forall_values_ofItems (printable_flattenItems [] fields hvalues) _ hmem

theorem floatRepr_id : FloatRepr id :=
  ⟨fun p hp hfloat => Or.inr ⟨p, hp, hfloat, rfl, rfl⟩⟩

/-- The numbers of a modem, laid out over two lines and escaped. -/
def ownNumbers : Str :=
  "\x7b \"modem\" :\n \x7b\"own-numbers\": [\"\\u002b351\" ,-0 ]\x7d \x7d".toList

def ownNumbersFields : List (Str × Json) :=
  [("modem".toList, .obj [("own-numbers".toList, .arr [.str "+351".toList, .num "0".toList])])]

theorem printable_ownNumbers : Printable id (.obj ownNumbersFields) := by
  have hzero : NumberPrintable id "0".toList :=
    Or.inr ⟨⟨[], ['0'], [], []⟩, ⟨Or.inl rfl, Or.inl rfl, Or.inl rfl, Or.inl rfl⟩, rfl, rfl⟩
  refine .obj (by decide) (List.forall_mem_singleton.mpr (.obj (by decide) ?_))
  refine List.forall_mem_singleton.mpr (.arr (List.forall_mem_cons.mpr ⟨.str _, ?_⟩))
  exact List.forall_mem_singleton.mpr (.num hzero)

/-- Their list is kept as a text, without the escape. -/
theorem json_settles_own_numbers :
    ∃ d, normalizeMmcliJson (loads id) ownNumbers = some d ∧
      ∃ text, d.get "modemownnumbers".toList = some text ∧
        loads id text = some (.arr [.str "+351".toList, .num "0".toList]) := by
  have hread : (loads id ownNumbers).map dumps = some (dumps (.obj ownNumbersFields)) := by
    decide +kernel
  obtain ⟨j, hloads, hdumps⟩ := Option.map_eq_some_iff.mp hread
  -- equal texts are of equal values
  have hj : j = .obj ownNumbersFields :=
    dumps_injective (printable_of_loads floatRepr_id hloads) printable_ownNumbers hdumps
  obtain ⟨_, hdetails⟩ := json_settles floatRepr_id hloads
  obtain ⟨d, hd, hlists⟩ := hdetails ownNumbersFields hj
  have hflat : flattenDict ownNumbersFields =
      [("modem.own-numbers".toList, .arr [.str "+351".toList, .num "0".toList])] := by
    rw [flattenDict, ownNumbersFields]
    simp only [flattenItems, flattenItem, List.append_nil]
    rfl
  rw [hflat] at hlists
  refine ⟨d, hd, hlists "modem.own-numbers".toList _ (List.mem_singleton_self _) (by decide) ?_⟩
  intro kv hkv _
  exact congrArg Prod.fst (List.mem_singleton.mp hkv)
end HiWaveTel
