import HiWaveTel.Foundation.Text

/- `str.splitlines`. A text is cut at every line break of Unicode, a carriage return and
   a line feed being one break, and a break at the end starts no line. Reading a pipe
   as text turns `\r\n` and `\r` into `\n` first; `splitLines_universalNewlines` says that
   this leaves the lines as they are. -/
namespace Foundation

namespace Text

def isLineBreak (c : Char) : Bool :=
  let n := c.toNat
  (10 ≤ n && n ≤ 13) || (28 ≤ n && n ≤ 30) || n == 0x85 || n == 0x2028 || n == 0x2029

/-- One more character at the front of the first line. -/
def extendLine (c : Char) : List Str → List Str
  | [] => [[c]]
  | l :: ls => (c :: l) :: ls

/-- `str.splitlines()`. -/
def splitLines : Str → List Str
  | [] => []
  | [c] => if isLineBreak c then [[]] else [[c]]
  | c :: d :: s =>
    if c == '\r' && d == '\n' then [] :: splitLines s
    else if isLineBreak c then [] :: splitLines (d :: s)
    else extendLine c (splitLines (d :: s))

example : splitLines "a\n\nb: c\r\nd\n".toList = ["a", "", "b: c", "d"].map String.toList := by
  decide

/-- A text of one line. -/
def SingleLine (s : Str) : Prop := ∀ c ∈ s, isLineBreak c = false

instance (s : Str) : Decidable (SingleLine s) :=
  decidable_of_iff (s.all (fun c => !isLineBreak c) = true) (by simp [SingleLine])

theorem splitLines_cons {c : Char} (h : isLineBreak c = false) (s : Str) :
    splitLines (c :: s) = extendLine c (splitLines s) := by
  have hcr : c ≠ '\r' := by
    rintro rfl
    exact absurd h (by decide)
  cases s with
  | nil => simp [splitLines, h, extendLine]
  | cons d s => simp [splitLines, h, hcr]

theorem splitLines_newline (s : Str) : splitLines ('\n' :: s) = [] :: splitLines s := by
  have hbreak : isLineBreak '\n' = true := by decide
  cases s with
  | nil => simp [splitLines, hbreak]
  | cons d s => simp [splitLines, hbreak]

theorem splitLines_cons_break {c : Char} (h : isLineBreak c = true) (hcr : c ≠ '\r') (s : Str) :
    splitLines (c :: s) = [] :: splitLines s := by
  cases s with
  | nil => simp [splitLines, h]
  | cons d s => simp [splitLines, h, hcr]

/-- A pipe that is read as text. -/
def universalNewlines : Str → Str
  | [] => []
  | [c] => if c == '\r' then ['\n'] else [c]
  | c :: d :: s =>
    if c == '\r' && d == '\n' then '\n' :: universalNewlines s
    else if c == '\r' then '\n' :: universalNewlines (d :: s)
    else c :: universalNewlines (d :: s)

theorem splitLines_universalNewlines (s : Str) :
    splitLines (universalNewlines s) = splitLines s := by
  fun_induction universalNewlines s with
  | case1 => rfl
  | case2 c hcr =>
    rw [eq_of_beq hcr]
    decide
  | case3 c hcr => rfl
  | case4 c d s hcr ih =>
    rw [splitLines_newline, ih, splitLines, if_pos hcr]
  | case5 c d s hnot hcr ih =>
    have hbreak : isLineBreak c = true := by
      rw [eq_of_beq hcr]
      decide
    rw [splitLines_newline, ih, splitLines, if_neg hnot, if_pos hbreak]
  | case6 c d s hnot hcr ih =>
    have hne : c ≠ '\r' := by simpa using hcr
    cases hbreak : isLineBreak c with
    | true => rw [splitLines_cons_break hbreak hne, splitLines_cons_break hbreak hne, ih]
    | false => rw [splitLines_cons hbreak, splitLines_cons hbreak, ih]

/-- A text has a first line. -/
theorem exists_splitLines_eq {s : Str} (h : s ≠ []) : ∃ l ls, splitLines s = l :: ls := by
  apply List.exists_cons_of_ne_nil
  have hextend : ∀ c ls, extendLine c ls ≠ [] := by
    intro c ls
    cases ls <;> simp [extendLine]
  fun_cases splitLines s with
  | case1 => exact absurd rfl h
  | _ => simp [*]

/-- A single line in front of a text that has a first line. -/
theorem splitLines_append {p s l : Str} {ls : List Str} (hp : SingleLine p)
    (h : splitLines s = l :: ls) : splitLines (p ++ s) = (p ++ l) :: ls := by
  induction p with
  | nil => exact h
  | cons c p ih =>
    rw [List.cons_append, splitLines_cons (hp c List.mem_cons_self),
      ih (fun d hd => hp d (List.mem_cons_of_mem _ hd))]
    rfl

theorem splitLines_line {p : Str} (hp : SingleLine p) (s : Str) :
    splitLines (p ++ '\n' :: s) = p :: splitLines s := by
  rw [splitLines_append hp (splitLines_newline s), List.append_nil]

/-- What follows a line feed is cut on its own. -/
theorem splitLines_append_newline (s t : Str) :
    splitLines (s ++ '\n' :: t) = splitLines (s ++ ['\n']) ++ splitLines t := by
  induction s using splitLines.induct with
  | case1 => simp [splitLines_newline, splitLines]
  | case2 c hc =>
    rw [List.cons_append, List.nil_append, List.cons_append, List.nil_append]
    by_cases hcr : c = '\r'
    · simp [splitLines, hcr]
    · have hbreak : isLineBreak '\n' = true := by decide
      simp [splitLines, hcr, hc, splitLines_newline, hbreak]
  | case3 c hc =>
    have hplain : isLineBreak c = false := by simpa using hc
    rw [List.cons_append, List.nil_append, List.cons_append, List.nil_append,
      splitLines_cons hplain, splitLines_cons hplain, splitLines_newline, splitLines_newline]
    rfl
  | case4 c d s hcr ih =>
    simp only [List.cons_append, splitLines, hcr, if_true, ih]
  | case5 c d s hcr hc ih =>
    simp only [List.cons_append, splitLines, hcr, hc, Bool.false_eq_true, if_false, if_true]
      at ih ⊢
    rw [ih]
  | case6 c d s hcr hc ih =>
    have hplain : isLineBreak c = false := by simpa using hc
    show splitLines (c :: (d :: s ++ '\n' :: t)) =
      splitLines (c :: (d :: s ++ ['\n'])) ++ splitLines t
    rw [splitLines_cons hplain, splitLines_cons hplain, ih]
    obtain ⟨l, ls, hl⟩ := exists_splitLines_eq (s := d :: s ++ ['\n']) (by simp)
    rw [hl]
    rfl

theorem splitLines_singleLine {s : Str} (h : SingleLine s) : splitLines (s ++ ['\n']) = [s] :=
  splitLines_line h []

theorem prefix_of_splitLines {s l : Str} {ls : List Str} (h : splitLines s = l :: ls) :
    l <+: s := by
  induction s using splitLines.induct generalizing l ls with
  | case1 => cases h
  | case2 c hc =>
    simp only [splitLines, hc, if_true] at h
    cases h
    exact List.nil_prefix
  | case3 c hc =>
    simp only [splitLines, hc, Bool.false_eq_true, if_false] at h
    cases h
    exact List.prefix_rfl
  | case4 c d s hcr ih =>
    simp only [splitLines, hcr, if_true] at h
    cases h
    exact List.nil_prefix
  | case5 c d s hcr hc ih =>
    simp only [splitLines, hcr, hc, Bool.false_eq_true, if_false, if_true] at h
    cases h
    exact List.nil_prefix
  | case6 c d s hcr hc ih =>
    have hplain : isLineBreak c = false := by simpa using hc
    obtain ⟨l', ls', hl⟩ := exists_splitLines_eq (s := d :: s) (by simp)
    rw [splitLines_cons hplain, hl] at h
    cases h
    exact (List.prefix_cons_inj c).mpr (ih hl)

/-- A line is part of the text. -/
theorem infix_of_mem_splitLines {s l : Str} (h : l ∈ splitLines s) : l <:+: s := by
  induction s using splitLines.induct generalizing l with
  | case1 => cases h
  | case2 c hc =>
    simp only [splitLines, hc, if_true, List.mem_singleton] at h
    rw [h]
    exact List.nil_infix
  | case3 c hc =>
    simp only [splitLines, hc, Bool.false_eq_true, if_false, List.mem_singleton] at h
    rw [h]
  | case4 c d s hcr ih =>
    simp only [splitLines, hcr, if_true] at h
    rcases List.mem_cons.mp h with rfl | h
    · exact List.nil_infix
    · exact (ih h).trans ⟨[c, d], [], by simp⟩
  | case5 c d s hcr hc ih =>
    simp only [splitLines, hcr, hc, Bool.false_eq_true, if_false, if_true] at h
    rcases List.mem_cons.mp h with rfl | h
    · exact List.nil_infix
    · exact List.infix_cons (ih h)
  | case6 c d s hcr hc ih =>
    have hplain : isLineBreak c = false := by simpa using hc
    rw [splitLines_cons hplain] at h
    obtain ⟨l', ls, hl⟩ := exists_splitLines_eq (s := d :: s) (by simp)
    rw [hl] at h ih
    rcases List.mem_cons.mp h with rfl | h
    · exact ((List.prefix_cons_inj c).mpr (prefix_of_splitLines hl)).isInfix
    · exact List.infix_cons (ih (List.mem_cons_of_mem _ h))

end Text

end Foundation
