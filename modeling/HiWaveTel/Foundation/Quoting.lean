import Mathlib.Tactic.Common

/- Quoted values. A reader takes what follows an opening quote: an escape character
   makes the next character literal, and a quote that is not escaped ends the value. A
   writer that escapes the quotes of a value but not the escape characters themselves
   is read back exactly when there are none: `readQuoted_escaped_iff`.

   The hard direction is that no later character makes good for a misread one. What is
   read of a written value is never longer than it (`readQuoted_escaped_length`), unless
   its last character escapes the closing quote and the value runs on. -/
namespace Foundation

section Quoting
variable {α : Type*} [DecidableEq α] (esc quote : α)

/-- Every quote escaped, and nothing else. -/
def escapeQuotes (w : List α) : List α := w.flatMap (fun c => if c = quote then [esc, quote] else [c])

/-- The value after an opening quote, and what follows its closing quote. -/
def readQuoted : List α → Option (List α × List α)
  | [] => none
  | [c] => if c = quote then some ([], []) else none
  | c :: d :: s =>
    if c = quote then some ([], d :: s)
    else if c = esc then (readQuoted s).map (fun p => (d :: p.1, p.2))
    else (readQuoted (d :: s)).map (fun p => (c :: p.1, p.2))

variable {esc quote}

theorem readQuoted_quote (s : List α) : readQuoted esc quote (quote :: s) = some ([], s) := by
  cases s <;> simp [readQuoted]

theorem readQuoted_esc (hne : esc ≠ quote) (d : α) (s : List α) :
    readQuoted esc quote (esc :: d :: s) =
      (readQuoted esc quote s).map (fun p => (d :: p.1, p.2)) := by
  simp [readQuoted, hne]

theorem readQuoted_plain {c : α} (hq : c ≠ quote) (he : c ≠ esc) (s : List α) :
    readQuoted esc quote (c :: s) = (readQuoted esc quote s).map (fun p => (c :: p.1, p.2)) := by
  cases s with
  | nil => simp [readQuoted, hq]
  | cons d s => simp only [readQuoted, hq, he, if_false]

theorem escapeQuotes_quote (w : List α) :
    escapeQuotes esc quote (quote :: w) = esc :: quote :: escapeQuotes esc quote w := by
  simp [escapeQuotes]

theorem escapeQuotes_plain {c : α} (hq : c ≠ quote) (w : List α) :
    escapeQuotes esc quote (c :: w) = c :: escapeQuotes esc quote w := by
  simp [escapeQuotes, hq]

/-- Without escape characters the value is read as it was. -/
theorem readQuoted_escaped_append (hne : esc ≠ quote) {u : List α} (hu : esc ∉ u) (s : List α) :
    readQuoted esc quote (escapeQuotes esc quote u ++ s) =
      (readQuoted esc quote s).map (fun p => (u ++ p.1, p.2)) := by
  induction u with
  | nil => simp [escapeQuotes]
  | cons c u ih =>
    rw [List.mem_cons, not_or] at hu
    have hrest := ih hu.2
    by_cases hq : c = quote
    · subst hq
      rw [escapeQuotes_quote, List.cons_append, List.cons_append, readQuoted_esc hne, hrest,
        Option.map_map]
      rfl
    · rw [escapeQuotes_plain hq, List.cons_append, readQuoted_plain hq (Ne.symm hu.1), hrest,
        Option.map_map]
      rfl

/-- What is read of a written value is no longer than it, unless its last character escapes
    the closing quote. -/
theorem readQuoted_escaped_length (hne : esc ≠ quote) (n : Nat) {w rest v r : List α}
    (hn : w.length ≤ n)
    (h : readQuoted esc quote (escapeQuotes esc quote w ++ quote :: rest) = some (v, r)) :
    v.length ≤ w.length ∨
      (w.getLast? = some esc ∧
        ∃ x y, v = x ++ quote :: y ∧ readQuoted esc quote rest = some (y, r)) := by
  induction n generalizing w v with
  | zero =>
    rw [List.length_eq_zero_iff.mp (Nat.le_zero.mp hn)] at h
    simp only [escapeQuotes, List.flatMap_nil, List.nil_append, readQuoted_quote] at h
    cases h
    exact Or.inl (Nat.zero_le _)
  | succ n ih =>
    -- one character read, and the rest of the value
    have hstep : ∀ (c : α) (w' : List α), w'.length ≤ n →
        ((readQuoted esc quote (escapeQuotes esc quote w' ++ quote :: rest)).map
          (fun p => (c :: p.1, p.2)) = some (v, r)) →
        v.length ≤ w'.length + 1 ∨
          (w'.getLast? = some esc ∧
            ∃ x y, v = x ++ quote :: y ∧ readQuoted esc quote rest = some (y, r)) := by
      intro c w' hw' hread
      obtain ⟨⟨v', r'⟩, hv', he⟩ := Option.map_eq_some_iff.mp hread
      cases he
      rcases ih hw' hv' with hlen | ⟨hlast, x, y, rfl, hy⟩
      · exact Or.inl (Nat.succ_le_succ hlen)
      · exact Or.inr ⟨hlast, c :: x, y, rfl, hy⟩
    cases w with
    | nil => exact ih (Nat.zero_le n) h
    | cons c w =>
      rw [List.length_cons] at hn ⊢
      have hlast : w.getLast? = some esc → (c :: w).getLast? = some esc := by
        intro hw
        cases w with
        | nil => cases hw
        | cons d w => rw [List.getLast?_cons_cons, hw]
      by_cases hq : c = quote
      · subst hq
        rw [escapeQuotes_quote, List.cons_append, List.cons_append, readQuoted_esc hne] at h
        exact (hstep _ w (by omega) h).imp id (And.imp_left hlast)
      · rw [escapeQuotes_plain hq, List.cons_append] at h
        by_cases he : c = esc
        · subst he
          cases w with
          | nil =>
            -- the closing quote is escaped
            simp only [escapeQuotes, List.flatMap_nil, List.nil_append, readQuoted_esc hne] at h
            obtain ⟨⟨y, r'⟩, hy, hv⟩ := Option.map_eq_some_iff.mp h
            cases hv
            exact Or.inr ⟨rfl, [], y, rfl, hy⟩
          | cons d w =>
            by_cases hd : d = quote
            · subst hd
              -- the quote's own escape character is escaped, and the quote ends the value
              rw [escapeQuotes_quote, List.cons_append, List.cons_append, readQuoted_esc hne,
                readQuoted_quote] at h
              cases h
              exact Or.inl (by simp)
            · rw [escapeQuotes_plain hd, List.cons_append, readQuoted_esc hne] at h
              rw [List.length_cons] at hn
              rcases hstep d w (by omega) h with hlen | ⟨hw, hrun⟩
              · refine Or.inl ?_
                rw [List.length_cons]
                omega
              · refine Or.inr ⟨?_, hrun⟩
                cases w with
                | nil => cases hw
                | cons e w => rw [List.getLast?_cons_cons, List.getLast?_cons_cons, hw]
        · rw [readQuoted_plain hq he] at h
          exact (hstep c w (by omega) h).imp id (And.imp_left hlast)

theorem escapeQuotes_append (u v : List α) :
    escapeQuotes esc quote (u ++ v) = escapeQuotes esc quote u ++ escapeQuotes esc quote v :=
  List.flatMap_append

/-- What follows the first escape character of a value is read wrong. -/
theorem readQuoted_escaped_esc (hne : esc ≠ quote) {v rest r : List α}
    (hrest : ∀ y r, readQuoted esc quote rest = some (y, r) → y.getLast? ≠ some esc) :
    readQuoted esc quote (esc :: (escapeQuotes esc quote v ++ quote :: rest)) ≠
      some (esc :: v, r) := by
  intro h
  cases v with
  | nil =>
    simp only [escapeQuotes, List.flatMap_nil, List.nil_append, readQuoted_esc hne] at h
    obtain ⟨p, _, he⟩ := Option.map_eq_some_iff.mp h
    exact hne (List.cons.inj (Prod.mk.inj he).1).1.symm
  | cons d v =>
    by_cases hd : d = quote
    · subst hd
      rw [escapeQuotes_quote, List.cons_append, List.cons_append, readQuoted_esc hne,
        readQuoted_quote] at h
      cases h
    · rw [escapeQuotes_plain hd, List.cons_append, readQuoted_esc hne] at h
      obtain ⟨⟨x, r'⟩, hx, he⟩ := Option.map_eq_some_iff.mp h
      obtain ⟨rfl, rfl⟩ := List.cons.inj (Prod.mk.inj he).1
      -- the rest would have to be read as one character more
      rcases readQuoted_escaped_length hne v.length (Nat.le_refl _) hx with
        hlen | ⟨hlast, x, y, hxy, hy⟩
      · rw [List.length_cons] at hlen
        omega
      · have hend : (d :: v).getLast? = some d := by
          cases v with
          | nil => rfl
          | cons e v => rw [List.getLast?_cons_cons, hlast]
        rw [hxy, List.getLast?_append, List.getLast?_cons] at hend
        cases hyl : y.getLast? with
        | none =>
          rw [hyl] at hend
          exact hne (Option.some.inj hend).symm
        | some e =>
          rw [hyl] at hend
          exact hrest y r' hy (hyl.trans hend)

theorem readQuoted_escaped_iff (hne : esc ≠ quote) {w rest r : List α}
    (hrest : ∀ y r, readQuoted esc quote rest = some (y, r) → y.getLast? ≠ some esc) :
    readQuoted esc quote (escapeQuotes esc quote w ++ quote :: rest) = some (w, r) ↔
      esc ∉ w ∧ r = rest := by
  constructor
  · intro h
    have hnot : esc ∉ w := by
      intro hmem
      obtain ⟨u, v, rfl, hu⟩ := List.eq_append_cons_of_mem hmem
      rw [escapeQuotes_append, List.append_assoc, readQuoted_escaped_append hne hu,
        escapeQuotes_plain hne] at h
      obtain ⟨⟨x, r'⟩, hx, he⟩ := Option.map_eq_some_iff.mp h
      obtain ⟨hv, rfl⟩ := Prod.mk.inj he
      obtain rfl : x = esc :: v := List.append_cancel_left hv
      exact readQuoted_escaped_esc hne hrest hx
    rw [readQuoted_escaped_append hne hnot, readQuoted_quote, Option.map_some,
      Option.some.injEq, Prod.mk.injEq] at h
    exact ⟨hnot, h.2.symm⟩
  · intro h
    rw [readQuoted_escaped_append hne h.1, readQuoted_quote, h.2]
    simp

end Quoting

end Foundation
