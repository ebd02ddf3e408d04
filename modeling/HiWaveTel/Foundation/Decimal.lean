import Mathlib.Data.List.Lex
import Mathlib.Data.UInt
import HiWaveTel.Foundation.Text

/- Numbers as text of a fixed width, and the order of text by its bytes: `memcmp`, with a shorter
   text before its continuations. Two zero-padded numbers of one width are ordered as the numbers,
   whatever follows them (`bytes_zeroPadded_le`), so that records of such numbers are ordered field
   by field. -/
namespace Foundation

namespace Text

/-- The UTF-8 bytes of a text; lists of bytes are ordered as by `memcmp`. -/
def bytes (s : Str) : List UInt8 := s.flatMap String.utf8EncodeChar

/-- `'%0wd' % n`. -/
def zeroPadded (w n : Nat) : Str := List.leftpad w '0' (ofNat n)

/-- One byte in UTF-8. -/
def isAscii (c : Char) : Bool := decide (c.toNat < 128)

theorem bytes_cons {c : Char} (h : isAscii c = true) (s : Str) :
    bytes (c :: s) = c.val.toUInt8 :: bytes s := by
  have hlt : c.toNat < 128 := of_decide_eq_true h
  have hsize : c.utf8Size = 1 := by
    rw [Char.utf8Size_eq_one_iff, UInt32.le_iff_toNat_le]
    show c.toNat ≤ 127
    omega
  rw [bytes, List.flatMap_cons, String.utf8EncodeChar_eq_singleton hsize]
  rfl

theorem byte_lt_iff {c d : Char} (hc : isAscii c = true) (hd : isAscii d = true) :
    c.val.toUInt8 < d.val.toUInt8 ↔ c.toNat < d.toNat := by
  have hc' : c.val.toNat < 128 := of_decide_eq_true hc
  have hd' : d.val.toNat < 128 := of_decide_eq_true hd
  rw [UInt8.lt_iff_toNat_lt, UInt32.toNat_toUInt8, UInt32.toNat_toUInt8,
    Nat.mod_eq_of_lt (by omega), Nat.mod_eq_of_lt (by omega)]
  rfl

theorem byte_eq_iff {c d : Char} (hc : isAscii c = true) (hd : isAscii d = true) :
    c.val.toUInt8 = d.val.toUInt8 ↔ c.toNat = d.toNat := by
  have hc' : c.val.toNat < 128 := of_decide_eq_true hc
  have hd' : d.val.toNat < 128 := of_decide_eq_true hd
  rw [← UInt8.toNat_inj, UInt32.toNat_toUInt8, UInt32.toNat_toUInt8,
    Nat.mod_eq_of_lt (by omega), Nat.mod_eq_of_lt (by omega)]
  rfl

/-- The first characters decide, or what follows them does. -/
theorem bytes_cons_le {c d : Char} (hc : isAscii c = true) (hd : isAscii d = true) (s t : Str) :
    bytes (c :: s) ≤ bytes (d :: t) ↔
      c.toNat < d.toNat ∨ c.toNat = d.toNat ∧ bytes s ≤ bytes t := by
  rw [bytes_cons hc, bytes_cons hd, List.cons_le_cons_iff, byte_lt_iff hc hd, byte_eq_iff hc hd]

theorem bytes_cons_le_same {c : Char} (hc : isAscii c = true) (s t : Str) :
    bytes (c :: s) ≤ bytes (c :: t) ↔ bytes s ≤ bytes t := by
  rw [bytes_cons_le hc hc]
  simp

/-- A padded number ends with its last digit. -/
theorem zeroPadded_succ {w : Nat} (hw : 0 < w) (n : Nat) :
    zeroPadded (w + 1) n = zeroPadded w (n / 10) ++ [Nat.digitChar (n % 10)] := by
  have hdigit : n % 10 < 10 := Nat.mod_lt n (by decide)
  unfold zeroPadded List.leftpad ofNat
  rcases Nat.lt_or_ge n 10 with hlt | hge
  · obtain ⟨v, rfl⟩ := Nat.exists_eq_succ_of_ne_zero (Nat.ne_of_gt hw)
    rw [Nat.div_eq_of_lt hlt, Nat.mod_eq_of_lt hlt, Nat.toDigits_of_lt_base hlt,
      Nat.toDigits_of_lt_base (by decide)]
    have hpad : List.replicate (v + 1) '0' = List.replicate v '0' ++ ['0'] :=
      List.replicate_succ'
    have hzero : Nat.digitChar 0 = '0' := rfl
    simp [hpad, hzero]
  · have hsplit : Nat.toDigits 10 n = Nat.toDigits 10 (n / 10) ++ [Nat.digitChar (n % 10)] := by
      have happend := Nat.toDigits_append_toDigits (b := 10) (n := n / 10) (d := n % 10)
        (by decide) (by omega) hdigit
      rw [Nat.div_add_mod, Nat.toDigits_of_lt_base hdigit] at happend
      exact happend.symm
    rw [hsplit, List.length_append, List.length_singleton, Nat.add_sub_add_right, List.append_assoc]

theorem isAscii_digitChar {d : Nat} (hd : d < 10) : isAscii (Nat.digitChar d) = true := by
  have hcode := Nat.toNat_digitChar_of_lt_ten hd
  exact decide_eq_true (by omega)

theorem bytes_digit_le {a b : Nat} (ha : a < 10) (hb : b < 10) (s t : Str) :
    bytes (Nat.digitChar a :: s) ≤ bytes (Nat.digitChar b :: t) ↔
      a < b ∨ a = b ∧ bytes s ≤ bytes t := by
  rw [bytes_cons_le (isAscii_digitChar ha) (isAscii_digitChar hb),
    Nat.toNat_digitChar_of_lt_ten ha, Nat.toNat_digitChar_of_lt_ten hb]
  simp

/-- The numbers decide, or what follows them does. -/
theorem bytes_zeroPadded_le {w : Nat} (hw : 0 < w) {n m : Nat} (hn : n < 10 ^ w) (hm : m < 10 ^ w)
    (s t : Str) :
    bytes (zeroPadded w n ++ s) ≤ bytes (zeroPadded w m ++ t) ↔
      n < m ∨ n = m ∧ bytes s ≤ bytes t := by
  induction w, hw using Nat.le_induction generalizing n m s t with
  | base =>
    have hone : ∀ {k : Nat}, k < 10 ^ 1 → zeroPadded 1 k = [Nat.digitChar k] := by
      intro k hk
      have hlt : k < 10 := hk
      rw [zeroPadded, ofNat, Nat.toDigits_of_lt_base hlt]
      rfl
    rw [hone hn, hone hm, List.singleton_append, List.singleton_append]
    exact bytes_digit_le hn hm s t
  | succ w hw ih =>
    have hdigit : ∀ k, k % 10 < 10 := fun k => Nat.mod_lt k (by decide)
    have hfront : ∀ {k}, k < 10 ^ (w + 1) → k / 10 < 10 ^ w := by
      intro k hk
      rw [pow_succ, Nat.mul_comm] at hk
      exact Nat.div_lt_of_lt_mul hk
    rw [zeroPadded_succ hw, zeroPadded_succ hw, List.append_assoc, List.append_assoc,
      ih (hfront hn) (hfront hm), List.singleton_append, List.singleton_append,
      bytes_digit_le (hdigit n) (hdigit m)]
    by_cases hrest : bytes s ≤ bytes t
    · simp only [hrest, and_true]
      omega
    · simp only [hrest, and_false, or_false]
      omega

end Text

/-- The first fields decide, or those after them do. -/
theorem cons_le_iff {α : Type} [LinearOrder α] {a b : α} {as bs : List α} :
    a :: as ≤ b :: bs ↔ a < b ∨ a = b ∧ as ≤ bs := by
  rw [le_iff_lt_or_eq, List.cons_lt_cons_iff, le_iff_lt_or_eq, List.cons.injEq]
  tauto

end Foundation
