import Mathlib.Algebra.Group.Nat.Defs
import HiWaveTel.WebhookOutbox
import HiWaveTel.Isoformat
import HiWaveTel.JsonText

/- The body of a webhook request (`_post_json`): the payload of a row as JSON, in UTF-8.

   `posted_body_reads_back` — whatever the sender, the text and the state are, the bytes are
   read as the six fields of the payload, so that requests with different payloads have
   different bodies. -/
namespace HiWaveTel
open Foundation

namespace UtcDatetime

theorem instant_injective {x y : UtcDatetime} (h : x.instant = y.instant) :
    x.isoformat = y.isoformat := by
  have hfields : x.fields = y.fields :=
    le_antisymm ((le_iff_instant_le x y).mpr h.le) ((le_iff_instant_le y x).mpr h.ge)
  simp only [fields, List.cons.injEq, and_true] at hfields
  obtain ⟨hyear, hmonth, hday, hhour, hminute, hsecond, hmicrosecond⟩ := hfields
  simp only [isoformat, fraction, hyear, hmonth, hday, hhour, hminute, hsecond, hmicrosecond]

theorem instant_of_isoformat {x y : UtcDatetime} (h : x.isoformat = y.isoformat) :
    x.instant = y.instant := by
  have hle : x ≤ y := by
    rw [← isoformat_le, h, isoformat_le, le_iff_instant_le]
  have hge : y ≤ x := by
    rw [← isoformat_le, h, isoformat_le, le_iff_instant_le]
  exact le_antisymm ((le_iff_instant_le x y).mp hle) ((le_iff_instant_le y x).mp hge)

end UtcDatetime

/-- The payload as the dictionary it is, with the text of its time. -/
def payloadFields (p : Payload) (receivedAt : UtcDatetime) : List (Str × Json) :=
  [("id".toList, .num (Text.ofNat p.id)), ("sender".toList, .str p.sender),
    ("body".toList, .str p.body), ("modem_index".toList, .num (Text.ofNat p.modemIndex)),
    ("received_at".toList, .str receivedAt.isoformat), ("mm_state".toList, .str p.mmState)]

/-- `json.dumps(payload, ensure_ascii=False).encode('utf-8')`. -/
def postBody (p : Payload) (receivedAt : UtcDatetime) : List UInt8 :=
  Text.bytes (dumps (.obj (payloadFields p receivedAt)))

/-- What a receiver makes of the bytes. -/
def decodeBody (floatText : Str → Str) (body : List UInt8) : Option Json :=
  body.toByteArray.utf8Decode?.bind (fun chars => loads floatText chars.toList)

/-- The keys of the database have 64 bits. -/
def Payload.KeysFit (p : Payload) : Prop := p.id < 2 ^ 63 ∧ p.modemIndex < 2 ^ 63

theorem ofNat_head {n : Nat} (hn : n ≠ 0) : ∃ d ds, Text.ofNat n = d :: ds ∧ d ≠ '0' := by
  induction n using Nat.strongRecOn with
  | ind n ih =>
    by_cases hlt : n < 10
    · have hone : ∀ m < 10, m ≠ 0 → Nat.digitChar m ≠ '0' := by decide
      exact ⟨Nat.digitChar n, [], Nat.toDigits_of_lt_base hlt, hone n hlt hn⟩
    · obtain ⟨d, ds, hdigits, hd⟩ := ih (n / 10) (by omega) (by omega)
      refine ⟨d, ds ++ [Nat.digitChar (n % 10)], ?_, hd⟩
      rw [Text.ofNat, Nat.toDigits_of_base_le (by decide) (by omega), ← Text.ofNat, hdigits]
      rfl

/-- An integer that is not too long is read as it is written. -/
theorem numberPrintable_ofNat {floatText : Str → Str} {n : Nat} (hn : n < 2 ^ 63) :
    NumberPrintable floatText (Text.ofNat n) := by
  have hdigits : AllDigits (Text.ofNat n) :=
    fun c hc => Nat.isDigit_of_mem_toDigits (by decide) (by decide) hc
  have hshort : (Text.ofNat n).length ≤ 19 :=
    (Nat.length_toDigits_le_iff (by decide) (by decide)).mpr (Nat.lt_trans hn (by decide))
  have hint : Text.ofNat n = ['0'] ∨
      ∃ d ds, Text.ofNat n = d :: ds ∧ d ≠ '0' ∧ AllDigits (Text.ofNat n) := by
    by_cases hzero : n = 0
    · rw [hzero]
      exact Or.inl rfl
    · obtain ⟨d, ds, hhead, hd⟩ := ofNat_head hzero
      exact Or.inr ⟨d, ds, hhead, hd, hdigits⟩
  refine Or.inr ⟨⟨[], Text.ofNat n, [], []⟩, ⟨Or.inl rfl, hint, Or.inl rfl, Or.inl rfl⟩, ?_, ?_⟩
  · simp [NumberParts.text]
  -- `int` refuses more than 4300 digits, and a key has 19 at most
  · have hlong : ¬ 4300 < (Text.ofNat n).length := by omega
    simp only [numberText, NumberParts.isFloat, NumberParts.text, bne_self_eq_false, Bool.or_self,
      Bool.false_eq_true, if_false, List.nil_append, List.append_nil, hlong]
    by_cases hzero : Text.ofNat n = ['0']
    · rw [if_pos hzero, hzero]
    · rw [if_neg hzero]

theorem printable_payload {floatText : Str → Str} {p : Payload} (h : p.KeysFit)
    (receivedAt : UtcDatetime) : Printable floatText (.obj (payloadFields p receivedAt)) := by
  refine .obj ?_ ?_
  · have hkeys : (payloadFields p receivedAt).map Prod.fst =
        ["id", "sender", "body", "modem_index", "received_at", "mm_state"].map String.toList := rfl
    rw [hkeys]
    decide
  · intro kv hkv
    simp only [payloadFields, List.mem_cons, List.not_mem_nil, or_false] at hkv
    obtain rfl | rfl | rfl | rfl | rfl | rfl := hkv
    · exact .num (numberPrintable_ofNat h.1)
    · exact .str _
    · exact .str _
    · exact .num (numberPrintable_ofNat h.2)
    · exact .str _
    · exact .str _

theorem decodeBody_postBody (floatText : Str → Str) {p : Payload} (h : p.KeysFit)
    (receivedAt : UtcDatetime) :
    decodeBody floatText (postBody p receivedAt) = some (.obj (payloadFields p receivedAt)) := by
  have hdecode : (postBody p receivedAt).toByteArray.utf8Decode? =
      some (dumps (.obj (payloadFields p receivedAt))).toArray := List.utf8Decode?_utf8Encode
  rw [decodeBody, hdecode]
  exact loads_dumps (printable_payload h receivedAt)

/-- The fields of a payload say which payload it is. -/
theorem payload_of_fields {p q : Payload} {x y : UtcDatetime} (hx : x.instant = p.receivedAt)
    (hy : y.instant = q.receivedAt) (h : payloadFields p x = payloadFields q y) : p = q := by
  simp only [payloadFields, List.cons.injEq, Prod.mk.injEq, Json.num.injEq, Json.str.injEq,
    true_and, and_true] at h
  obtain ⟨hid, hsender, hbody, hmodem, htime, hstate⟩ := h
  have hreceived : p.receivedAt = q.receivedAt := by
    rw [← hx, ← hy]
    exact UtcDatetime.instant_of_isoformat htime
  cases p
  cases q
  simp only [Payload.mk.injEq]
  exact ⟨Text.ofNat_injective hid, hsender, hbody, Text.ofNat_injective hmodem, hreceived, hstate⟩

/-- Whatever the sender, the text and the state are: the bytes of the request are read as the six
    fields of the payload, and two requests have the same bytes only for the same payload. -/
theorem posted_body_reads_back (floatText : Str → Str) {p q : Payload} {x y : UtcDatetime}
    (hp : p.KeysFit) (hq : q.KeysFit) (hx : x.instant = p.receivedAt)
    (hy : y.instant = q.receivedAt) :
    decodeBody floatText (postBody p x) = some (.obj (payloadFields p x)) ∧
    (postBody p x = postBody q y ↔ p = q) := by
  refine ⟨decodeBody_postBody floatText hp x, ?_, ?_⟩
  · intro hsame
    have hread := decodeBody_postBody floatText hp x
    -- equal bytes are read as equal fields
    rw [hsame, decodeBody_postBody floatText hq y] at hread
    exact payload_of_fields hx hy (Json.obj.inj (Option.some.inj hread)).symm
  · intro hsame
    have htime : x.isoformat = y.isoformat :=
      UtcDatetime.instant_injective (hx.trans (hsame ▸ hy.symm))
    rw [postBody, postBody, payloadFields, payloadFields, hsame, htime]

theorem newYear_fields : (1 ≤ 2026 ∧ 2026 ≤ 9999) ∧ (1 ≤ 1 ∧ 1 ≤ 12) ∧
    (1 ≤ 1 ∧ 1 ≤ daysInMonth 2026 1) := by decide

/-- The first moment of 2026. -/
def newYear : UtcDatetime :=
  ⟨2026, 1, 1, 0, 0, 0, 0, newYear_fields.1, newYear_fields.2.1, newYear_fields.2.2,
    Nat.zero_lt_succ 23, Nat.zero_lt_succ 59, Nat.zero_lt_succ 59, Nat.zero_lt_succ 999999⟩

/-- A text with a quote and a line break is not that text without them. -/
theorem posted_body_reads_back_quote :
    (decodeBody id (postBody ⟨7, "+351".toList, "a\"\n".toList, 0, newYear.instant, []⟩
        newYear)).map dumps =
      some ("\x7b\"id\": 7, \"sender\": \"+351\", \"body\": \"a\\\"\\n\", ".toList ++
        "\"modem_index\": 0, \"received_at\": \"2026-01-01T00:00:00+00:00\", ".toList ++
        "\"mm_state\": \"\"\x7d".toList) ∧
    postBody ⟨7, "+351".toList, "a\"\n".toList, 0, newYear.instant, []⟩ newYear ≠
      postBody ⟨7, "+351".toList, "a".toList, 0, newYear.instant, []⟩ newYear := by
  have hp : Payload.KeysFit ⟨7, "+351".toList, "a\"\n".toList, 0, newYear.instant, []⟩ := by
    constructor <;> decide
  have hq : Payload.KeysFit ⟨7, "+351".toList, "a".toList, 0, newYear.instant, []⟩ := by
    constructor <;> decide
  obtain ⟨hread, hsame⟩ := posted_body_reads_back id hp hq (x := newYear) (y := newYear) rfl rfl
  refine ⟨?_, ?_⟩
  · rw [hread]
    decide +kernel
  · intro hbodies
    exact absurd (congrArg Payload.body (hsame.mp hbodies)) (by decide)
end HiWaveTel
