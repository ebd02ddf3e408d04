import HiWaveTel.DeadLetterQueue
import HiWaveTel.Foundation.Decimal

/- The times of the dead-letter queue as they are stored: `datetime.isoformat()` in UTC, which
   SQLite compares byte by byte. The text has two lengths, since microseconds are left out when
   they are zero, and then a `+` stands where the other texts have a `.`, which comes after it.

   `isoformat_le` is the order of the texts, field by field; `le_iff_instant_le` is that of the
   points in time, and `dueStored_eq` carries the batch of `dequeue_batch` over from the one to
   the other. -/
namespace HiWaveTel
open Foundation

/-! ## datetime -/

/-- `calendar.isleap`. -/
def isLeap (year : Nat) : Bool := year % 4 == 0 && (year % 100 != 0 || year % 400 == 0)

def daysInMonth (year month : Nat) : Nat :=
  match month with
  | 2 => if isLeap year then 29 else 28
  | 4 | 6 | 9 | 11 => 30
  | _ => 31

/-- A `datetime` in UTC. -/
structure UtcDatetime where
  year : Nat
  month : Nat
  day : Nat
  hour : Nat
  minute : Nat
  second : Nat
  microsecond : Nat
  year_mem : 1 ≤ year ∧ year ≤ 9999
  month_mem : 1 ≤ month ∧ month ≤ 12
  day_mem : 1 ≤ day ∧ day ≤ daysInMonth year month
  hour_lt : hour < 24
  minute_lt : minute < 60
  second_lt : second < 60
  microsecond_lt : microsecond < 1000000

namespace UtcDatetime

/-- What the comparison of two datetimes looks at, in this order. -/
def fields (x : UtcDatetime) : List Nat :=
  [x.year, x.month, x.day, x.hour, x.minute, x.second, x.microsecond]

instance : LE UtcDatetime := ⟨fun x y => x.fields ≤ y.fields⟩

instance (x y : UtcDatetime) : Decidable (x ≤ y) :=
  inferInstanceAs (Decidable (x.fields ≤ y.fields))

/-- The microseconds of the text, and the offset. -/
def fraction (x : UtcDatetime) : Str :=
  (if x.microsecond = 0 then [] else '.' :: Text.zeroPadded 6 x.microsecond) ++ "+00:00".toList

/-- `isoformat()`. -/
def isoformat (x : UtcDatetime) : Str :=
  Text.zeroPadded 4 x.year ++ '-' :: (Text.zeroPadded 2 x.month ++ '-' ::
    (Text.zeroPadded 2 x.day ++ 'T' :: (Text.zeroPadded 2 x.hour ++ ':' ::
      (Text.zeroPadded 2 x.minute ++ ':' :: (Text.zeroPadded 2 x.second ++ x.fraction)))))

end UtcDatetime

/-! ## The order of the texts -/

/-- A padded field in front of texts that are ordered as the other fields are. -/
theorem field_le {w n m : Nat} (hw : 0 < w) (hn : n < 10 ^ w) (hm : m < 10 ^ w) {s t : Str}
    {as bs : List Nat} (h : Text.bytes s ≤ Text.bytes t ↔ as ≤ bs) :
    Text.bytes (Text.zeroPadded w n ++ s) ≤ Text.bytes (Text.zeroPadded w m ++ t) ↔
      n :: as ≤ m :: bs := by
  rw [Text.bytes_zeroPadded_le hw hn hm, h, cons_le_iff]

theorem separator_le {c : Char} (hc : Text.isAscii c = true) {s t : Str} {as bs : List Nat}
    (h : Text.bytes s ≤ Text.bytes t ↔ as ≤ bs) :
    Text.bytes (c :: s) ≤ Text.bytes (c :: t) ↔ as ≤ bs := by
  rw [Text.bytes_cons_le_same hc, h]

/-- A text without microseconds goes on with `+`, before the `.` of the others. -/
theorem fraction_le (x y : UtcDatetime) :
    Text.bytes x.fraction ≤ Text.bytes y.fraction ↔ [x.microsecond] ≤ [y.microsecond] := by
  have hplus : "+00:00".toList = '+' :: "00:00".toList := by decide
  unfold UtcDatetime.fraction
  by_cases hx : x.microsecond = 0
  · by_cases hy : y.microsecond = 0
    · simp [hx, hy]
    · -- the `+` of the offset against the `.` of the microseconds
      rw [if_pos hx, if_neg hy, List.nil_append, List.cons_append, hplus,
        Text.bytes_cons_le (by decide) (by decide), cons_le_iff]
      simp [hx]
      omega
  · by_cases hy : y.microsecond = 0
    · rw [if_neg hx, if_pos hy, List.nil_append, List.cons_append, hplus,
        Text.bytes_cons_le (by decide) (by decide), cons_le_iff]
      simp [hy, hx]
    · rw [if_neg hx, if_neg hy, List.cons_append, List.cons_append]
      apply separator_le (by decide)
      apply field_le (by decide) x.microsecond_lt y.microsecond_lt
      simp

theorem isoformat_le (x y : UtcDatetime) :
    Text.bytes x.isoformat ≤ Text.bytes y.isoformat ↔ x ≤ y := by
  have hmonth : ∀ z : UtcDatetime, z.month < 10 ^ 2 := fun z => by
    have hmem := z.month_mem
    omega
  have hday : ∀ z : UtcDatetime, z.day < 10 ^ 2 := fun z => by
    have hmem := z.day_mem
    have hle : daysInMonth z.year z.month ≤ 31 := by
      unfold daysInMonth
      split
      · split <;> decide
      · decide
      · decide
      · decide
      · decide
      · decide
    omega
  apply field_le (by decide) (by have := x.year_mem; omega) (by have := y.year_mem; omega)
  apply separator_le (by decide)
  apply field_le (by decide) (hmonth x) (hmonth y)
  apply separator_le (by decide)
  apply field_le (by decide) (hday x) (hday y)
  apply separator_le (by decide)
  apply field_le (by decide) (by have := x.hour_lt; omega) (by have := y.hour_lt; omega)
  apply separator_le (by decide)
  apply field_le (by decide) (by have := x.minute_lt; omega) (by have := y.minute_lt; omega)
  apply separator_le (by decide)
  apply field_le (by decide) (by have := x.second_lt; omega) (by have := y.second_lt; omega)
  exact fraction_le x y

/-! ## Points in time -/

/-- The days of the months before this one. -/
def daysBeforeMonth (year : Nat) : Nat → Nat
  | 0 => 0
  | 1 => 0
  | month + 2 => daysBeforeMonth year (month + 1) + daysInMonth year (month + 1)

def daysInYear (year : Nat) : Nat := if isLeap year then 366 else 365

/-- The days of the years before this one. -/
def daysBeforeYear (year : Nat) : Nat :=
  (year - 1) * 365 + (year - 1) / 4 - (year - 1) / 100 + (year - 1) / 400

namespace UtcDatetime

/-- `toordinal()`, which is 1 for the first of January of the year 1. -/
def toordinal (x : UtcDatetime) : Nat :=
  daysBeforeYear x.year + (daysBeforeMonth x.year x.month + x.day)

/-- The microseconds since the day before that one. -/
def instant (x : UtcDatetime) : Nat :=
  x.toordinal * 86400000000 + (x.hour * 3600000000 + x.minute * 60000000 + x.second * 1000000 +
    x.microsecond)

end UtcDatetime

theorem daysBeforeYear_succ {year : Nat} (h : 1 ≤ year) :
    daysBeforeYear (year + 1) = daysBeforeYear year + daysInYear year := by
  obtain ⟨m, rfl⟩ := Nat.exists_eq_add_of_le' h
  have hleap : isLeap (m + 1) =
      decide ((m + 1) % 4 = 0 ∧ ((m + 1) % 100 ≠ 0 ∨ (m + 1) % 400 = 0)) := by
    simp [isLeap, Bool.decide_and, Bool.decide_or, bne, beq_eq_decide]
  have hfours : 100 ∣ m + 1 → 4 ∣ m + 1 := fun hdvd => Nat.dvd_trans (by decide) hdvd
  have hhundreds : 400 ∣ m + 1 → 100 ∣ m + 1 := fun hdvd => Nat.dvd_trans (by decide) hdvd
  unfold daysBeforeYear daysInYear
  rw [hleap, Nat.add_sub_cancel, Nat.add_sub_cancel, Nat.succ_div, Nat.succ_div, Nat.succ_div]
  simp only [Nat.dvd_iff_mod_eq_zero, decide_eq_true_eq] at hfours hhundreds ⊢
  have hle : m / 100 ≤ m / 4 := Nat.div_le_div_left (by decide) (by decide)
  generalize m / 100 = hundreds at hle ⊢
  generalize m / 400 = fourHundreds
  generalize m / 4 = fours at hle ⊢
  by_cases h400 : (m + 1) % 400 = 0
  · have h100 := hhundreds h400
    have h4 := hfours h100
    simp only [h4, h100, h400, if_true, ne_eq, not_true, or_true, and_true]
    omega
  · by_cases h100 : (m + 1) % 100 = 0
    · have h4 := hfours h100
      simp only [h4, h100, h400, if_true, if_false, ne_eq, not_true, or_false, and_false]
      omega
    · by_cases h4 : (m + 1) % 4 = 0
      · simp only [h4, h100, h400, if_true, if_false, ne_eq, not_false_iff, or_false, and_true]
        omega
      · simp only [h4, h100, h400, if_false, false_and]
        omega

theorem daysBeforeYear_le {year year' : Nat} (h : 1 ≤ year) (hlt : year < year') :
    daysBeforeYear year + daysInYear year ≤ daysBeforeYear year' := by
  induction year', hlt using Nat.le_induction with
  | base => exact (daysBeforeYear_succ h).ge
  | succ year' hle ih =>
    rw [daysBeforeYear_succ (by omega)]
    omega

theorem daysBeforeMonth_succ {month : Nat} (h : 1 ≤ month) (year : Nat) :
    daysBeforeMonth year (month + 1) = daysBeforeMonth year month + daysInMonth year month := by
  obtain ⟨m, rfl⟩ := Nat.exists_eq_add_of_le' h
  rfl

theorem daysBeforeMonth_le {year month month' : Nat} (h : 1 ≤ month) (hlt : month < month') :
    daysBeforeMonth year month + daysInMonth year month ≤ daysBeforeMonth year month' := by
  induction month', hlt using Nat.le_induction with
  | base => exact (daysBeforeMonth_succ h year).ge
  | succ month' hle ih =>
    rw [daysBeforeMonth_succ (by omega)]
    omega

theorem daysBeforeMonth_year (year : Nat) : daysBeforeMonth year 13 = daysInYear year := by
  unfold daysInYear
  simp only [daysBeforeMonth, daysInMonth]
  split <;> rfl

/-- The date decides, and the days of a date fit between those of the dates around it. -/
theorem toordinal_lt {x y : UtcDatetime}
    (h : x.year < y.year ∨ x.year = y.year ∧ (x.month < y.month ∨ x.month = y.month ∧
      x.day < y.day)) : x.toordinal < y.toordinal := by
  have hx : daysBeforeMonth x.year x.month + x.day ≤ daysInYear x.year := by
    have hday := x.day_mem.2
    have hmonth := @daysBeforeMonth_le x.year _ _ x.month_mem.1
      (Nat.lt_succ_of_le x.month_mem.2)
    rw [daysBeforeMonth_year] at hmonth
    omega
  have hy := y.day_mem.1
  unfold UtcDatetime.toordinal
  rcases h with hyear | ⟨hyear, hmonth | ⟨hmonth, hday⟩⟩
  · have hle := daysBeforeYear_le x.year_mem.1 hyear
    omega
  · have hday := x.day_mem.2
    have hle := @daysBeforeMonth_le x.year _ _ x.month_mem.1 hmonth
    rw [← hyear]
    omega
  · rw [← hyear, ← hmonth]
    omega

/-- The order of two datetimes is that of the points in time they stand for. -/
theorem le_iff_instant_le (x y : UtcDatetime) : x ≤ y ↔ x.instant ≤ y.instant := by
  have hfields : x ≤ y ↔ x.fields ≤ y.fields := Iff.rfl
  have hxtime := x.hour_lt
  have hytime := y.hour_lt
  have hxminute := x.minute_lt
  have hyminute := y.minute_lt
  have hxsecond := x.second_lt
  have hysecond := y.second_lt
  have hxmicro := x.microsecond_lt
  have hymicro := y.microsecond_lt
  rw [hfields]
  simp only [UtcDatetime.fields, cons_le_iff, UtcDatetime.instant, le_refl, and_true]
  -- the dates decide, or they are the same
  by_cases hxy : x.year < y.year ∨ x.year = y.year ∧ (x.month < y.month ∨ x.month = y.month ∧
      x.day < y.day)
  · have hlt := toordinal_lt hxy
    omega
  · by_cases hyx : y.year < x.year ∨ y.year = x.year ∧ (y.month < x.month ∨ y.month = x.month ∧
        y.day < x.day)
    · have hlt := toordinal_lt hyx
      omega
    · have hyear : x.year = y.year := by omega
      have hmonth : x.month = y.month := by omega
      have hday : x.day = y.day := by omega
      have hsame : x.toordinal = y.toordinal := by
        unfold UtcDatetime.toordinal
        rw [hyear, hmonth, hday]
      omega

/-! ## dequeue_batch on the stored times -/

/-- A row of `sms_dlq` whose time columns hold the text of these times. -/
structure StoredDlqRow where
  id : Nat
  smsPath : Str
  modemIndex : Nat
  failedAt : UtcDatetime
  retryCount : Nat
  lastError : Str
  nextRetryAt : Option UtcDatetime

namespace StoredDlqRow

/-- The row with its points in time. -/
def row (r : StoredDlqRow) : DlqRow :=
  { id := r.id, smsPath := r.smsPath, modemIndex := r.modemIndex, failedAt := r.failedAt.instant
    retryCount := r.retryCount, lastError := r.lastError
    nextRetryAt := r.nextRetryAt.map UtcDatetime.instant }

/-- `next_retry_at IS NULL OR next_retry_at <= ?`. -/
def retryDue (now : UtcDatetime) (r : StoredDlqRow) : Bool :=
  r.nextRetryAt.elim true (fun at_ => decide (Text.bytes at_.isoformat ≤ Text.bytes now.isoformat))

/-- `failed_at ASC`. -/
def failedBefore (a b : StoredDlqRow) : Prop :=
  Text.bytes a.failedAt.isoformat ≤ Text.bytes b.failedAt.isoformat

instance (a b : StoredDlqRow) : Decidable (failedBefore a b) :=
  inferInstanceAs (Decidable (Text.bytes _ ≤ Text.bytes _))

end StoredDlqRow

/-- The rows of the SELECT of `dequeue_batch`. -/
def dueStored (cfg : DlqSettings) (rows : List StoredDlqRow) (now : UtcDatetime) :
    List StoredDlqRow :=
  (rows.filter (fun r => decide (r.retryCount < cfg.maxRetries) && r.retryDue now)).insertionSort
    StoredDlqRow.failedBefore

theorem retryDue_eq_true {now : UtcDatetime} {r : StoredDlqRow} :
    r.retryDue now = true ↔ ∀ at_, r.nextRetryAt = some at_ → at_ ≤ now := by
  unfold StoredDlqRow.retryDue
  cases r.nextRetryAt with
  | none => simp
  | some at_ => simp [isoformat_le]

theorem row_nextRetryAt (r : StoredDlqRow) :
    r.row.nextRetryAt = r.nextRetryAt.map UtcDatetime.instant := rfl

theorem row_failedAt (r : StoredDlqRow) : r.row.failedAt = r.failedAt.instant := rfl

theorem failedBefore_iff (a b : StoredDlqRow) :
    a.failedBefore b ↔ a.row.failedAt ≤ b.row.failedAt := by
  rw [row_failedAt, row_failedAt, ← le_iff_instant_le, ← isoformat_le, StoredDlqRow.failedBefore]

instance : Std.Total StoredDlqRow.failedBefore where
  total a b := by
    rw [failedBefore_iff, failedBefore_iff]
    exact Nat.le_total _ _

instance : IsTrans StoredDlqRow StoredDlqRow.failedBefore where
  trans a b c := by
    rw [failedBefore_iff, failedBefore_iff, failedBefore_iff]
    exact Nat.le_trans

theorem retryDue_eq (now : UtcDatetime) (r : StoredDlqRow) :
    r.retryDue now = r.row.nextRetryAt.elim true (fun at_ => decide (at_ ≤ now.instant)) := by
  rw [row_nextRetryAt, StoredDlqRow.retryDue]
  cases r.nextRetryAt with
  | none => rfl
  | some at_ =>
    rw [Option.map_some, Option.elim_some, Option.elim_some]
    apply decide_eq_decide.mpr
    rw [isoformat_le, le_iff_instant_le]

/-- The batch of the stored rows is that of the rows with their points in time. -/
theorem dueStored_eq (cfg : DlqSettings) (t : DlqTable) (rows : List StoredDlqRow)
    (now : UtcDatetime) (h : rows.map StoredDlqRow.row = t.rows) :
    (dueStored cfg rows now).map StoredDlqRow.row = dueRows cfg t now.instant := by
  have hselected : (fun r : StoredDlqRow =>
      decide (r.retryCount < cfg.maxRetries) && r.retryDue now) =
      (fun r : DlqRow => decide (r.retryCount < cfg.maxRetries) &&
        (r.nextRetryAt.elim true (fun at_ => decide (at_ ≤ now.instant)))) ∘
          StoredDlqRow.row := by
    funext r
    rw [retryDue_eq, Function.comp_apply]
    rfl
  unfold dueStored dueRows
  rw [← h, List.filter_map, ← hselected]
  exact List.map_insertionSort _ _ _ _ (fun a _ b _ => failedBefore_iff a b)

/-- The texts are in the order of the times, so the SELECT takes exactly the rows whose retry time
    has come, those first that failed first. -/
theorem isoformat_orders :
    (∀ x y : UtcDatetime, Text.bytes x.isoformat ≤ Text.bytes y.isoformat ↔ x ≤ y) ∧
    ∀ (cfg : DlqSettings) (rows : List StoredDlqRow) (now : UtcDatetime),
      (∀ r, r ∈ dueStored cfg rows now ↔ r ∈ rows ∧ r.retryCount < cfg.maxRetries ∧
        ∀ at_, r.nextRetryAt = some at_ → at_ ≤ now) ∧
      (dueStored cfg rows now).Pairwise (fun a b => a.failedAt ≤ b.failedAt) := by
  refine ⟨isoformat_le, ?_⟩
  intro cfg rows now
  refine ⟨?_, ?_⟩
  · intro r
    rw [dueStored, List.mem_insertionSort, List.mem_filter, Bool.and_eq_true, decide_eq_true_eq,
      retryDue_eq_true]
  · have hsorted : (dueStored cfg rows now).Pairwise StoredDlqRow.failedBefore :=
      List.pairwise_insertionSort StoredDlqRow.failedBefore _
    exact hsorted.imp (fun hle => (isoformat_le _ _).mp hle)

end HiWaveTel
