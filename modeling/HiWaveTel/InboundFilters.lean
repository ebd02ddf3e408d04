import HiWaveTel.MmcliClient
import Mathlib.Data.List.MinMax

/- The echo filter (`inbound_filters.py`). ModemManager lists the messages a modem
   sends next to those it receives, so an outbound send comes back as an inbound
   row; `find_matching_outbound` looks for the outbound row it would be an echo of.
   It has three routes: the object path (no time limit), the text of a row whose
   state says it was sent, and the text together with the sender, the last two
   among the outbound rows of the same modem in a 15 minute window.
   `inboundShouldSkipWebhook_iff` says exactly which outbound rows suppress an
   inbound webhook. -/
namespace HiWaveTel
open Foundation

/-- `services._normalize_mm_state`; the filter writes the same expression inline. -/
def normalizeMmState (state : Str) : Str := Text.lower (Text.strip state)

/-- `_ECHO_WINDOW_MINUTES`, in microseconds. -/
def echoWindow : Nat := 15 * 60 * 1000000

/-- `_OUTBOUND_MM_STATES`. -/
def outboundMmStates : List Str := ["sent", "delivered", "sending"].map String.toList

/-- Wait until the snapshot has a sender or a body before notifying. -/
def inboundReadyForWebhook (inbound : InboundSms) : Bool :=
  Text.strip inbound.text != [] || Text.strip inbound.fromNumber != []

/-- `.order_by('-pk').first()`. -/
def newest (rows : List OutboundSms) : Option OutboundSms := rows.argmax OutboundSms.pk

/-- `OutboundSms.objects.filter(mm_path=mm_path).exclude(state=FAILED)`. -/
def pathQs (outbound : Table OutboundSms) (mmPath : Str) : List OutboundSms :=
  outbound.rows.filter (fun o => o.mmPath == mmPath && o.state != .failed)

/-- `base_qs`: same modem, same text, young enough, not failed. -/
def baseQs (outbound : Table OutboundSms) (now modemIndex : Nat) (body : Str) : List OutboundSms :=
  outbound.rows.filter (fun o => o.modemIndex == modemIndex && o.text == body &&
    decide (now ≤ o.createdAt + echoWindow) && o.state != .failed)

/-- The part of `find_matching_outbound` below the path lookup. -/
def findByText (outbound : Table OutboundSms) (now : Nat) (inbound : InboundSms) :
    Option OutboundSms :=
  let body := Text.strip inbound.text
  if body = [] then none
  else
    let qs := baseQs outbound now inbound.modemIndex body
    if normalizeMmState inbound.mmState ∈ outboundMmStates then newest qs
    else
      let sender := Text.strip inbound.fromNumber
      if sender = [] then none
      else newest (qs.filter (fun o => o.toNumber == sender && o.state == .sent))

/-- The outbound row when the inbound row is the echo of an API send. -/
def findMatchingOutbound (outbound : Table OutboundSms) (now : Nat) (inbound : InboundSms) :
    Option OutboundSms :=
  let mmPath := Text.strip inbound.mmPath
  match (if mmPath = [] then none else newest (pathQs outbound mmPath)) with
  | some o => some o
  | none => findByText outbound now inbound

def inboundShouldSkipWebhook (outbound : Table OutboundSms) (now : Nat) (inbound : InboundSms) :
    Bool :=
  (findMatchingOutbound outbound now inbound).isSome

/-! ## The three routes, as relations between an outbound and an inbound row -/

/-- `o` carries the path of `r`, whatever its age, text or state short of FAILED. -/
def PathEcho (o : OutboundSms) (r : InboundSms) : Prop :=
  Text.strip r.mmPath ≠ [] ∧ o.mmPath = Text.strip r.mmPath ∧ o.state ≠ .failed

/-- `o` is a young row of the same modem with the text of `r`. -/
def TextEcho (now : Nat) (o : OutboundSms) (r : InboundSms) : Prop :=
  Text.strip r.text ≠ [] ∧ o.modemIndex = r.modemIndex ∧ o.text = Text.strip r.text ∧
    now ≤ o.createdAt + echoWindow ∧ o.state ≠ .failed

/-- `o` was sent to the sender of `r` a short while ago, with the text of `r`. -/
def ReplyEcho (now : Nat) (o : OutboundSms) (r : InboundSms) : Prop :=
  TextEcho now o r ∧ Text.strip r.fromNumber ≠ [] ∧ o.toNumber = Text.strip r.fromNumber ∧
    o.state = .sent

instance (o : OutboundSms) (r : InboundSms) : Decidable (PathEcho o r) :=
  inferInstanceAs (Decidable (_ ∧ _ ∧ _))

instance (now : Nat) (o : OutboundSms) (r : InboundSms) : Decidable (TextEcho now o r) :=
  inferInstanceAs (Decidable (_ ∧ _ ∧ _ ∧ _ ∧ _))

instance (now : Nat) (o : OutboundSms) (r : InboundSms) : Decidable (ReplyEcho now o r) :=
  inferInstanceAs (Decidable (_ ∧ _ ∧ _ ∧ _))

theorem newest_isSome (rows : List OutboundSms) : (newest rows).isSome = true ↔ ∃ o, o ∈ rows := by
  unfold newest
  rw [Option.isSome_iff_ne_none, ne_eq, List.argmax_eq_none]
  exact ⟨List.exists_mem_of_ne_nil rows, fun ⟨o, ho⟩ => List.ne_nil_of_mem ho⟩

theorem newest_mem {rows : List OutboundSms} {o : OutboundSms} (h : newest rows = some o) :
    o ∈ rows := List.argmax_mem (Option.mem_def.mpr h)

theorem mem_pathQs {outbound : Table OutboundSms} {r : InboundSms} {o : OutboundSms}
    (hp : Text.strip r.mmPath ≠ []) :
    o ∈ pathQs outbound (Text.strip r.mmPath) ↔ o ∈ outbound.rows ∧ PathEcho o r := by
  simp [pathQs, PathEcho, hp]

theorem mem_baseQs {outbound : Table OutboundSms} {now : Nat} {r : InboundSms} {o : OutboundSms}
    (hb : Text.strip r.text ≠ []) :
    o ∈ baseQs outbound now r.modemIndex (Text.strip r.text) ↔
      o ∈ outbound.rows ∧ TextEcho now o r := by
  simp [baseQs, TextEcho, hb, and_assoc]

/-- Below the path lookup: a text echo for a row in a sent state, else a reply echo. -/
theorem findByText_isSome (outbound : Table OutboundSms) (now : Nat) (r : InboundSms) :
    (findByText outbound now r).isSome = true ↔
      ∃ o ∈ outbound.rows, if normalizeMmState r.mmState ∈ outboundMmStates
        then TextEcho now o r else ReplyEcho now o r := by
  unfold findByText
  by_cases hb : Text.strip r.text = []
  · simp [hb, TextEcho, ReplyEcho]
  · simp only [hb, if_false]
    by_cases hs : normalizeMmState r.mmState ∈ outboundMmStates
    · simp only [hs, if_true, newest_isSome, mem_baseQs hb]
    · simp only [hs, if_false]
      by_cases hf : Text.strip r.fromNumber = []
      · simp [hf, ReplyEcho]
      · simp only [hf, if_false, newest_isSome, List.mem_filter, mem_baseQs hb]
        simp [ReplyEcho, hf, and_assoc]

/-- Exactly which outbound rows make the filter suppress the webhook of `r`. -/
theorem inboundShouldSkipWebhook_iff (outbound : Table OutboundSms) (now : Nat) (r : InboundSms) :
    inboundShouldSkipWebhook outbound now r = true ↔
      (∃ o ∈ outbound.rows, PathEcho o r) ∨
      (∃ o ∈ outbound.rows, if normalizeMmState r.mmState ∈ outboundMmStates
        then TextEcho now o r else ReplyEcho now o r) := by
  unfold inboundShouldSkipWebhook findMatchingOutbound
  rw [← findByText_isSome]
  by_cases hp : Text.strip r.mmPath = []
  · simp [hp, PathEcho]
  · simp only [hp, if_false]
    cases hn : newest (pathQs outbound (Text.strip r.mmPath)) with
    | some o =>
      have ho := (mem_pathQs hp).mp (newest_mem hn)
      simp only [Option.isSome_some, true_iff]
      exact Or.inl ⟨o, ho⟩
    | none =>
      have hno : ¬ ∃ o ∈ outbound.rows, PathEcho o r := by
        intro h
        obtain ⟨o, ho⟩ := h
        have := (newest_isSome (pathQs outbound (Text.strip r.mmPath))).mpr
          ⟨o, (mem_pathQs hp).mpr ho⟩
        rw [hn] at this
        exact Bool.noConfusion this
      simp only [hno, false_or]

/-! ## Messages received over the air -/

/-- An API send of "ok" to a number, one minute before that number answers "ok". -/
def sentOk : OutboundSms :=
  { pk := 1, mmPath := "/org/freedesktop/ModemManager1/SMS/1".toList, modemIndex := 0,
    toNumber := "+351912345678".toList, text := "ok".toList, state := .sent, errorMessage := [],
    createdAt := 1000000, updatedAt := 1000000 }

def sentTable : Table OutboundSms :=
  ⟨[sentOk], 2, by decide, List.pairwise_singleton _ _, List.pairwise_singleton _ _⟩

def replyOk : InboundSms :=
  { pk := 1, mmPath := "/org/freedesktop/ModemManager1/SMS/2".toList, modemIndex := 0,
    fromNumber := "+351912345678".toList, text := "ok".toList, mmState := "received".toList,
    smsc := [], modemTimestampRaw := [], createdAt := 61000000 }

def inboxOk : Table InboundSms :=
  ⟨[replyOk], 2, by decide, List.pairwise_singleton _ _, List.pairwise_singleton _ _⟩

end HiWaveTel
