import HiWaveTel.SmsReport
import HiWaveTel.InboundFilters

/- The echo filter and the whitespace of a text. A text is stored for sending as the request
   has it; what `mmcli` reports of the message is stripped, and so is the text that the
   filter looks for. `sent_copy_skip_iff`: the copy of a sent message is recognised
   exactly when some row has the stripped text, or the path of the copy. -/
namespace HiWaveTel
open Foundation

/-- The snapshot has the text under its key, stripped or as it is. -/
def CarriesText (d : Details) (text : Str) : Prop :=
  ∃ v, d.get textEntry = some v ∧ Text.strip v = Text.strip text

theorem extractText_of_carries {d : Details} {text : Str} (h : CarriesText d text)
    (hpresent : present text = true) : extractText d = Text.strip text := by
  obtain ⟨v, hget, hstrip⟩ := h
  have hpresent : present v = true := by
    rw [present, hstrip]
    exact hpresent
  rw [extractText, List.map_cons, show "smscontenttext".toList = textEntry from rfl, firstPresent,
    hget]
  simp only [hpresent, if_true]
  exact hstrip

/-- `show_sms` gives such a snapshot of an output that has the text. -/
theorem carriesText_report {loads : Str → Option Json} {raw body : Str} {text : Option Str}
    {before after : List Field} (htext : text = none ∨ text = some body)
    (hother : ∀ f ∈ before ++ after, normalizeKey f.key ≠ textEntry)
    (hreported : JsonReports loads raw textEntry body) (hbody : isBlankMmcliValue body = false) :
    CarriesText (mergeMmcliSources
      [parseKeyvalue (printReport before text after), jsonDetails loads raw]) body := by
  have hne : Text.strip body ≠ [] :=
    ne_nil_of_not_blank ((isBlankMmcliValue_strip body).trans hbody)
  refine ⟨Text.strip body, ?_, Text.strip_strip body⟩
  rw [get_mergeMmcliSources, bestValue_body htext hother hreported hbody, if_neg hne]

/-- `r` is the row of a sent message that ModemManager lists under another path. -/
structure SentCopy (outbound : Table OutboundSms) (now : Nat) (o : OutboundSms) (d : Details)
    (r : InboundSms) : Prop where
  stored : o ∈ outbound.rows
  notFailed : o.state ≠ .failed
  young : now ≤ o.createdAt + echoWindow
  text : present o.text = true
  modem : r.modemIndex = o.modemIndex
  path : r.mmPath ≠ o.mmPath
  state : normalizeMmState r.mmState ∈ outboundMmStates
  carries : CarriesText d o.text
  decoded : r.text = extractText d

/-- A young row of the modem whose text is that of `o` without the whitespace around it. -/
def StrippedTwin (outbound : Table OutboundSms) (now : Nat) (o : OutboundSms) : Prop :=
  ∃ o' ∈ outbound.rows, o'.modemIndex = o.modemIndex ∧ o'.text = Text.strip o.text ∧
    now ≤ o'.createdAt + echoWindow ∧ o'.state ≠ .failed

/-- A text without whitespace around it is its own twin. -/
theorem SentCopy.strippedTwin {outbound : Table OutboundSms} {now : Nat} {o : OutboundSms}
    {d : Details} {r : InboundSms} (h : SentCopy outbound now o d r)
    (hstrip : Text.strip o.text = o.text) : StrippedTwin outbound now o :=
  ⟨o, h.stored, rfl, hstrip.symm, h.young, h.notFailed⟩

theorem sent_copy_skip_iff {outbound : Table OutboundSms} {now : Nat} {o : OutboundSms}
    {d : Details} {r : InboundSms} (h : SentCopy outbound now o d r) :
    inboundShouldSkipWebhook outbound now r = true ↔
      StrippedTwin outbound now o ∨ ∃ o' ∈ outbound.rows, PathEcho o' r := by
  have htext : r.text = Text.strip o.text := h.decoded.trans (extractText_of_carries h.carries h.text)
  have hstrip : Text.strip r.text = Text.strip o.text := by rw [htext, Text.strip_strip]
  have hne : Text.strip o.text ≠ [] := by
    have hpresent := h.text
    rw [present, Bool.and_eq_true, bne_iff_ne] at hpresent
    exact hpresent.1
  rw [inboundShouldSkipWebhook_iff, or_comm]
  refine or_congr_left (exists_congr (fun o' => and_congr_right (fun _ => ?_)))
  rw [if_pos h.state, TextEcho, hstrip, h.modem]
  exact and_iff_right hne

/-- A message that was sent with a space at its end. -/
def sentOkSpace : OutboundSms := { sentOk with text := "ok ".toList }

def sentSpaceTable : Table OutboundSms :=
  ⟨[sentOkSpace], 2, by decide, List.pairwise_singleton _ _, List.pairwise_singleton _ _⟩

/-- Its copy in the memory of the modem, as `mmcli` reports it. -/
def copySnapshot : Details := [(textEntry, "ok".toList)]

def copyOk : InboundSms := { replyOk with fromNumber := [], mmState := "sent".toList }

theorem sent_copy_can_be_missed :
    ¬ ∀ (outbound : Table OutboundSms) (now : Nat) (o : OutboundSms) (d : Details)
        (r : InboundSms), SentCopy outbound now o d r →
      inboundShouldSkipWebhook outbound now r = true := by
  intro h
  have hcopy : SentCopy sentSpaceTable 61000000 sentOkSpace copySnapshot copyOk := by
    refine ⟨by simp [sentSpaceTable], by decide, by decide, by decide, rfl, by decide, by decide,
      ⟨"ok".toList, rfl, by decide⟩, by decide⟩
  exact absurd (h _ _ _ _ _ hcopy) (by decide)

theorem sent_copy_skip_iff_ok :
    inboundShouldSkipWebhook sentTable 61000000 copyOk = true ↔
      StrippedTwin sentTable 61000000 sentOk ∨ ∃ o' ∈ sentTable.rows, PathEcho o' copyOk := by
  refine sent_copy_skip_iff (d := copySnapshot) ?_
  refine ⟨by simp [sentTable], by decide, by decide, by decide, rfl, by decide, by decide,
    ⟨"ok".toList, rfl, by decide⟩, by decide⟩

end HiWaveTel
