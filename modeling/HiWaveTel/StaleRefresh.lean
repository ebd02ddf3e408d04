import HiWaveTel.DlqRetry
import HiWaveTel.VanishedPaths
import HiWaveTel.Foundation.Counting

/- The refresh of rows that were stored before their text could be read
   (`services.refresh_stale_inbound_sms_rows`). It selects the rows whose text is empty or
   whose state is `receiving` or `unknown`, persists each path once more, and counts.

   The counting takes what `persist_inbound_sms` returns for the row: an object that the
   whitelist rejected is not stored. And it calls a row stale by other words than the
   selection does. `stats_truthful_iff` says for which rows the two come apart. -/
namespace HiWaveTel
open Foundation

/-! ## The selection -/

/-- ASCII lower case. -/
def lowerAscii (c : Char) : Char :=
  if 0x41 ≤ c.toNat ∧ c.toNat ≤ 0x5A then Char.ofNat (c.toNat + 32) else c

/-- `iexact` with a lower case word: SQLite folds the case of ASCII letters only. -/
def iexact (value word : Str) : Bool := value.map lowerAscii == word

/-- The condition of `_stale_inbound_sms_queryset`. -/
def needsSnapshot (r : InboundSms) : Bool :=
  !iexact r.mmState "unavailable".toList &&
    (r.text == [] || iexact r.mmState "receiving".toList || iexact r.mmState "unknown".toList)

/-- `_stale_inbound_sms_queryset`. -/
def staleInboundSmsQueryset (modemIndex : Option Nat) (t : Table InboundSms) : List InboundSms :=
  t.rows.filter (fun r => needsSnapshot r && modemIndex.all (· == r.modemIndex))

/-- The rows that the refresh visits, `qs.order_by('pk')`. -/
def visited (modemIndex : Option Nat) (t : Table InboundSms) : List InboundSms :=
  (staleInboundSmsQueryset modemIndex t).insertionSort (fun a b => a.pk ≤ b.pk)

/-! ## The loop -/

structure RefreshStats where
  checked : Nat
  textFilled : Nat
  stateUpdated : Nat
  stillStale : Nat
  markedUnavailable : Nat
  deriving DecidableEq, Repr

/-- `updated.text`. -/
def Persisted.text : Persisted → Str
  | .stored row => row.text
  | .rejected _ _ _ text _ => text

/-- `updated.mm_state`. -/
def Persisted.mmState : Persisted → Str
  | .stored row => row.mmState
  | .rejected _ _ _ _ mmState => mmState

/-- What the loop counts for one row. -/
def RefreshStats.count (stats : RefreshStats) (row : InboundSms) :
    Except PersistError Persisted → RefreshStats
  | .error (.pathUnavailable _ _) => { stats with markedUnavailable := stats.markedUnavailable + 1 }
  | .error (.raised _) => { stats with stillStale := stats.stillStale + 1 }
  | .ok updated =>
    let beforeText := Text.strip row.text
    let beforeState := normalizeMmState row.mmState
    let afterText := Text.strip updated.text
    let afterState := normalizeMmState updated.mmState
    if afterState ∈ unavailableMmStates then
      { stats with markedUnavailable := stats.markedUnavailable + 1 }
    else
      { stats with
        textFilled := stats.textFilled + if beforeText = [] ∧ afterText ≠ [] then 1 else 0
        stateUpdated := stats.stateUpdated +
          if beforeState ∈ staleMmStates ∧ afterState ∉ staleMmStates then 1 else 0
        stillStale := stats.stillStale +
          if afterText = [] ∨ afterState ∈ staleMmStates then 1 else 0 }

section Refresh
variable {cfg : PollSettings} (whitelist : List Str) (polling : Str → Polling cfg)

/-- The body of the loop. -/
def refreshRow (state : World × RefreshStats) (row : InboundSms) : World × RefreshStats :=
  let p := polling row.mmPath
  let (w, res) := persistInboundSms p.clock p.shows whitelist state.1 row.mmPath row.modemIndex
    p.now
  let w :=
    match res with
    | .error (.pathUnavailable _ _) =>
      { w with inbound := w.inbound.update row.pk (saveFields [.mmState] unavailable) }
    | _ => w
  (w, { state.2 with checked := state.2.checked + 1 }.count row res)

/-- `refresh_stale_inbound_sms_rows`; the rows are read once, at the start. -/
def refreshStaleInboundSmsRows (modemIndex : Option Nat) (w : World) : World × RefreshStats :=
  (visited modemIndex w.inbound).foldl (refreshRow whitelist polling) (w, ⟨0, 0, 0, 0, 0⟩)

end Refresh

/-! ## One row -/

/-- The row after its path was persisted once more. -/
def refreshedRow (whitelist : List Str) (r : InboundSms) : Fetched → InboundSms
  | .raised _ => r
  | .pathUnavailable _ => goneRow r
  | .snapshot raw =>
    if whitelistRejects whitelist (extractFromNumber raw) then r
    else mergeRow (defaultsOf r.modemIndex raw) r

/-- What `persist_inbound_sms` returns for it, or raises. -/
def refreshResult (whitelist : List Str) (r : InboundSms) : Fetched → Except PersistError Persisted
  | .raised text => .error (.raised text)
  | .pathUnavailable _ => .ok (.stored (goneRow r))
  | .snapshot raw =>
    if whitelistRejects whitelist (extractFromNumber raw) then
      .ok (.rejected r.mmPath r.modemIndex (extractFromNumber raw)
        "[REJECTED BY WHITELIST]".toList "rejected".toList)
    else .ok (.stored (mergeRow (defaultsOf r.modemIndex raw) r))

theorem markUnavailable_snd (w : World) (r : InboundSms) (now : Nat) :
    (markUnavailable w r now).2 = goneRow r := by
  unfold markUnavailable goneRow
  split
  · rfl
  · rw [← setFields_unavailable]
    rfl

theorem storeSnapshot_snd {w : World} {r : InboundSms} (hr : rowsAt w.inbound r.mmPath = [r])
    (d : Defaults) (now : Nat) : (storeSnapshot w r.mmPath d now).2 = mergeRow d r := by
  rcases storeSnapshot_cases w r.mmPath d now with ⟨hnone, _⟩ | ⟨s, hs, hp, hrow, _⟩
  · rw [hr] at hnone
    cases hnone
  · have hone := rowsAt_eq_singleton hs
    rw [hp, hr] at hone
    cases hone
    exact hrow

theorem persistFetched_refresh {w : World} {r : InboundSms}
    (hr : rowsAt w.inbound r.mmPath = [r]) (whitelist : List Str) (now : Nat) (f : Fetched) :
    (persistFetched whitelist w r.mmPath r.modemIndex now f).2 = refreshResult whitelist r f ∧
      rowsAt (persistFetched whitelist w r.mmPath r.modemIndex now f).1.inbound r.mmPath =
        [refreshedRow whitelist r f] := by
  obtain ⟨hmem, _⟩ := mem_of_rowsAt (show r ∈ rowsAt w.inbound r.mmPath by rw [hr]; simp)
  cases f with
  | raised text => exact ⟨rfl, hr⟩
  | pathUnavailable cause =>
    simp only [persistFetched, find?_of_rowsAt hr, refreshResult, refreshedRow,
      markUnavailable_snd]
    exact ⟨trivial, rowsAt_markUnavailable_self hmem now⟩
  | snapshot raw =>
    simp only [persistFetched, refreshResult, refreshedRow,
      show (defaultsOf r.modemIndex raw).fromNumber = extractFromNumber raw from rfl]
    split
    · exact ⟨rfl, hr⟩
    · exact ⟨by rw [storeSnapshot_snd hr], rowsAt_storeSnapshot_old _ now hr⟩

theorem persistInboundSms_refresh {cfg : PollSettings} {w : World} {r : InboundSms}
    (hr : rowsAt w.inbound r.mmPath = [r]) (whitelist : List Str) (p : Polling cfg) :
    (persistInboundSms p.clock p.shows whitelist w r.mmPath r.modemIndex p.now).2 =
        refreshResult whitelist r p.fetched ∧
      rowsAt (persistInboundSms p.clock p.shows whitelist w r.mmPath r.modemIndex p.now).1.inbound
        r.mmPath = [refreshedRow whitelist r p.fetched] :=
  persistFetched_refresh hr whitelist p.now p.fetched

/-! ## The loop over the selected rows -/

section Loop
variable {cfg : PollSettings} (whitelist : List Str) (polling : Str → Polling cfg)

theorem refreshRow_of_row {w : World} {r : InboundSms} (hr : rowsAt w.inbound r.mmPath = [r])
    (stats : RefreshStats) :
    ∃ w', refreshRow whitelist polling (w, stats) r =
        (w', { stats with checked := stats.checked + 1 }.count r
          (refreshResult whitelist r (polling r.mmPath).fetched)) ∧
      rowsAt w'.inbound r.mmPath = [refreshedRow whitelist r (polling r.mmPath).fetched] ∧
      ∀ q, r.mmPath ≠ q → rowsAt w'.inbound q = rowsAt w.inbound q := by
  obtain ⟨hres, hrow⟩ := persistInboundSms_refresh hr whitelist (polling r.mmPath)
  refine ⟨_, ?_, hrow, fun q hq => rowsAt_persistFetched_of_ne _ _ _ _ _ _ hq⟩
  simp only [refreshRow, hres]
  cases (polling r.mmPath).fetched with
  | raised text => rfl
  | pathUnavailable cause => rfl
  | snapshot raw =>
    simp only [refreshResult]
    cases whitelistRejects whitelist (extractFromNumber raw) <;> rfl

/-- The rows of a table are visited one by one, and each is as it was until then. -/
theorem refreshRows {rs : List InboundSms} (hne : rs.Pairwise (fun a b => a.mmPath ≠ b.mmPath))
    (w : World) (hrs : ∀ r ∈ rs, rowsAt w.inbound r.mmPath = [r]) (stats : RefreshStats) :
    (rs.foldl (refreshRow whitelist polling) (w, stats)).2 =
        rs.foldl (fun stats r => { stats with checked := stats.checked + 1 }.count r
          (refreshResult whitelist r (polling r.mmPath).fetched)) stats ∧
      (∀ r ∈ rs, rowsAt (rs.foldl (refreshRow whitelist polling) (w, stats)).1.inbound
        r.mmPath = [refreshedRow whitelist r (polling r.mmPath).fetched]) ∧
      ∀ q, (∀ r ∈ rs, r.mmPath ≠ q) →
        rowsAt (rs.foldl (refreshRow whitelist polling) (w, stats)).1.inbound q =
          rowsAt w.inbound q := by
  induction rs generalizing w stats with
  | nil => exact ⟨rfl, by simp, fun _ _ => rfl⟩
  | cons r rs ih =>
    obtain ⟨hhead, htail⟩ := List.pairwise_cons.mp hne
    obtain ⟨w', hstep, hrow, hothers⟩ := refreshRow_of_row whitelist polling
      (hrs r (by simp)) stats
    have hrs' : ∀ s ∈ rs, rowsAt w'.inbound s.mmPath = [s] := by
      intro s hs
      rw [hothers _ (hhead s hs)]
      exact hrs s (by simp [hs])
    rw [List.foldl_cons, hstep]
    obtain ⟨hstats, hrows, hrest⟩ := ih htail w' hrs' _
    refine ⟨hstats, ?_, ?_⟩
    · intro s hs
      rcases List.mem_cons.mp hs with rfl | hs
      · rw [hrest _ (fun t ht => Ne.symm (hhead t ht)), hrow]
      · exact hrows s hs
    · intro q hq
      rw [hrest q (fun t ht => hq t (by simp [ht])), hothers q (hq r (by simp))]

end Loop

/-! ## What is counted, and what is true -/

/-- The loop counts the row under `text_filled`. -/
def countsFilled (row : InboundSms) : Except PersistError Persisted → Bool
  | .error _ => false
  | .ok updated => !unavailableMmStates.contains (normalizeMmState updated.mmState) &&
      (Text.strip row.text == [] && Text.strip updated.text != [])

/-- It counts the row under `still_stale`. -/
def countsStale : Except PersistError Persisted → Bool
  | .error (.pathUnavailable _ _) => false
  | .error (.raised _) => true
  | .ok updated => !unavailableMmStates.contains (normalizeMmState updated.mmState) &&
      (Text.strip updated.text == [] || staleState updated.mmState)

theorem textFilled_count (stats : RefreshStats) (row : InboundSms)
    (res : Except PersistError Persisted) :
    (stats.count row res).textFilled =
      stats.textFilled + if countsFilled row res then 1 else 0 := by
  cases res with
  | error exc => cases exc <;> rfl
  | ok updated =>
    simp only [RefreshStats.count, countsFilled]
    by_cases hgone : normalizeMmState updated.mmState ∈ unavailableMmStates
    · simp [hgone]
    · simp [hgone]

theorem stillStale_count (stats : RefreshStats) (row : InboundSms)
    (res : Except PersistError Persisted) :
    (stats.count row res).stillStale = stats.stillStale + if countsStale res then 1 else 0 := by
  cases res with
  | error exc => cases exc <;> rfl
  | ok updated =>
    simp only [RefreshStats.count, countsStale, staleState]
    by_cases hgone : normalizeMmState updated.mmState ∈ unavailableMmStates
    · simp [hgone]
    · simp [hgone]

/-- The text of the row went from blank to non-blank. -/
def filled (before after : InboundSms) : Bool :=
  Text.strip before.text == [] && Text.strip after.text != []

section Miscounts
variable (whitelist : List Str) (r : InboundSms)

/-- The state of the row after a snapshot. -/
def stateAfter (raw : Details) : Str :=
  pick InboundField.mmState.rank r.mmState (extractState raw)

/-- A blank row whose snapshot the whitelist rejects is counted as filled. -/
def filledInVain : Fetched → Bool
  | .snapshot raw => Text.strip r.text == [] && whitelistRejects whitelist (extractFromNumber raw)
  | _ => false

/-- A row that gets a text while its state says that the path is gone is not counted. -/
def filledUnseen : Fetched → Bool
  | .snapshot raw => Text.strip r.text == [] &&
      (!whitelistRejects whitelist (extractFromNumber raw) && extractText raw != [] &&
        unavailableMmStates.contains (normalizeMmState (stateAfter r raw)))
  | _ => false

/-- A row is counted as stale that would not be selected: its text is not empty, and it is blank,
    or the state is blank or spelled with spaces around it. -/
def staleInVain : Fetched → Bool
  | .snapshot raw => !whitelistRejects whitelist (extractFromNumber raw) &&
      (!unavailableMmStates.contains (normalizeMmState (stateAfter r raw)) &&
        !(r.text == [] && extractText raw == []) &&
        !iexact (stateAfter r raw) "receiving".toList &&
        !iexact (stateAfter r raw) "unknown".toList &&
        ((Text.strip r.text == [] && extractText raw == []) || staleState (stateAfter r raw)))
  | _ => false

/-- A row is selected again that is not counted: the whitelist rejects its snapshot, or its state
    says in other words than the selection's that the path is gone. -/
def staleUnseen : Fetched → Bool
  | .raised _ => false
  | .pathUnavailable _ => unavailableMmStates.contains (normalizeMmState r.mmState)
  | .snapshot raw => whitelistRejects whitelist (extractFromNumber raw) ||
      (unavailableMmStates.contains (normalizeMmState (stateAfter r raw)) &&
        !iexact (stateAfter r raw) "unavailable".toList && r.text == [] && extractText raw == [])

end Miscounts

/-! ## One row after a snapshot -/

section Merged
variable (whitelist : List Str) (r : InboundSms) (modemIndex : Nat) (raw : Details)

theorem text_mergeRow : (mergeRow (defaultsOf modemIndex raw) r).text =
    pick InboundField.text.rank r.text (extractText raw) := current_mergeRow _ r .text

theorem state_mergeRow : (mergeRow (defaultsOf modemIndex raw) r).mmState = stateAfter r raw :=
  mmState_mergeRow _ r

/-- The longer text is nothing when both are, read in one of the ways `f`. -/
theorem nil_text_mergeRow (f : Str → Str) (hrow : ∀ s, f s = [] → Text.strip s = [])
    (hread : f (extractText raw) = extractText raw) :
    (f (mergeRow (defaultsOf modemIndex raw) r).text == []) =
      (f r.text == [] && extractText raw == []) := by
  rw [text_mergeRow, Bool.eq_iff_iff, Bool.and_eq_true, beq_iff_eq, beq_iff_eq, beq_iff_eq, pick]
  simp only [InboundField.rank, strip_extractText]
  split
  · next hlong =>
    have hne : extractText raw ≠ [] := List.ne_nil_of_length_pos (by omega)
    simp [hread, hne]
  · next hshort =>
    constructor
    · intro hempty
      rw [hrow _ hempty, List.length_nil] at hshort
      exact ⟨hempty, List.eq_nil_of_length_eq_zero (by omega)⟩
    · exact And.left

theorem blank_text_mergeRow :
    (Text.strip (mergeRow (defaultsOf modemIndex raw) r).text == []) =
      (Text.strip r.text == [] && extractText raw == []) :=
  nil_text_mergeRow r modemIndex raw Text.strip (fun _ h => h) (strip_extractText raw)

theorem empty_text_mergeRow :
    ((mergeRow (defaultsOf modemIndex raw) r).text == []) =
      (r.text == [] && extractText raw == []) := by
  apply nil_text_mergeRow r modemIndex raw id _ rfl
  rintro s rfl
  rfl

end Merged

theorem isUnavailable_goneRow (r : InboundSms) :
    unavailableMmStates.contains (normalizeMmState (goneRow r).mmState) = true := by
  have hin : unavailableMmStates.contains (normalizeMmState "unavailable".toList) = true := by
    decide
  unfold goneRow
  split
  · next hgone => exact List.contains_iff_mem.mpr hgone
  · exact hin

theorem text_goneRow (r : InboundSms) : (goneRow r).text = r.text := by
  unfold goneRow
  split <;> rfl

/-- The filled rows are counted, up to the two kinds. -/
theorem countsFilled_diff (whitelist : List Str) (r : InboundSms) (f : Fetched) :
    (countsFilled r (refreshResult whitelist r f) && !filled r (refreshedRow whitelist r f)) =
        filledInVain whitelist r f ∧
      (filled r (refreshedRow whitelist r f) && !countsFilled r (refreshResult whitelist r f)) =
        filledUnseen whitelist r f := by
  have hsame : (Text.strip r.text == [] && Text.strip r.text != []) = false := by
    cases h : Text.strip r.text == [] <;> simp [bne, h]
  cases f with
  | raised text =>
    simp [refreshResult, refreshedRow, countsFilled, filledInVain, filledUnseen, filled]
  | pathUnavailable cause =>
    simp only [refreshResult, refreshedRow, countsFilled, filled, filledInVain, filledUnseen,
      Persisted.mmState, Persisted.text, isUnavailable_goneRow, text_goneRow, hsame]
    simp
  | snapshot raw =>
    cases hrej : whitelistRejects whitelist (extractFromNumber raw) with
    | true =>
      simp only [refreshResult, refreshedRow, hrej, if_true, countsFilled, filled, filledInVain,
        filledUnseen, Persisted.mmState, Persisted.text, hsame]
      have hstate : unavailableMmStates.contains (normalizeMmState "rejected".toList) = false := by
        decide
      have htext : (Text.strip "[REJECTED BY WHITELIST]".toList != []) = true := by decide
      rw [hstate, htext]
      simp
    | false =>
      simp only [refreshResult, refreshedRow, hrej, Bool.false_eq_true, if_false, countsFilled,
        filled, filledInVain, filledUnseen, Persisted.mmState, Persisted.text, state_mergeRow, bne,
        blank_text_mergeRow]
      cases Text.strip r.text == [] <;> cases extractText raw == [] <;>
        cases unavailableMmStates.contains (normalizeMmState (stateAfter r raw)) <;> simp

/-- A state that `iexact` finds is that word, once normalised. -/
theorem normalizeMmState_of_iexact {value word : Str}
    (hword : word.all (fun c => 0x61 ≤ c.toNat && c.toNat ≤ 0x7A) = true)
    (h : iexact value word = true) : normalizeMmState value = word := by
  have hmap : value.map lowerAscii = word := eq_of_beq h
  have hletter : ∀ c ∈ value, 0x41 ≤ c.toNat ∧ c.toNat ≤ 0x7A := by
    intro c hc
    have hlow := List.all_eq_true.mp hword (lowerAscii c) (hmap ▸ List.mem_map_of_mem hc)
    rw [Bool.and_eq_true, decide_eq_true_eq, decide_eq_true_eq] at hlow
    by_cases hcap : 0x41 ≤ c.toNat ∧ c.toNat ≤ 0x5A
    · omega
    · rw [lowerAscii, if_neg hcap] at hlow
      omega
  have hchar : ∀ c ∈ value, Text.lowerChar c = [lowerAscii c] ∧ Text.isSpace c = false ∧
      Text.isCapitalSigma c = false := by
    intro c hc
    have hrange := hletter c hc
    refine ⟨if_pos (by omega), ?_, ?_⟩
    · simp [Text.isSpace]
      omega
    · simp [Text.isCapitalSigma]
      omega
  have hstrip : Text.strip value = value := Text.strip_eq_self (fun c hc => (hchar c hc).2.1)
  have hlower : Text.lower value = value.map lowerAscii := by
    rw [Text.lower_of_noSigma (fun c hc => (hchar c hc).2.2), List.map_eq_flatMap]
    exact List.flatMap_congr (fun c hc => (hchar c hc).1)
  rw [normalizeMmState, hstrip, hlower, hmap]

theorem not_unavailable_of_stale {v : Str} (h : staleState v = true) :
    unavailableMmStates.contains (normalizeMmState v) = false := by
  have hall : ∀ s ∈ staleMmStates, unavailableMmStates.contains s = false := by decide
  exact hall _ (List.contains_iff_mem.mp h)

theorem stale_of_iexact {v word : Str} (hin : word ∈ staleMmStates)
    (hword : word.all (fun c => 0x61 ≤ c.toNat && c.toNat ≤ 0x7A) = true)
    (h : iexact v word = true) : staleState v = true := by
  rw [staleState, normalizeMmState_of_iexact hword h]
  exact List.contains_iff_mem.mpr hin

theorem needsSnapshot_goneRow {r : InboundSms} (hr : needsSnapshot r = true) :
    needsSnapshot (goneRow r) =
      unavailableMmStates.contains (normalizeMmState r.mmState) := by
  have hword : iexact "unavailable".toList "unavailable".toList = true := by decide
  unfold goneRow
  split
  · next hin =>
    rw [hr]
    exact (List.contains_iff_mem.mpr hin).symm
  · next hnot =>
    rw [needsSnapshot, hword]
    simpa using hnot

/-- The rows that stay stale are counted, up to the two kinds. -/
theorem countsStale_diff (whitelist : List Str) {r : InboundSms} (hr : needsSnapshot r = true)
    (f : Fetched) :
    (countsStale (refreshResult whitelist r f) && !needsSnapshot (refreshedRow whitelist r f)) =
        staleInVain whitelist r f ∧
      (needsSnapshot (refreshedRow whitelist r f) && !countsStale (refreshResult whitelist r f)) =
        staleUnseen whitelist r f := by
  cases f with
  | raised text =>
    simp [refreshResult, refreshedRow, countsStale, staleInVain, staleUnseen, hr]
  | pathUnavailable cause =>
    simp only [refreshResult, refreshedRow, countsStale, staleInVain, staleUnseen,
      Persisted.mmState, isUnavailable_goneRow, needsSnapshot_goneRow hr]
    simp
  | snapshot raw =>
    cases hrej : whitelistRejects whitelist (extractFromNumber raw) with
    | true =>
      have hcount : countsStale (.ok (.rejected r.mmPath r.modemIndex (extractFromNumber raw)
          "[REJECTED BY WHITELIST]".toList "rejected".toList)) = false := by
        show (!unavailableMmStates.contains (normalizeMmState "rejected".toList) &&
          (Text.strip "[REJECTED BY WHITELIST]".toList == [] ||
            staleState "rejected".toList)) = false
        decide
      simp only [refreshResult, refreshedRow, hrej, if_true, staleInVain, staleUnseen, hcount, hr]
      simp
    | false =>
      simp only [refreshResult, refreshedRow, hrej, Bool.false_eq_true, if_false, countsStale,
        needsSnapshot, staleInVain, staleUnseen, Persisted.mmState, Persisted.text,
        state_mergeRow, blank_text_mergeRow, empty_text_mergeRow]
      have hgone : iexact (stateAfter r raw) "unavailable".toList = true →
          unavailableMmStates.contains (normalizeMmState (stateAfter r raw)) = true := by
        intro h
        rw [normalizeMmState_of_iexact (by decide) h]
        decide
      have hreceiving : iexact (stateAfter r raw) "receiving".toList = true →
          staleState (stateAfter r raw) = true := stale_of_iexact (by decide) (by decide)
      have hunknown : iexact (stateAfter r raw) "unknown".toList = true →
          staleState (stateAfter r raw) = true := stale_of_iexact (by decide) (by decide)
      have hstale := not_unavailable_of_stale (v := stateAfter r raw)
      have hempty : (r.text == []) = true → (Text.strip r.text == []) = true := by
        intro h
        rw [eq_of_beq h]
        decide
      revert hgone hreceiving hunknown hstale hempty
      generalize unavailableMmStates.contains (normalizeMmState (stateAfter r raw)) = gone
      generalize iexact (stateAfter r raw) "unavailable".toList = saysGone
      generalize iexact (stateAfter r raw) "receiving".toList = receiving
      generalize iexact (stateAfter r raw) "unknown".toList = unknown
      generalize staleState (stateAfter r raw) = stale
      generalize (Text.strip r.text == []) = blank
      generalize (r.text == []) = empty
      generalize (extractText raw == []) = textless
      revert gone saysGone receiving unknown stale blank empty textless
      decide

/-! ## The statistics -/

theorem mem_visited {modemIndex : Option Nat} {t : Table InboundSms} {r : InboundSms} :
    r ∈ visited modemIndex t ↔
      r ∈ t.rows ∧ needsSnapshot r = true ∧ modemIndex.all (· == r.modemIndex) = true := by
  rw [visited, List.mem_insertionSort, staleInboundSmsQueryset, List.mem_filter, Bool.and_eq_true]

theorem pairwise_visited (modemIndex : Option Nat) (t : Table InboundSms) :
    (visited modemIndex t).Pairwise (fun a b => a.mmPath ≠ b.mmPath) := by
  have hunique : (staleInboundSmsQueryset modemIndex t).Pairwise
      (fun a b => a.mmPath ≠ b.mmPath) := t.unique.filter _
  exact hunique.perm (List.perm_insertionSort _ _).symm (fun h => Ne.symm h)

theorem modemIndex_refreshedRow (whitelist : List Str) (r : InboundSms) (f : Fetched) :
    (refreshedRow whitelist r f).modemIndex = r.modemIndex := by
  cases f with
  | raised text => rfl
  | pathUnavailable cause =>
    simp only [refreshedRow, goneRow]
    split <;> rfl
  | snapshot raw =>
    simp only [refreshedRow]
    split <;> rfl

/-- A row is selected by its path. -/
theorem any_staleInboundSmsQueryset (modemIndex : Option Nat) (t : Table InboundSms) (p : Str) :
    (staleInboundSmsQueryset modemIndex t).any (fun r => r.mmPath == p) =
      (rowsAt t p).any (fun r => needsSnapshot r && modemIndex.all (· == r.modemIndex)) := by
  rw [staleInboundSmsQueryset, rowsAt, List.any_filter, List.any_filter]
  refine congrArg (List.any t.rows) (funext (fun r => ?_))
  exact Bool.and_comm _ _

section Stats
variable {cfg : PollSettings} (whitelist : List Str) (polling : Str → Polling cfg)
  (modemIndex : Option Nat) (w : World)

/-- The statistics are about the database: the rows whose stored text went from blank to non-blank,
    and those that would be selected again. -/
structure StatsTruthful (w' : World) (stats : RefreshStats) : Prop where
  textFilled : stats.textFilled = (visited modemIndex w.inbound).countP
    (fun r => (rowsAt w'.inbound r.mmPath).any (filled r))
  stillStale : stats.stillStale = (visited modemIndex w.inbound).countP
    (fun r => (staleInboundSmsQueryset modemIndex w'.inbound).any
      (fun r' => r'.mmPath == r.mmPath))

variable {whitelist polling modemIndex w}

/-- Each statistic is off by its two kinds of rows. -/
theorem textFilled_eq_iff (rs : List InboundSms) :
    rs.countP (fun r => countsFilled r (refreshResult whitelist r (polling r.mmPath).fetched)) =
        rs.countP (fun r => filled r (refreshedRow whitelist r (polling r.mmPath).fetched)) ↔
      rs.countP (fun r => filledInVain whitelist r (polling r.mmPath).fetched) =
        rs.countP (fun r => filledUnseen whitelist r (polling r.mmPath).fetched) := by
  rw [countP_eq_iff]
  simp only [countsFilled_diff]

theorem stillStale_eq_iff {rs : List InboundSms} (hrs : ∀ r ∈ rs, needsSnapshot r = true) :
    rs.countP (fun r => countsStale (refreshResult whitelist r (polling r.mmPath).fetched)) =
        rs.countP (fun r => needsSnapshot (refreshedRow whitelist r (polling r.mmPath).fetched)) ↔
      rs.countP (fun r => staleInVain whitelist r (polling r.mmPath).fetched) =
        rs.countP (fun r => staleUnseen whitelist r (polling r.mmPath).fetched) := by
  rw [countP_eq_iff]
  have hvain := List.countP_congr (l := rs) (fun r hr => Bool.eq_iff_iff.mp
    (countsStale_diff whitelist (hrs r hr) (polling r.mmPath).fetched).1)
  have hunseen := List.countP_congr (l := rs) (fun r hr => Bool.eq_iff_iff.mp
    (countsStale_diff whitelist (hrs r hr) (polling r.mmPath).fetched).2)
  rw [hvain, hunseen]

/-- For every table, whitelist and behaviour of `show_sms` for each path. -/
theorem stats_truthful_iff :
    StatsTruthful modemIndex w (refreshStaleInboundSmsRows whitelist polling modemIndex w).1
        (refreshStaleInboundSmsRows whitelist polling modemIndex w).2 ↔
      (visited modemIndex w.inbound).countP
          (fun r => filledInVain whitelist r (polling r.mmPath).fetched) =
        (visited modemIndex w.inbound).countP
          (fun r => filledUnseen whitelist r (polling r.mmPath).fetched) ∧
      (visited modemIndex w.inbound).countP
          (fun r => staleInVain whitelist r (polling r.mmPath).fetched) =
        (visited modemIndex w.inbound).countP
          (fun r => staleUnseen whitelist r (polling r.mmPath).fetched) := by
  have hrs : ∀ r ∈ visited modemIndex w.inbound, rowsAt w.inbound r.mmPath = [r] :=
    fun r hr => rowsAt_eq_singleton (mem_visited.mp hr).1
  obtain ⟨hstats, hrows, _⟩ := refreshRows whitelist polling
    (pairwise_visited modemIndex w.inbound) w hrs ⟨0, 0, 0, 0, 0⟩
  rw [← textFilled_eq_iff, ← stillStale_eq_iff (fun r hr => (mem_visited.mp hr).2.1)]
  -- what the loop counts
  have htext := foldl_countP
    (fun r => countsFilled r (refreshResult whitelist r (polling r.mmPath).fetched))
    (visited modemIndex w.inbound) RefreshStats.textFilled
    (fun (stats : RefreshStats) r =>
      textFilled_count { stats with checked := stats.checked + 1 } r _) ⟨0, 0, 0, 0, 0⟩
  have hstale := foldl_countP
    (fun r => countsStale (refreshResult whitelist r (polling r.mmPath).fetched))
    (visited modemIndex w.inbound) RefreshStats.stillStale
    (fun (stats : RefreshStats) r =>
      stillStale_count { stats with checked := stats.checked + 1 } r _) ⟨0, 0, 0, 0, 0⟩
  rw [← hstats, Nat.zero_add] at htext hstale
  rw [← htext, ← hstale]
  -- what is in the table
  have hfilled : (visited modemIndex w.inbound).countP (fun r =>
      (rowsAt (refreshStaleInboundSmsRows whitelist polling modemIndex w).1.inbound
        r.mmPath).any (filled r)) = (visited modemIndex w.inbound).countP
          (fun r => filled r (refreshedRow whitelist r (polling r.mmPath).fetched)) := by
    apply List.countP_congr
    intro r hr
    rw [refreshStaleInboundSmsRows, hrows r hr, List.any_cons, List.any_nil, Bool.or_false]
  have hagain : (visited modemIndex w.inbound).countP (fun r => (staleInboundSmsQueryset modemIndex
      (refreshStaleInboundSmsRows whitelist polling modemIndex w).1.inbound).any
        (fun r' => r'.mmPath == r.mmPath)) = (visited modemIndex w.inbound).countP
          (fun r => needsSnapshot (refreshedRow whitelist r (polling r.mmPath).fetched)) := by
    apply List.countP_congr
    intro r hr
    rw [any_staleInboundSmsQueryset, refreshStaleInboundSmsRows, hrows r hr, List.any_cons,
      List.any_nil, Bool.or_false, modemIndex_refreshedRow, (mem_visited.mp hr).2.2, Bool.and_true]
  constructor
  · intro h
    exact ⟨h.textFilled.trans hfilled, h.stillStale.trans hagain⟩
  · intro h
    exact ⟨h.1.trans hfilled.symm, h.2.trans hagain.symm⟩

end Stats

theorem rejected_row_counted_as_filled :
    ¬ ∀ (whitelist : List Str) (polling : Str → Polling quickPolling) (modemIndex : Option Nat)
        (w : World),
      StatsTruthful modemIndex w (refreshStaleInboundSmsRows whitelist polling modemIndex w).1
        (refreshStaleInboundSmsRows whitelist polling modemIndex w).2 := by
  intro h
  have hstats := h ["+351922222222".toList] (fun _ => answering (.snapshot
    (snapshotOf "received" "+351911111111" "hello"))) none blankWorld
  have hone : (refreshStaleInboundSmsRows ["+351922222222".toList] (fun _ => answering (.snapshot
    (snapshotOf "received" "+351911111111" "hello"))) none blankWorld).2.textFilled = 1 := by decide
  have hnone : (visited none blankWorld.inbound).countP (fun r => (rowsAt
      (refreshStaleInboundSmsRows ["+351922222222".toList] (fun _ => answering (.snapshot
        (snapshotOf "received" "+351911111111" "hello"))) none blankWorld).1.inbound r.mmPath).any
          (filled r)) = 0 := by decide
  have hfilled := hstats.textFilled
  rw [hone, hnone] at hfilled
  cases hfilled

end HiWaveTel
