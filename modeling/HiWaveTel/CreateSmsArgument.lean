import HiWaveTel.Foundation.Quoting
import HiWaveTel.Foundation.Unicode

/- The argument of `mmcli --messaging-create-sms` (`MMCLIClient.create_sms`) and the
   numbers it is given (`validators.sms_destination_validator`). The argument is read
   back as `mmcli` reads it: pairs `key='value'` separated by commas, where a backslash
   in a value makes the next character literal. `_quote_field` escapes the quotes of a
   value and not its backslashes; `createSmsArgument_read_iff` says that the argument is
   read as it was meant exactly when neither field has one. -/
namespace HiWaveTel
open Foundation

def apostrophe : Char := Char.ofNat 0x27

def backslash : Char := Char.ofNat 0x5C

/-! ## create_sms -/

/-- `_quote_field`: `value.replace` of each apostrophe. -/
def quoteField (value : Str) : Str := escapeQuotes backslash apostrophe value

/-- The `arg` of `create_sms`. -/
def createSmsArgument (number text : Str) : Str :=
  "text=".toList ++ apostrophe :: quoteField text ++ apostrophe ::
    (",number=".toList ++ apostrophe :: quoteField number ++ [apostrophe])

/-- `sms_destination_validator`: the message of its `ValidationError`. -/
def smsDestinationValidator (value : Str) : Except Str Unit :=
  let stripped := Text.strip value
  if stripped = [] then .error "Destination number cannot be blank.".toList
  else
    let digitsOnly := stripped.filter Text.isDigit
    if digitsOnly.length < 8 then
      .error "Provide at least eight digits in the destination number.".toList
    else if 15 < digitsOnly.length then
      .error "Destination numbers cannot exceed 15 digits.".toList
    else .ok ()

/-! ## Reading the argument -/

/-- The pair at the front, and what follows it. -/
def readPair (s : Str) : Option ((Str × Str) × Str) :=
  match s.dropWhile (fun c => c != '=') with
  | _ :: c :: rest =>
    if c = apostrophe then
      (readQuoted backslash apostrophe rest).map
        (fun p => ((s.takeWhile (fun c => c != '='), p.1), p.2))
    else none
  | _ => none

/-- The pairs of an argument; each takes a character at least, so that the length is fuel
    enough. -/
def readPairs : Nat → Str → Option (List (Str × Str))
  | 0, _ => none
  | fuel + 1, s =>
    match readPair s with
    | none => none
    | some (pair, []) => some [pair]
    | some (pair, c :: rest) =>
      if c = ',' then (readPairs fuel rest).map (fun pairs => pair :: pairs) else none

def readArgument (s : Str) : Option (List (Str × Str)) := readPairs s.length s

theorem readPair_field {key : Str} (hkey : '=' ∉ key) (s : Str) :
    readPair (key ++ '=' :: apostrophe :: s) =
      (readQuoted backslash apostrophe s).map (fun p => ((key, p.1), p.2)) := by
  have hall : ∀ c ∈ key, (c != '=') = true := by
    intro c hc
    have hne : c ≠ '=' := fun he => hkey (he ▸ hc)
    simpa using hne
  unfold readPair
  rw [List.dropWhile_append_of_pos hall, List.takeWhile_append_of_pos hall]
  simp

/-- An argument that is read has a pair. -/
theorem readPairs_ne_nil {fuel : Nat} {s : Str} : readPairs fuel s ≠ some [] := by
  intro h
  cases fuel with
  | zero => cases h
  | succ fuel =>
    unfold readPairs at h
    split at h
    · cases h
    · cases h
    · split at h
      · obtain ⟨pairs, _, he⟩ := Option.map_eq_some_iff.mp h
        cases he
      · cases h

theorem backslash_ne : backslash ≠ apostrophe := by decide

/-- The second field of the argument. -/
def numberField (number : Str) : Str :=
  "number".toList ++ '=' :: apostrophe :: (quoteField number ++ apostrophe :: [])

theorem createSmsArgument_eq (number text : Str) :
    createSmsArgument number text =
      "text".toList ++ '=' :: apostrophe ::
        (quoteField text ++ apostrophe :: ',' :: numberField number) := by
  have hassoc : ∀ k l u v : Str,
      k ++ ['='] ++ apostrophe :: u ++ apostrophe ::
        (',' :: (l ++ ['=']) ++ apostrophe :: v ++ [apostrophe]) =
        k ++ '=' :: apostrophe ::
          (u ++ apostrophe :: ',' :: (l ++ '=' :: apostrophe :: (v ++ apostrophe :: []))) := by
    intro k l u v
    simp
  exact hassoc "text".toList "number".toList (quoteField text) (quoteField number)

/-- A text that runs on would end with the `=` of the next field. -/
theorem readQuoted_numberField {number y r : Str}
    (h : readQuoted backslash apostrophe (',' :: numberField number) = some (y, r)) :
    y.getLast? ≠ some backslash := by
  have hplain : backslash ∉ ",number=".toList := by decide
  have hread := readQuoted_escaped_append backslash_ne hplain
    (apostrophe :: (quoteField number ++ [apostrophe]))
  rw [readQuoted_quote] at hread
  have hsame : escapeQuotes backslash apostrophe ",number=".toList ++
      apostrophe :: (quoteField number ++ [apostrophe]) = ',' :: numberField number := rfl
  rw [hsame, h] at hread
  cases hread
  show (",number=".toList ++ []).getLast? ≠ some backslash
  decide

theorem readText_iff {number text r : Str} :
    readQuoted backslash apostrophe (quoteField text ++ apostrophe :: ',' :: numberField number) =
      some (text, r) ↔ backslash ∉ text ∧ r = ',' :: numberField number :=
  readQuoted_escaped_iff backslash_ne (fun _ _ h => readQuoted_numberField h)

theorem readNumber_iff {number r : Str} :
    readQuoted backslash apostrophe (quoteField number ++ apostrophe :: []) = some (number, r) ↔
      backslash ∉ number ∧ r = [] :=
  readQuoted_escaped_iff backslash_ne (fun _ _ h => by cases h)

/-- The last pair of an argument. -/
theorem readPairs_numberField {fuel : Nat} {number : Str} :
    readPairs (fuel + 1) (numberField number) = some [("number".toList, number)] ↔
      backslash ∉ number := by
  have hpair : readPair (numberField number) =
      (readQuoted backslash apostrophe (quoteField number ++ apostrophe :: [])).map
        (fun p => (("number".toList, p.1), p.2)) := readPair_field (by decide) _
  rw [readPairs, hpair]
  constructor
  · intro h
    cases hread : readQuoted backslash apostrophe (quoteField number ++ apostrophe :: []) with
    | none => simp [hread] at h
    | some p =>
      obtain ⟨v, r⟩ := p
      cases r with
      | nil =>
        simp only [hread, Option.map_some, Option.some.injEq, List.cons.injEq, Prod.mk.injEq,
          true_and, and_true] at h
        rw [h] at hread
        exact (readNumber_iff.mp hread).1
      | cons c r =>
        -- a comma and another pair would follow
        simp only [hread, Option.map_some] at h
        split at h
        · cases hmore : readPairs fuel r with
          | none => simp [hmore] at h
          | some pairs =>
            rw [hmore, Option.map_some] at h
            have hnil := (List.cons.inj (Option.some.inj h)).2
            rw [hnil] at hmore
            exact absurd hmore readPairs_ne_nil
        · cases h
  · intro h
    rw [readNumber_iff.mpr ⟨h, rfl⟩]
    rfl

theorem readPairs_createSmsArgument {fuel : Nat} {number text : Str} :
    readPairs (fuel + 2) (createSmsArgument number text) =
      some [("text".toList, text), ("number".toList, number)] ↔
      backslash ∉ text ∧ backslash ∉ number := by
  have hpair : readPair (createSmsArgument number text) =
      (readQuoted backslash apostrophe
        (quoteField text ++ apostrophe :: ',' :: numberField number)).map
          (fun p => (("text".toList, p.1), p.2)) := by
    rw [createSmsArgument_eq]
    exact readPair_field (by decide) _
  rw [readPairs, hpair]
  constructor
  · intro h
    cases hread : readQuoted backslash apostrophe
        (quoteField text ++ apostrophe :: ',' :: numberField number) with
    | none => simp [hread] at h
    | some p =>
      obtain ⟨v, r⟩ := p
      cases r with
      | nil =>
        simp only [hread, Option.map_some, Option.some.injEq, List.cons.injEq, reduceCtorEq,
          and_false] at h
      | cons c r =>
        simp only [hread, Option.map_some] at h
        split at h
        · obtain ⟨pairs, hpairs, he⟩ := Option.map_eq_some_iff.mp h
          obtain ⟨hfirst, rfl⟩ := List.cons.inj he
          rw [(Prod.mk.inj hfirst).2] at hread
          -- the text was read as it was, so the number is what follows
          obtain ⟨htext, hr⟩ := readText_iff.mp hread
          obtain ⟨_, rfl⟩ := List.cons.inj hr
          exact ⟨htext, readPairs_numberField.mp hpairs⟩
        · cases h
  · intro h
    rw [readText_iff.mpr ⟨h.1, rfl⟩]
    simp only [Option.map_some, if_true]
    rw [readPairs_numberField.mpr h.2]
    rfl

/-- The argument is read as the two fields it was built from exactly when no backslash is in
    them. -/
theorem createSmsArgument_read_iff (number text : Str) :
    readArgument (createSmsArgument number text) =
      some [("text".toList, text), ("number".toList, number)] ↔
      backslash ∉ text ∧ backslash ∉ number := by
  obtain ⟨fuel, hfuel⟩ : ∃ fuel, (createSmsArgument number text).length = fuel + 2 := by
    refine ⟨(createSmsArgument number text).length - 2, ?_⟩
    rw [createSmsArgument_eq]
    simp only [List.length_append, List.length_cons]
    omega
  rw [readArgument, hfuel]
  exact readPairs_createSmsArgument

/-- A text that ends in a backslash takes the next field in. -/
theorem createSmsArgument_ambiguous :
    ¬ ∀ number text : Str, smsDestinationValidator number = .ok () → text ≠ [] →
      readArgument (createSmsArgument number text) =
        some [("text".toList, text), ("number".toList, number)] := by
  intro h
  have hread := h "+351912345678".toList ['C', ':', backslash] (by decide) (by decide)
  exact absurd hread (by decide +kernel)

end HiWaveTel
