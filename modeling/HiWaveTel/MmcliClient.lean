import HiWaveTel.Models
import HiWaveTel.Foundation.Unicode

/- What `mmcli_client.py` hands to the persistence layer: the error it raises, the
   merged key-value snapshot of one SMS object, and the `extract_*` readers of that
   snapshot. A reader tries its keys in order and returns the first value that is
   neither blank nor the placeholder `--`, stripped. -/
namespace HiWaveTel
open Foundation

structure MmcliError where
  message : Str
  stdout : Str := []
  stderr : Str := []
  exitCode : Option Int := none
  deriving DecidableEq, Repr

/-- The `dict[str, str]` of one `show_sms`. -/
abbrev Details := List (Str × Str)

/-- `details.get(nk)`. -/
def Details.get (d : Details) (nk : Str) : Option Str :=
  (d.find? (fun kv => kv.1 == nk)).map Prod.snd

/-- `v and v.strip() not in ("--", "")`. -/
def present (v : Str) : Bool :=
  Text.strip v != [] && Text.strip v != "--".toList

/-- The loop all readers share. -/
def firstPresent (d : Details) : List Str → Str
  | [] => []
  | nk :: nks =>
    match d.get nk with
    | some v => if present v then Text.strip v else firstPresent d nks
    | none => firstPresent d nks

def extractFromNumber (d : Details) : Str :=
  firstPresent d (["smscontentnumber", "number", "sender", "smssrc", "smsnumber",
    "mobilenumber"].map String.toList)

def extractText (d : Details) : Str :=
  firstPresent d (["smscontenttext", "text", "smstext", "smscontent", "smsmessage", "message",
    "body", "content", "smsbody"].map String.toList)

def extractState (d : Details) : Str :=
  firstPresent d (["smspropertiesstate", "state", "smsstate"].map String.toList)

def extractSmsc (d : Details) : Str :=
  firstPresent d (["smspropertiessmsc", "smsc", "smsservicecenter",
    "servicecenter"].map String.toList)

def extractTimestamp (d : Details) : Str :=
  firstPresent d (["smspropertiestimestamp", "timestamp", "datetime", "stamp",
    "date"].map String.toList)

/-- A reader's result has no surrounding whitespace. -/
theorem strip_firstPresent (d : Details) (nks : List Str) :
    Text.strip (firstPresent d nks) = firstPresent d nks := by
  induction nks with
  | nil => rfl
  | cons nk nks ih =>
    simp only [firstPresent]
    split
    · split
      · exact Text.strip_strip _
      · exact ih
    · exact ih

@[simp] theorem strip_extractFromNumber (d : Details) :
    Text.strip (extractFromNumber d) = extractFromNumber d := strip_firstPresent d _

@[simp] theorem strip_extractText (d : Details) :
    Text.strip (extractText d) = extractText d := strip_firstPresent d _

@[simp] theorem strip_extractState (d : Details) :
    Text.strip (extractState d) = extractState d := strip_firstPresent d _

@[simp] theorem strip_extractSmsc (d : Details) :
    Text.strip (extractSmsc d) = extractSmsc d := strip_firstPresent d _

@[simp] theorem strip_extractTimestamp (d : Details) :
    Text.strip (extractTimestamp d) = extractTimestamp d := strip_firstPresent d _

/-- `_mmcli_sms_path_missing`: the object is gone from ModemManager. -/
def mmcliSmsPathMissing (exc : MmcliError) : Bool :=
  let haystack := Text.lower (exc.message ++ "\n".toList ++ exc.stderr ++ "\n".toList ++ exc.stdout)
  Text.contains haystack "couldn't find sms".toList ||
    Text.contains haystack "not found in any modem".toList

end HiWaveTel
