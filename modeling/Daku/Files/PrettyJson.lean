import Daku.Files.Credentials
import Daku.Files.Settings
import Daku.Protocol.JsonText

/-!
# Pretty JSON

What `serde_json::to_vec_pretty` writes for a map of strings and for the settings, where strings
have no control characters, and readers of that layout: a `SecretsCodec`, as `config.rs:254–266`
needs one, and a `SettingsCodec`, as `settings.rs:24–27, 69–73` does.
-/

namespace Daku.Files.PrettyJson

open Daku.Base Daku.Protocol.JsonText Daku.Wire

abbrev Entry := List Char × List Char

/-- The entries of a map, on a line each. -/
def printEntries : List Entry → List Char
  | [] => ['}']
  | [(key, value)] =>
    ['\n', ' ', ' ', '"'] ++ closing key ++ ([':', ' ', '"'] ++ closing value) ++ ['\n', '}']
  | (key, value) :: entries =>
    ['\n', ' ', ' ', '"'] ++ closing key ++ ([':', ' ', '"'] ++ closing value) ++
      ',' :: printEntries entries

/-- Read the entries of a map, at most so many. -/
def readEntries : ℕ → List Char → Option (List Entry)
  | 0, _ => none
  | fuel + 1, l => do
    let l ← expect ['\n', ' ', ' ', '"'] l
    let (key, l) ← unquote l
    let l ← expect [':', ' ', '"'] l
    let (value, l) ← unquote l
    match l with
    | ',' :: l => do
      let entries ← readEntries fuel l
      some ((key, value) :: entries)
    | ['\n', '}'] => some [(key, value)]
    | _ => none

/-- Read a map. -/
def readMap : List Char → Option (List Entry)
  | ['{', '}'] => some []
  | '{' :: l => readEntries l.length l
  | _ => none

/-- One entry is read back, and what follows it is left. -/
theorem readEntries_succ (fuel : ℕ) (key value rest : List Char) :
    readEntries (fuel + 1) (['\n', ' ', ' ', '"'] ++ closing key ++
        ([':', ' ', '"'] ++ closing value) ++ rest) =
      match rest with
      | ',' :: l => do
        let entries ← readEntries fuel l
        some ((key, value) :: entries)
      | ['\n', '}'] => some [(key, value)]
      | _ => none := by
  rw [readEntries, List.append_assoc, List.append_assoc, expect_append, Option.bind_eq_bind,
    Option.bind_some, unquote_closing]
  simp only [Option.bind_eq_bind, Option.bind_some, List.append_assoc]
  rw [expect_append, Option.bind_some, unquote_closing]
  rfl

theorem readEntries_printEntries (entries : List Entry) (hne : entries ≠ []) (fuel : ℕ)
    (hfuel : entries.length ≤ fuel) : readEntries fuel (printEntries entries) = some entries := by
  induction entries generalizing fuel with
  | nil => exact absurd rfl hne
  | cons entry entries ih =>
    obtain ⟨key, value⟩ := entry
    cases fuel with
    | zero => simp at hfuel
    | succ fuel =>
      cases entries with
      | nil =>
        rw [printEntries, readEntries_succ]
        rfl
      | cons entry entries =>
        rw [printEntries.eq_3 _ _ _ (by simp), readEntries_succ]
        show (readEntries fuel (printEntries (entry :: entries))).bind _ = _
        rw [ih (by simp) fuel (by simpa using hfuel)]
        rfl

theorem length_le_printEntries (entries : List Entry) :
    entries.length ≤ (printEntries entries).length := by
  induction entries with
  | nil => simp
  | cons entry entries ih =>
    cases entries with
    | nil => simp [printEntries]
    | cons next entries =>
      rw [printEntries.eq_3 _ _ _ (by simp)]
      simp only [List.length_append, List.length_cons] at ih ⊢
      omega

/-- What is written is read back. -/
theorem readMap_printEntries (entries : List Entry) :
    readMap ('{' :: printEntries entries) = some entries := by
  cases entries with
  | nil => rfl
  | cons entry entries =>
    have hread := readEntries_printEntries (entry :: entries) (by simp) _
      (length_le_printEntries _)
    rw [readMap]
    · exact hread
    · cases entries <;> simp [printEntries]

/-- The bytes of a map. -/
def encode (secrets : Secrets) : List UInt8 :=
  (String.ofList ('{' :: printEntries (secrets.entries.map fun e ↦
    (e.1.toList, e.2.toList)))).toByteArray.data.toList

/-- The map that bytes stand for. -/
def decode (bytes : List UInt8) : Option Secrets := do
  let chars ← (ByteArray.mk bytes.toArray).utf8Decode?
  let entries ← readMap chars.toList
  some (entries.map fun e ↦
    (⟨String.ofList e.1, String.ofList e.2⟩ : (_ : String) × String)).toAList

theorem decode_encode (secrets : Secrets) :
    ∃ read, decode (encode secrets) = some read ∧
      ∀ id, read.lookup id = secrets.lookup id := by
  have hbytes : ∀ b : ByteArray, ByteArray.mk b.data.toList.toArray = b := fun _ ↦ rfl
  have hentries : (secrets.entries.map fun e ↦ (e.1.toList, e.2.toList)).map
      (fun e ↦ (⟨String.ofList e.1, String.ofList e.2⟩ : (_ : String) × String)) =
      secrets.entries := by
    rw [List.map_map]
    exact List.map_id'' (fun e ↦ by simp) _
  refine ⟨secrets.entries.toAList, ?_, fun id ↦ ?_⟩
  · rw [decode, encode, hbytes, String.toByteArray_ofList, List.utf8Decode?_utf8Encode,
      Option.bind_eq_bind, Option.bind_some, List.toList_toArray, readMap_printEntries,
      Option.bind_eq_bind, Option.bind_some, hentries]
  · exact List.dlookup_dedupKeys id secrets.entries

/-- The codec of the file. -/
def codec : SecretsCodec := ⟨encode, decode, decode_encode⟩

section Settings

/-- What stands before the first number, between the numbers, and before the URL. -/
def pollKey : List Char := "\x7b\n  \"poll_interval_secs\": ".toList

def slowPollKey : List Char := ",\n  \"slow_poll_interval_secs\": ".toList

def webhookKey : List Char := ",\n  \"webhook_url\": ".toList

/-- An optional text. -/
def printOption : Option String → List Char
  | none => ['n', 'u', 'l', 'l']
  | some text => '"' :: closing text.toList

/-- Read an optional text. -/
def readOption : List Char → Option (Option String × List Char)
  | 'n' :: 'u' :: 'l' :: 'l' :: l => some (none, l)
  | '"' :: l => (unquote l).map fun (text, l) ↦ (some (String.ofList text), l)
  | _ => none

/-- The settings, a line each. -/
def printSettings (x : DaemonSettings) : List Char :=
  pollKey ++ (Nat.toDigits 10 x.pollIntervalSecs ++ (slowPollKey ++
    (Nat.toDigits 10 x.slowPollIntervalSecs ++ (webhookKey ++
      (printOption x.webhookUrl ++ ['\n', '}'])))))

/-- Read settings. -/
def readSettings (l : List Char) : Option DaemonSettings := do
  let l ← expect pollKey l
  let (pollIntervalSecs, l) ← readNumber l
  let l ← expect slowPollKey l
  let (slowPollIntervalSecs, l) ← readNumber l
  let l ← expect webhookKey l
  let (webhookUrl, l) ← readOption l
  if l = ['\n', '}'] then some ⟨pollIntervalSecs, slowPollIntervalSecs, webhookUrl⟩ else none

theorem readOption_printOption (text : Option String) (rest : List Char) :
    readOption (printOption text ++ rest) = some (text, rest) := by
  cases text with
  | none => rfl
  | some text =>
    rw [printOption, List.cons_append, readOption, unquote_closing, Option.map_some]
    simp only [String.ofList_toList]

theorem readSettings_printSettings (x : DaemonSettings) :
    readSettings (printSettings x) = some x := by
  have hslow : ∀ rest, ∀ c ∈ (slowPollKey ++ rest).head?, ¬ c.isDigit := by
    intro rest c hc
    obtain rfl := Option.some.inj hc
    decide
  have hurl : ∀ rest, ∀ c ∈ (webhookKey ++ rest).head?, ¬ c.isDigit := by
    intro rest c hc
    obtain rfl := Option.some.inj hc
    decide
  simp only [readSettings, printSettings, expect_append, Option.bind_eq_bind, Option.bind_some,
    readNumber_append _ _ (hslow _), readNumber_append _ _ (hurl _), readOption_printOption,
    if_true]

/-- The codec of the settings file. -/
def settingsCodec : SettingsCodec where
  encode x := (String.ofList (printSettings x)).toByteArray.data.toList
  decode bytes := do
    let chars ← (ByteArray.mk bytes.toArray).utf8Decode?
    readSettings chars.toList
  decode_encode x := by
    have hbytes : ∀ b : ByteArray, ByteArray.mk b.data.toList.toArray = b := fun _ ↦ rfl
    rw [hbytes, String.toByteArray_ofList, List.utf8Decode?_utf8Encode, Option.bind_eq_bind,
      Option.bind_some, List.toList_toArray, readSettings_printSettings]

end Settings

end Daku.Files.PrettyJson
