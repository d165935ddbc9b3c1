import RetroPark.Cores.LibretroShim.Options
import RetroPark.Support.Json
import Mathlib.Data.Set.List

/-!
# The options as JSON

`sh_core_options_json` writes the harvested options as a JSON array, byte by byte.

* `coreOptionsJson` is the text it writes;
* `TextOption` is an option whose strings are texts, and `TextOption.json` the JSON value it stands
  for;
* `options_round_trip` says that the text is a JSON array, and reads back as the options.
-/

namespace RetroPark.LibretroShim

open Json (utf8)

/-! ### What is written -/

/-- A string literal. -/
def literal (s : String) : Blob := utf8 s.toList

/-- A digit of `%x`. -/
def hexDigit (n : ℕ) : Char := Char.ofNat (if n < 10 then '0'.toNat + n else 'a'.toNat + (n - 10))

/-- `\u%04x` -/
def unicodeEscape (n : ℕ) : List Char :=
  ['\\', 'u', hexDigit (n / 4096 % 16), hexDigit (n / 256 % 16), hexDigit (n / 16 % 16),
    hexDigit (n % 16)]

/-- What `json_escape` appends for a byte. -/
def escapeByte (c : UInt8) : Blob :=
  if c = 34 then literal "\\\""
  else if c = 92 then literal "\\\\"
  else if c = 10 then literal "\\n"
  else if c = 13 then literal "\\r"
  else if c = 9 then literal "\\t"
  else if c < 0x20 then utf8 (unicodeEscape c.toNat)
  else [c]

/-- `json_escape` -/
def jsonEscape (str : Blob) : Blob := str.flatMap escapeByte

/-- A loop that puts a comma before every item but the first. -/
def separated (items : List Blob) : Blob := (literal ",").intercalate items

/-- A value with its label, as an object. -/
def valueJson (v : Blob × Blob) : Blob :=
  literal "\x7b\"value\":\"" ++ jsonEscape v.1 ++ literal "\",\"label\":\"" ++ jsonEscape v.2 ++
    literal "\"\x7d"

/-- An option as an object. -/
def optionJson (o : ShimOption) : Blob :=
  literal "\x7b\"key\":\"" ++ jsonEscape o.key ++ literal "\",\"desc\":\"" ++ jsonEscape o.desc ++
    literal "\",\"info\":\"" ++ jsonEscape o.info ++ literal "\",\"default\":\"" ++
    jsonEscape o.defaultValue ++ literal "\",\"values\":[" ++ separated (o.values.map valueJson) ++
    literal "]\x7d"

/-- `sh_core_options_json` -/
def Shim.coreOptionsJson (s : Shim) : Blob :=
  literal "[" ++ separated (s.optionDefs.map optionJson) ++ literal "]"

/-! ### Escaping -/

/-- What `json_escape` makes of a character. -/
def escapeChar (c : Char) : List Char :=
  if c = '"' then ['\\', '"']
  else if c = '\\' then ['\\', '\\']
  else if c = '\n' then ['\\', 'n']
  else if c = '\r' then ['\\', 'r']
  else if c = '\t' then ['\\', 't']
  else if c.toNat < 0x20 then unicodeEscape c.toNat
  else [c]

/-- An ASCII byte is escaped like the character it encodes. -/
theorem escapeByte_ascii : ∀ n < 128,
    escapeByte (UInt8.ofNat n) = utf8 (escapeChar (Char.ofNat n)) := by
  decide +kernel

/-- A byte of a longer encoding is written as it is. -/
theorem escapeByte_of_le {c : UInt8} (h : 128 ≤ c.toNat) : escapeByte c = [c] := by
  have hne : ∀ d : UInt8, d.toNat < 128 → c ≠ d := by
    intro d hd heq
    rw [heq] at h
    omega
  have hge : ¬c < 0x20 := by
    rw [UInt8.lt_iff_toNat_lt]
    exact Nat.not_lt.mpr (Nat.le_trans (by decide) h)
  unfold escapeByte
  rw [if_neg (hne 34 (by decide)), if_neg (hne 92 (by decide)), if_neg (hne 10 (by decide)),
    if_neg (hne 13 (by decide)), if_neg (hne 9 (by decide)), if_neg hge]

/-- A character beyond ASCII is written as it is. -/
theorem escapeChar_of_le {c : Char} (h : 128 ≤ c.toNat) : escapeChar c = [c] := by
  have hne : ∀ d : Char, d.toNat < 128 → c ≠ d := by
    intro d hd heq
    rw [heq] at h
    omega
  unfold escapeChar
  rw [if_neg (hne '"' (by decide)), if_neg (hne '\\' (by decide)), if_neg (hne '\n' (by decide)),
    if_neg (hne '\r' (by decide)), if_neg (hne '\t' (by decide)), if_neg (by omega)]

/-- Escaping the bytes of a text is escaping its characters: the bytes of a character from 128 on
are all left alone. -/
theorem jsonEscape_utf8 (cs : List Char) : jsonEscape (utf8 cs) = utf8 (cs.flatMap escapeChar) := by
  induction cs with
  | nil => rfl
  | cons c cs ih =>
    have hchar : jsonEscape (String.utf8EncodeChar c) = utf8 (escapeChar c) := by
      by_cases hlt : c.toNat < 128
      · have hascii := escapeByte_ascii c.toNat hlt
        rw [Char.ofNat_toNat] at hascii
        rw [Json.utf8EncodeChar_ascii hlt, ← hascii]
        simp [jsonEscape]
      · -- The bytes of such a character are all from 128 on, and none is escaped.
        rw [Nat.not_lt] at hlt
        rw [escapeChar_of_le hlt]
        have hbytes : ∀ b ∈ String.utf8EncodeChar c, escapeByte b = [b] := fun b hb =>
          escapeByte_of_le (Json.le_utf8EncodeChar hlt hb)
        unfold jsonEscape
        rw [List.flatMap_congr hbytes, List.flatMap_singleton']
        simp [utf8]
    rw [Json.utf8_cons, List.flatMap_cons, Json.utf8_append, ← ih, ← hchar]
    exact List.flatMap_append

/-- The four hexadecimal digits of a control character are read back. -/
theorem hexDigits_read : ∀ n < 32,
    Json.hex4 (hexDigit (n / 4096 % 16)) (hexDigit (n / 256 % 16)) (hexDigit (n / 16 % 16))
      (hexDigit (n % 16)) = some n := by
  decide +kernel

/-- A reader of the string undoes the escaping. -/
theorem escapes_escapeChar : Json.Escapes escapeChar := by
  intro c rest
  unfold escapeChar
  split_ifs with hquote hbackslash hnewline hreturn htab hcontrol
  · subst hquote
    exact Json.readString_escape rfl
  · subst hbackslash
    exact Json.readString_escape rfl
  · subst hnewline
    exact Json.readString_escape rfl
  · subst hreturn
    exact Json.readString_escape rfl
  · subst htab
    exact Json.readString_escape rfl
  · have hread : _ = some (_, rest) :=
      Json.readEscape_unicode (hexDigits_read c.toNat hcontrol) (by omega)
    rw [Char.ofNat_toNat] at hread
    exact Json.readString_escape hread
  · exact Json.readString_char hquote hbackslash hcontrol

/-! ### Options whose strings are texts -/

/-- Whether the bytes are valid UTF-8. -/
def IsText (b : Blob) : Prop := ∃ cs, utf8 cs = b

/-- Whether the strings of an option are valid UTF-8. -/
structure ShimOption.IsText (o : ShimOption) : Prop where
  key : LibretroShim.IsText o.key
  desc : LibretroShim.IsText o.desc
  info : LibretroShim.IsText o.info
  defaultValue : LibretroShim.IsText o.defaultValue
  values : ∀ v ∈ o.values, LibretroShim.IsText v.1 ∧ LibretroShim.IsText v.2

/-- An option in characters. -/
structure TextOption where
  key : List Char
  desc : List Char
  info : List Char
  defaultValue : List Char
  values : List (List Char × List Char)

/-- The bytes of a value and of its label. -/
def encodeValue (v : List Char × List Char) : Blob × Blob := (utf8 v.1, utf8 v.2)

/-- The member of an object whose value is a string. -/
def stringMember (name s : List Char) : Json.Member := ⟨name, Json.quoted escapeChar s, .str s⟩

/-- The members that a value is written as. -/
def valueMembers (v : List Char × List Char) : List Json.Member :=
  [stringMember "value".toList v.1, stringMember "label".toList v.2]

/-- The text of an object with these members. -/
def objectText (ms : List Json.Member) : List Char :=
  '\x7b' :: ([','].intercalate (ms.map (Json.Member.written escapeChar)) ++ ['\x7d'])

/-- The object with these members. -/
def object (ms : List Json.Member) : Json := .obj (ms.map fun m => (m.name, m.value))

namespace TextOption

/-- The option as the shim holds it. -/
def encode (t : TextOption) : ShimOption where
  key := utf8 t.key
  desc := utf8 t.desc
  info := utf8 t.info
  defaultValue := utf8 t.defaultValue
  values := t.values.map encodeValue

/-- The array of the values. -/
def valuesText (t : TextOption) : List Char :=
  '[' :: ([','].intercalate (t.values.map fun v => objectText (valueMembers v)) ++ [']'])

/-- The members that an option is written as. -/
def members (t : TextOption) : List Json.Member :=
  [stringMember "key".toList t.key, stringMember "desc".toList t.desc,
    stringMember "info".toList t.info, stringMember "default".toList t.defaultValue,
    ⟨"values".toList, t.valuesText, .arr (t.values.map fun v => object (valueMembers v))⟩]

/-- The JSON value an option stands for. -/
def json (t : TextOption) : Json := object t.members

end TextOption

/-- A member with a string value is written in the grammar of JSON. -/
theorem writes_stringMember (name s : List Char) :
    Json.Writes (stringMember name s).text (stringMember name s).value :=
  escapes_escapeChar.writes s

/-- The object of a value and its label is written in the grammar of JSON. -/
theorem writes_value (v : List Char × List Char) :
    Json.Writes (objectText (valueMembers v)) (object (valueMembers v)) := by
  apply Json.Writes.obj escapes_escapeChar (List.cons_ne_nil _ _)
  simp [writes_stringMember]

/-- The object of an option is written in the grammar of JSON. -/
theorem TextOption.writes (t : TextOption) : Json.Writes (objectText t.members) t.json := by
  apply Json.Writes.obj escapes_escapeChar (List.cons_ne_nil _ _)
  have hvalues : Json.Writes t.valuesText (.arr (t.values.map fun v => object (valueMembers v))) :=
    Json.Writes.arr fun v _ => writes_value v
  simp [writes_stringMember, hvalues]

/-! ### The bytes of the text -/

/-- Commas between encoded texts are commas between the texts. -/
theorem separated_utf8 (ws : List (List Char)) :
    separated (ws.map utf8) = utf8 ([','].intercalate ws) := by
  rw [Json.utf8_intercalate]
  rfl

/-- A member whose name needs no escaping. -/
theorem written_member {name : List Char} (h : name.flatMap escapeChar = name) (text : List Char)
    (v : Json) :
    Json.Member.written escapeChar ⟨name, text, v⟩ = '"' :: (name ++ "\":".toList) ++ text := by
  simp [Json.Member.written, Json.quoted, h]

/-- How a member with a string value is spelled. -/
theorem written_stringMember {name : List Char} (h : name.flatMap escapeChar = name)
    (s : List Char) :
    (stringMember name s).written escapeChar =
      '"' :: (name ++ "\":\"".toList) ++ s.flatMap escapeChar ++ ['"'] := by
  rw [stringMember, written_member h]
  simp [Json.quoted]

/-- The bytes written for a value are those of its object. -/
theorem valueJson_encode (v : List Char × List Char) :
    valueJson (encodeValue v) = utf8 (objectText (valueMembers v)) := by
  unfold valueJson encodeValue literal
  rw [jsonEscape_utf8, jsonEscape_utf8]
  simp only [← Json.utf8_append]
  congr 1
  unfold objectText valueMembers
  rw [List.map_cons, List.map_singleton, written_stringMember (by decide),
    written_stringMember (by decide)]
  simp [List.intercalate_cons_of_ne_nil]

/-- The bytes written for an option are those of its object. -/
theorem optionJson_encode (t : TextOption) : optionJson t.encode = utf8 (objectText t.members) := by
  have hvalues : separated (t.encode.values.map valueJson) =
      utf8 ([','].intercalate (t.values.map fun v => objectText (valueMembers v))) := by
    rw [← separated_utf8, List.map_map]
    unfold TextOption.encode
    rw [List.map_map]
    congr 1
    exact List.map_congr_left fun v _ => valueJson_encode v
  unfold optionJson literal
  rw [hvalues]
  unfold TextOption.encode
  dsimp only
  rw [jsonEscape_utf8, jsonEscape_utf8, jsonEscape_utf8, jsonEscape_utf8]
  simp only [← Json.utf8_append]
  congr 1
  rw [objectText, TextOption.members]
  simp only [List.map_cons, List.map_nil]
  rw [written_stringMember (by decide), written_stringMember (by decide),
    written_stringMember (by decide), written_stringMember (by decide), written_member (by decide)]
  simp [List.intercalate_cons_of_ne_nil, objectText, TextOption.valuesText]

/-! ### Reading the options back -/

/-- The string that a member holds. -/
def stringOf (name : String) (j : Json) : Option Blob :=
  (j.member? name.toList).bind fun v => v.string?.map utf8

/-- A value with its label. -/
def valueOfJson (j : Json) : Option (Blob × Blob) := do
  let value ← stringOf "value" j
  let label ← stringOf "label" j
  return (value, label)

/-- The option that an object describes. -/
def ShimOption.ofJson (j : Json) : Option ShimOption := do
  let key ← stringOf "key" j
  let desc ← stringOf "desc" j
  let info ← stringOf "info" j
  let defaultValue ← stringOf "default" j
  let values ← (j.member? "values".toList).bind Json.elements?
  let values ← values.mapM valueOfJson
  return { key, desc, info, defaultValue, values }

/-- If each element is read back, so is the list. -/
theorem mapM_map_of_forall {α β γ : Type} {f : α → β} {g : β → Option γ} {h : α → γ} {xs : List α}
    (hx : ∀ x ∈ xs, g (f x) = some (h x)) : (xs.map f).mapM g = some (xs.map h) := by
  induction xs with
  | nil => rfl
  | cons x xs ih =>
    rw [List.map_cons, List.mapM_cons, hx x (List.mem_cons_self ..),
      ih fun y hy => hx y (List.mem_cons_of_mem _ hy)]
    rfl

/-- A value is read back from its object. -/
theorem valueOfJson_object (v : List Char × List Char) :
    valueOfJson (object (valueMembers v)) = some (encodeValue v) := rfl

/-- An option is read back from its object. -/
theorem ofJson_json (t : TextOption) : ShimOption.ofJson t.json = some t.encode := by
  have hvalues : (t.values.map fun v => object (valueMembers v)).mapM valueOfJson =
      some (t.values.map encodeValue) :=
    mapM_map_of_forall fun v _ => valueOfJson_object v
  change ((t.values.map fun v => object (valueMembers v)).mapM valueOfJson).bind _ = _
  rw [hvalues]
  rfl

/-- An option whose strings are texts is the encoding of one. -/
theorem ShimOption.IsText.exists_text {o : ShimOption} (h : o.IsText) :
    ∃ t : TextOption, t.encode = o := by
  obtain ⟨key, hkey⟩ := h.key
  obtain ⟨desc, hdesc⟩ := h.desc
  obtain ⟨info, hinfo⟩ := h.info
  obtain ⟨defaultValue, hdefault⟩ := h.defaultValue
  obtain ⟨values, hvalues⟩ : o.values ∈ Set.range (List.map encodeValue) := by
    rw [Set.range_list_map]
    intro v hv
    obtain ⟨⟨value, hvalue⟩, label, hlabel⟩ := h.values v hv
    exact ⟨(value, label), Prod.ext hvalue hlabel⟩
  refine ⟨⟨key, desc, info, defaultValue, values⟩, ?_⟩
  unfold TextOption.encode
  rw [hkey, hdesc, hinfo, hdefault, hvalues]

/-! ### No NUL -/

/-- An escaped byte has no NUL in it. -/
theorem escapeByte_ne_zero : ∀ n < 256, 0 ∉ escapeByte (UInt8.ofNat n) := by
  decide +kernel

/-- An escaped string has no NUL in it. -/
theorem zero_not_mem_jsonEscape (str : Blob) : 0 ∉ jsonEscape str := by
  intro hmem
  obtain ⟨c, -, hc⟩ := List.mem_flatMap.mp hmem
  have hne := escapeByte_ne_zero c.toNat c.toNat_lt
  rw [UInt8.ofNat_toNat] at hne
  exact hne hc

/-- Separated parts without NUL have no NUL in them. -/
theorem zero_not_mem_separated {α : Type} {f : α → Blob} (h : ∀ x, 0 ∉ f x) (xs : List α) :
    0 ∉ separated (xs.map f) := by
  induction xs with
  | nil => exact List.not_mem_nil
  | cons x xs ih =>
    unfold separated at ih ⊢
    by_cases hnil : xs = []
    · simp [hnil, h x]
    · rw [List.map_cons, List.intercalate_cons_of_ne_nil (by simpa using hnil)]
      simp only [List.mem_append, not_or]
      exact ⟨⟨h x, by decide⟩, ih⟩

/-- The document has no NUL in it, so it is a C string. -/
theorem zero_not_mem_coreOptionsJson (s : Shim) : 0 ∉ s.coreOptionsJson := by
  have hvalue : ∀ v, 0 ∉ valueJson v := by
    intro v
    simp only [valueJson, List.mem_append, not_or]
    refine ⟨⟨⟨⟨by decide, ?_⟩, by decide⟩, ?_⟩, by decide⟩ <;> apply zero_not_mem_jsonEscape
  have hoption : ∀ o, 0 ∉ optionJson o := by
    intro o
    have hvalues := zero_not_mem_separated hvalue o.values
    simp only [optionJson, List.mem_append, not_or]
    refine ⟨⟨⟨⟨⟨⟨⟨⟨⟨⟨by decide, ?_⟩, by decide⟩, ?_⟩, by decide⟩, ?_⟩, by decide⟩, ?_⟩, by decide⟩,
      hvalues⟩, by decide⟩ <;> apply zero_not_mem_jsonEscape
  have hoptions := zero_not_mem_separated hoption s.optionDefs
  simp only [Shim.coreOptionsJson, List.mem_append, not_or]
  exact ⟨⟨by decide, hoptions⟩, by decide⟩

/-- The options read back from what is written are the harvested ones, in the same order, whatever
their strings hold. The text has no NUL, so that the caller sees all of it. -/
theorem options_round_trip (s : Shim) (h : ∀ o ∈ s.optionDefs, o.IsText) :
    0 ∉ s.coreOptionsJson ∧
      ∃ elements, Json.parseUtf8 s.coreOptionsJson = some (.arr elements) ∧
        elements.mapM ShimOption.ofJson = some s.optionDefs := by
  refine ⟨zero_not_mem_coreOptionsJson s, ?_⟩
  obtain ⟨ts, hts⟩ : s.optionDefs ∈ Set.range (List.map TextOption.encode) := by
    rw [Set.range_list_map]
    exact fun o ho => (h o ho).exists_text
  have htext : s.coreOptionsJson =
      utf8 ('[' :: ([','].intercalate (ts.map fun t => objectText t.members) ++ [']'])) := by
    -- The strings of the options are texts, so each option is written as one.
    have hitems : s.optionDefs.map optionJson =
        (ts.map fun t => objectText t.members).map utf8 := by
      rw [← hts, List.map_map, List.map_map]
      exact List.map_congr_left fun t _ => optionJson_encode t
    unfold Shim.coreOptionsJson
    rw [hitems, separated_utf8, Json.utf8_cons, Json.utf8_append, ← List.append_assoc]
    rfl
  refine ⟨ts.map TextOption.json, ?_, ?_⟩
  · rw [htext]
    apply Json.parseUtf8_of_writes
    exact Json.Writes.arr fun t _ => t.writes
  · rw [← hts]
    exact mapM_map_of_forall fun t _ => ofJson_json t

/-- An option with a quotation mark, a backslash, a control character and an accent in its
strings. -/
def oddOption : ShimOption where
  key := literal "core_odd"
  desc := literal "The \"odd\" one"
  info := literal "C:\\odd\x01\n"
  defaultValue := literal "été"
  values := [(literal "été", literal "Été"), (literal "", literal "none")]

/-- An option with every kind of odd character is read back. -/
theorem options_round_trip_odd :
    ∃ elements, Json.parseUtf8 (({} : Shim).addOption oddOption).coreOptionsJson =
        some (.arr elements) ∧ elements.mapM ShimOption.ofJson = some [oddOption] := by
  have htext : oddOption.IsText := by
    refine ⟨⟨_, rfl⟩, ⟨_, rfl⟩, ⟨_, rfl⟩, ⟨_, rfl⟩, ?_⟩
    simp only [oddOption, List.mem_cons, List.not_mem_nil, or_false]
    rintro v (rfl | rfl)
    · exact ⟨⟨_, rfl⟩, _, rfl⟩
    · exact ⟨⟨_, rfl⟩, _, rfl⟩
  have hdefs : (({} : Shim).addOption oddOption).optionDefs = [oddOption] := rfl
  have hround := options_round_trip (({} : Shim).addOption oddOption) (by simpa [hdefs] using htext)
  rw [hdefs] at hround
  exact hround.2

end RetroPark.LibretroShim
