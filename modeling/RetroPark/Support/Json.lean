import Mathlib.Data.List.Basic
import Mathlib.Tactic.SplitIfs

/-!
# JSON texts

A reader of JSON texts as RFC 8259 defines them, over the characters of the text and over its UTF-8
bytes.

* `parse` reads one value that is the whole text; strings become the characters that they stand for,
  numbers keep their spelling;
* `Escapes` says of a way to escape characters that a string read back gives the characters;
* `Writes` says that a text is one way to write a value, whatever follows it. There is one rule for
  each kind of value, and `parse_of_writes` reads a written value back;
* `utf8` and `utf8Decode` go between characters and bytes.
-/

/-- A JSON value. -/
inductive Json
  | null
  | bool (b : Bool)
  | num (spelling : List Char)
  | str (s : List Char)
  | arr (elements : List Json)
  | obj (members : List (List Char × Json))

namespace Json

/-! ### Reading -/

/-- `ws` -/
def isWs (c : Char) : Bool := c = ' ' || c = '\t' || c = '\n' || c = '\r'

def skipWs (cs : List Char) : List Char := cs.dropWhile isWs

def isDigit (c : Char) : Bool := '0' ≤ c && c ≤ '9'

/-- The value of a `HEXDIG`. -/
def hexValue (c : Char) : Option ℕ :=
  if '0' ≤ c ∧ c ≤ '9' then some (c.toNat - '0'.toNat)
  else if 'a' ≤ c ∧ c ≤ 'f' then some (c.toNat - 'a'.toNat + 10)
  else if 'A' ≤ c ∧ c ≤ 'F' then some (c.toNat - 'A'.toNat + 10)
  else none

/-- `4HEXDIG` -/
def hex4 (a b c d : Char) : Option ℕ := do
  let a ← hexValue a
  let b ← hexValue b
  let c ← hexValue c
  let d ← hexValue d
  return ((a * 16 + b) * 16 + c) * 16 + d

def isHighSurrogate (u : ℕ) : Bool := 0xD800 ≤ u && u ≤ 0xDBFF

def isLowSurrogate (u : ℕ) : Bool := 0xDC00 ≤ u && u ≤ 0xDFFF

/-- What follows `\u`. A character outside the basic plane is a pair of surrogates. -/
def readUnicode : List Char → Option (Char × List Char)
  | a :: b :: c :: d :: rest => do
    let u ← hex4 a b c d
    if isHighSurrogate u then
      match rest with
      | '\\' :: 'u' :: e :: f :: g :: h :: rest => do
        let v ← hex4 e f g h
        if isLowSurrogate v then
          return (Char.ofNat (0x10000 + (u - 0xD800) * 0x400 + (v - 0xDC00)), rest)
        else none
      | _ => none
    else if isLowSurrogate u then none
    else return (Char.ofNat u, rest)
  | _ => none

/-- The two-character escapes. -/
def simpleEscape (c : Char) : Option Char :=
  if c = '"' then some '"'
  else if c = '\\' then some '\\'
  else if c = '/' then some '/'
  else if c = 'b' then some (Char.ofNat 8)
  else if c = 'f' then some (Char.ofNat 12)
  else if c = 'n' then some '\n'
  else if c = 'r' then some '\r'
  else if c = 't' then some '\t'
  else none

/-- What follows a backslash. -/
def readEscape : List Char → Option (Char × List Char)
  | [] => none
  | c :: rest => if c = 'u' then readUnicode rest else (simpleEscape c).map fun e => (e, rest)

/-- A Unicode escape takes characters. -/
theorem readUnicode_length {cs rest : List Char} {e : Char} (h : readUnicode cs = some (e, rest)) :
    rest.length < cs.length := by
  unfold readUnicode at h
  split at h
  · obtain ⟨u, -, h⟩ := Option.bind_eq_some_iff.mp h
    split_ifs at h
    · split at h
      · obtain ⟨v, -, h⟩ := Option.bind_eq_some_iff.mp h
        split_ifs at h
        obtain ⟨-, rfl⟩ := Prod.mk.inj (Option.some.inj h)
        simp only [List.length_cons]
        omega
      · exact nomatch h
    · obtain ⟨-, rfl⟩ := Prod.mk.inj (Option.some.inj h)
      simp only [List.length_cons]
      omega
  · exact nomatch h

/-- An escape takes characters. -/
theorem readEscape_length {cs rest : List Char} {e : Char} (h : readEscape cs = some (e, rest)) :
    rest.length < cs.length := by
  cases cs with
  | nil => exact nomatch h
  | cons c cs =>
    rw [readEscape] at h
    split_ifs at h with hu
    · exact Nat.lt_succ_of_lt (readUnicode_length h)
    · obtain ⟨e', -, heq⟩ := Option.map_eq_some_iff.mp h
      obtain ⟨-, rfl⟩ := Prod.mk.inj heq
      exact Nat.lt_succ_self _

/-- The characters of a string up to its closing quotation mark, and the rest of the text. -/
def readString : List Char → Option (List Char × List Char)
  | [] => none
  | c :: rest =>
    if c = '"' then some ([], rest)
    else if c = '\\' then
      match _h : readEscape rest with
      | some (e, rest) => (readString rest).map fun p => (e :: p.1, p.2)
      | none => none
    else if c.toNat < 0x20 then none
    else (readString rest).map fun p => (c :: p.1, p.2)
  termination_by cs => cs.length
  decreasing_by
    · exact Nat.lt_succ_of_lt (readEscape_length _h)
    · exact Nat.lt_succ_self _

/-- One or more digits. -/
def readDigits (cs : List Char) : Option (List Char × List Char) :=
  match cs.span isDigit with
  | ([], _) => none
  | (ds, rest) => some (ds, rest)

/-- `int` -/
def readInt : List Char → Option (List Char × List Char)
  | '0' :: rest => some (['0'], rest)
  | cs => readDigits cs

/-- `[ frac ]` -/
def readFrac : List Char → Option (List Char × List Char)
  | '.' :: rest => (readDigits rest).map fun p => ('.' :: p.1, p.2)
  | cs => some ([], cs)

/-- `[ exp ]` -/
def readExp : List Char → Option (List Char × List Char)
  | e :: cs =>
    if e = 'e' ∨ e = 'E' then
      match cs with
      | '-' :: rest => (readDigits rest).map fun p => (e :: '-' :: p.1, p.2)
      | '+' :: rest => (readDigits rest).map fun p => (e :: '+' :: p.1, p.2)
      | rest => (readDigits rest).map fun p => (e :: p.1, p.2)
    else some ([], e :: cs)
  | [] => some ([], [])

/-- `number` -/
def readNumber (cs : List Char) : Option (List Char × List Char) := do
  let (sign, cs) := match cs with
    | '-' :: rest => (['-'], rest)
    | cs => ([], cs)
  let (int, cs) ← readInt cs
  let (frac, cs) ← readFrac cs
  let (exp, cs) ← readExp cs
  return (sign ++ int ++ frac ++ exp, cs)

/-- A literal name. -/
def readName (name : List Char) (v : Json) (cs : List Char) : Option (Json × List Char) :=
  if name.isPrefixOf cs then some (v, cs.drop name.length) else none

mutual

/-- `value`, after any whitespace. The number bounds the steps down into the value. -/
def readValue : ℕ → List Char → Option (Json × List Char)
  | 0, _ => none
  | n + 1, cs =>
    match skipWs cs with
    | '[' :: rest =>
      match skipWs rest with
      | ']' :: rest => some (.arr [], rest)
      | _ => (readElements n rest).map fun p => (.arr p.1, p.2)
    | '{' :: rest =>
      match skipWs rest with
      | '}' :: rest => some (.obj [], rest)
      | _ => (readMembers n rest).map fun p => (.obj p.1, p.2)
    | '"' :: rest => (readString rest).map fun p => (.str p.1, p.2)
    | 'n' :: rest => readName "ull".toList .null rest
    | 't' :: rest => readName "rue".toList (.bool true) rest
    | 'f' :: rest => readName "alse".toList (.bool false) rest
    | cs => (readNumber cs).map fun p => (.num p.1, p.2)

/-- `value *( value-separator value ) end-array` -/
def readElements : ℕ → List Char → Option (List Json × List Char)
  | 0, _ => none
  | n + 1, cs => do
    let (v, rest) ← readValue n cs
    match skipWs rest with
    | ',' :: rest => (readElements n rest).map fun p => (v :: p.1, p.2)
    | ']' :: rest => return ([v], rest)
    | _ => none

/-- `member *( value-separator member ) end-object` -/
def readMembers : ℕ → List Char → Option (List (List Char × Json) × List Char)
  | 0, _ => none
  | n + 1, cs =>
    match skipWs cs with
    | '"' :: rest => do
      let (key, rest) ← readString rest
      match skipWs rest with
      | ':' :: rest => do
        let (v, rest) ← readValue n rest
        match skipWs rest with
        | ',' :: rest => (readMembers n rest).map fun p => ((key, v) :: p.1, p.2)
        | '}' :: rest => return ([(key, v)], rest)
        | _ => none
      | _ => none
    | _ => none

end

/-- `JSON-text`: a value with nothing but whitespace around it. Every two steps down into a value go
past a character of it. -/
def parse (text : List Char) : Option Json := do
  let (v, rest) ← readValue (2 * text.length) text
  if skipWs rest = [] then some v else none

/-- A character that is no white space is not skipped. -/
theorem skipWs_cons {c : Char} (h : isWs c = false) (cs : List Char) :
    skipWs (c :: cs) = c :: cs := by
  simp [skipWs, h]

/-! ### The steps into a value -/

section Steps

variable {n : ℕ} {cs rest : List Char}

/-- A string goes on after an escape. -/
theorem readString_escape {e : Char} (h : readEscape cs = some (e, rest)) :
    readString ('\\' :: cs) = (readString rest).map fun p => (e :: p.1, p.2) := by
  rw [readString, if_neg (by decide), if_pos rfl]
  split
  · next e' rest' heq =>
    obtain ⟨rfl, rfl⟩ := Prod.mk.inj (Option.some.inj (heq.symm.trans h))
    rfl
  · next heq => exact nomatch heq.symm.trans h

/-- A string goes on after a plain character. -/
theorem readString_char {c : Char}
    (hquote : c ≠ '"') (hbackslash : c ≠ '\\') (h : ¬c.toNat < 0x20) :
    readString (c :: rest) = (readString rest).map fun p => (c :: p.1, p.2) := by
  rw [readString, if_neg hquote, if_neg hbackslash, if_neg h]

/-- Four hexadecimal digits below the surrogates are a character. -/
theorem readEscape_unicode {a b c d : Char} {u : ℕ} (h : hex4 a b c d = some u) (hu : u < 0xD800) :
    readEscape ('u' :: a :: b :: c :: d :: rest) = some (Char.ofNat u, rest) := by
  have hhigh : ¬isHighSurrogate u = true := by
    simp [isHighSurrogate]
    omega
  have hlow : ¬isLowSurrogate u = true := by
    simp [isLowSurrogate]
    omega
  rw [readEscape, if_pos rfl, readUnicode, h]
  change (if isHighSurrogate u = true then _ else _) = _
  rw [if_neg hhigh, if_neg hlow]
  rfl

/-- A value that starts with a quotation mark is a string. -/
theorem readValue_string (n : ℕ) (rest : List Char) :
    readValue (n + 1) ('"' :: rest) = (readString rest).map fun p => (.str p.1, p.2) := by
  rw [readValue, skipWs_cons (by decide)]
  rfl

/-- No value starts with a bracket that closes. -/
theorem readValue_closing (n : ℕ) (h : skipWs cs = ']' :: rest) : readValue n cs = none := by
  cases n with
  | zero => rfl
  | succ n =>
    rw [readValue, h]
    rfl

/-- The empty array is read. -/
theorem readValue_empty_array (n : ℕ) (rest : List Char) :
    readValue (n + 1) ('[' :: ']' :: rest) = some (.arr [], rest) := by
  rw [readValue, skipWs_cons (by decide)]
  rfl

/-- An array that is not empty. -/
theorem readValue_array (n : ℕ) (h : ∀ rest, skipWs cs ≠ ']' :: rest) :
    readValue (n + 1) ('[' :: cs) = (readElements n cs).map fun p => (.arr p.1, p.2) := by
  have hstep : readValue (n + 1) ('[' :: cs) =
      match skipWs cs with
      | ']' :: rest => some (.arr [], rest)
      | _ => (readElements n cs).map fun p => (.arr p.1, p.2) := by
    rw [readValue, skipWs_cons (by decide)]
    rfl
  rw [hstep]
  split
  · next rest heq => exact absurd heq (h rest)
  · rfl

/-- An object with a member. -/
theorem readValue_object (n : ℕ) (cs : List Char) :
    readValue (n + 1) ('\x7b' :: '"' :: cs) =
      (readMembers n ('"' :: cs)).map fun p => (.obj p.1, p.2) := by
  rw [readValue, skipWs_cons (by decide)]
  rfl

/-- After an element comes a comma or the closing bracket. -/
theorem readElements_of_value {v : Json} (h : readValue n cs = some (v, rest)) :
    readElements (n + 1) cs =
      match skipWs rest with
      | ',' :: rest => (readElements n rest).map fun q => (v :: q.1, q.2)
      | ']' :: rest => some ([v], rest)
      | _ => none := by
  rw [readElements, h]
  rfl

/-- An element with another one after it. -/
theorem readElements_comma {v : Json} (h : readValue n cs = some (v, ',' :: rest)) :
    readElements (n + 1) cs = (readElements n rest).map fun q => (v :: q.1, q.2) := by
  rw [readElements_of_value h, skipWs_cons (by decide)]
  rfl

/-- A closing bracket ends the elements. -/
theorem readElements_bracket {v : Json} (h : readValue n cs = some (v, ']' :: rest)) :
    readElements (n + 1) cs = some ([v], rest) := by
  rw [readElements_of_value h, skipWs_cons (by decide)]
  rfl

/-- After a member comes a comma or the closing brace. -/
theorem readMembers_of_value {key : List Char} {v : Json} {value : List Char}
    (hkey : readString cs = some (key, ':' :: value)) (h : readValue n value = some (v, rest)) :
    readMembers (n + 1) ('"' :: cs) =
      match skipWs rest with
      | ',' :: rest => (readMembers n rest).map fun q => ((key, v) :: q.1, q.2)
      | '\x7d' :: rest => some ([(key, v)], rest)
      | _ => none := by
  rw [readMembers, skipWs_cons (by decide)]
  change ((readString cs).bind fun p => _) = _
  rw [hkey, Option.bind_some]
  dsimp only
  rw [skipWs_cons (by decide)]
  change ((readValue n value).bind fun p => _) = _
  rw [h]
  rfl

/-- A comma goes on to the next member. -/
theorem readMembers_comma {key : List Char} {v : Json} {value : List Char}
    (hkey : readString cs = some (key, ':' :: value))
    (h : readValue n value = some (v, ',' :: rest)) :
    readMembers (n + 1) ('"' :: cs) =
      (readMembers n rest).map fun q => ((key, v) :: q.1, q.2) := by
  rw [readMembers_of_value hkey h, skipWs_cons (by decide)]
  rfl

/-- A closing brace ends the members. -/
theorem readMembers_brace {key : List Char} {v : Json} {value : List Char}
    (hkey : readString cs = some (key, ':' :: value))
    (h : readValue n value = some (v, '\x7d' :: rest)) :
    readMembers (n + 1) ('"' :: cs) = some ([(key, v)], rest) := by
  rw [readMembers_of_value hkey h, skipWs_cons (by decide)]
  rfl

end Steps

/-! ### Writing -/

/-- A way to escape characters in a string, which a reader of the string undoes. -/
def Escapes (esc : Char → List Char) : Prop :=
  ∀ c rest, readString (esc c ++ rest) = (readString rest).map fun p => (c :: p.1, p.2)

/-- A string between its quotation marks. -/
def quoted (esc : Char → List Char) (cs : List Char) : List Char := '"' :: (cs.flatMap esc ++ ['"'])

/-- The text is one way to write the value, whatever follows it. -/
def Writes (text : List Char) (v : Json) : Prop :=
  ∀ n rest, 2 * text.length ≤ n → readValue n (text ++ rest) = some (v, rest)

variable {esc : Char → List Char} {α : Type*}

/-- An escaped string is read back. -/
theorem Escapes.readString (h : Escapes esc) (cs rest : List Char) :
    readString (cs.flatMap esc ++ '"' :: rest) = some (cs, rest) := by
  induction cs with
  | nil =>
    rw [List.flatMap_nil, List.nil_append, Json.readString, if_pos rfl]
  | cons c cs ih =>
    rw [List.flatMap_cons, List.append_assoc, h, ih]
    rfl

/-- A string writes its characters. -/
theorem Escapes.writes (h : Escapes esc) (cs : List Char) : Writes (quoted esc cs) (.str cs) := by
  intro n rest hn
  have hpos : n ≠ 0 := by
    simp only [quoted, List.length_cons] at hn
    omega
  obtain ⟨n, rfl⟩ := Nat.exists_eq_succ_of_ne_zero hpos
  rw [quoted, List.cons_append, List.append_assoc, readValue_string, List.singleton_append,
    h.readString]
  rfl

/-- Written elements are read back. -/
theorem readElements_writes (w : α → List Char) (f : α → Json) {xs : List α} (hne : xs ≠ [])
    (h : ∀ x ∈ xs, Writes (w x) (f x)) (n : ℕ) (rest : List Char)
    (hn : 2 * ([','].intercalate (xs.map w)).length + 1 ≤ n) :
    readElements n ([','].intercalate (xs.map w) ++ ']' :: rest) = some (xs.map f, rest) := by
  induction xs generalizing n with
  | nil => exact absurd rfl hne
  | cons x xs ih =>
    obtain ⟨n, rfl⟩ := Nat.exists_eq_succ_of_ne_zero (show n ≠ 0 by omega)
    have hx := h x (List.mem_cons_self ..)
    by_cases hxs : xs = []
    · subst hxs
      rw [List.map_singleton, List.intercalate_singleton] at hn ⊢
      exact readElements_bracket (hx n _ (by omega))
    · rw [List.map_cons, List.intercalate_cons_of_ne_nil (by simpa using hxs)] at hn ⊢
      simp only [List.length_append, List.length_singleton] at hn
      rw [List.append_assoc, List.append_assoc, List.singleton_append,
        readElements_comma (hx n _ (by omega)),
        ih hxs (fun y hy => h y (List.mem_cons_of_mem _ hy)) n (by omega)]
      rfl

/-- Elements between brackets, with commas in between. -/
theorem Writes.arr {w : α → List Char} {f : α → Json} {xs : List α}
    (h : ∀ x ∈ xs, Writes (w x) (f x)) :
    Writes ('[' :: ([','].intercalate (xs.map w) ++ [']'])) (.arr (xs.map f)) := by
  intro n rest hn
  simp only [List.length_append, List.length_cons] at hn
  obtain ⟨n, rfl⟩ := Nat.exists_eq_succ_of_ne_zero (show n ≠ 0 by omega)
  rw [List.cons_append, List.append_assoc, List.singleton_append]
  by_cases hxs : xs = []
  · subst hxs
    exact readValue_empty_array n rest
  · have helements := readElements_writes w f hxs h n rest (by omega)
    rw [readValue_array, helements]
    · rfl
    · -- a bracket here would be the start of the first element
      intro rest' hclosing
      obtain ⟨n, rfl⟩ := Nat.exists_eq_succ_of_ne_zero (show n ≠ 0 by omega)
      rw [readElements, readValue_closing n hclosing] at helements
      exact nomatch helements

/-- A member of an object: its name, how its value is written, and the value. -/
structure Member where
  name : List Char
  text : List Char
  value : Json

/-- A member as it is written. -/
def Member.written (esc : Char → List Char) (m : Member) : List Char :=
  quoted esc m.name ++ ':' :: m.text

/-- How a member begins. -/
theorem Member.written_append (m : Member) (rest : List Char) :
    m.written esc ++ rest = '"' :: (m.name.flatMap esc ++ '"' :: ':' :: (m.text ++ rest)) := by
  simp [written, quoted]

/-- Written members are read back. -/
theorem readMembers_writes (hesc : Escapes esc) {ms : List Member} (hne : ms ≠ [])
    (h : ∀ m ∈ ms, Writes m.text m.value) (n : ℕ) (rest : List Char)
    (hn : 2 * ([','].intercalate (ms.map (Member.written esc))).length + 1 ≤ n) :
    readMembers n ([','].intercalate (ms.map (Member.written esc)) ++ '\x7d' :: rest) =
      some (ms.map fun m => (m.name, m.value), rest) := by
  induction ms generalizing n with
  | nil => exact absurd rfl hne
  | cons m ms ih =>
    obtain ⟨n, rfl⟩ := Nat.exists_eq_succ_of_ne_zero (show n ≠ 0 by omega)
    have hm := h m (List.mem_cons_self ..)
    have hlen : m.text.length ≤ (m.written esc).length := by
      simp only [Member.written, List.length_append, List.length_cons]
      omega
    -- The last member is followed by the brace, the others by a comma.
    by_cases hms : ms = []
    · subst hms
      rw [List.map_singleton, List.intercalate_singleton] at hn ⊢
      rw [m.written_append]
      exact readMembers_brace (hesc.readString _ _) (hm n _ (by omega))
    · rw [List.map_cons, List.intercalate_cons_of_ne_nil (by simpa using hms)] at hn ⊢
      simp only [List.length_append, List.length_singleton] at hn
      rw [List.append_assoc, List.append_assoc, List.singleton_append, m.written_append,
        readMembers_comma (hesc.readString _ _) (hm n _ (by omega)),
        ih hms (fun m' hm' => h m' (List.mem_cons_of_mem _ hm')) n (by omega)]
      rfl

/-- Members between braces, with commas in between. -/
theorem Writes.obj (hesc : Escapes esc) {ms : List Member} (hne : ms ≠ [])
    (h : ∀ m ∈ ms, Writes m.text m.value) :
    Writes ('\x7b' :: ([','].intercalate (ms.map (Member.written esc)) ++ ['\x7d']))
      (.obj (ms.map fun m => (m.name, m.value))) := by
  intro n rest hn
  simp only [List.length_append, List.length_cons] at hn
  obtain ⟨n, rfl⟩ := Nat.exists_eq_succ_of_ne_zero (show n ≠ 0 by omega)
  have hmembers := readMembers_writes hesc hne h n rest (by omega)
  -- The first member starts with a quote, which tells it from an empty object.
  obtain ⟨tail, htail⟩ : ∃ tail, [','].intercalate (ms.map (Member.written esc)) ++ '\x7d' :: rest =
      '"' :: tail := by
    obtain ⟨m, ms, rfl⟩ := List.exists_cons_of_ne_nil hne
    by_cases hms : ms = []
    · subst hms
      rw [List.map_singleton, List.intercalate_singleton, m.written_append]
      exact ⟨_, rfl⟩
    · rw [List.map_cons, List.intercalate_cons_of_ne_nil (by simpa using hms), List.append_assoc,
        List.append_assoc, m.written_append]
      exact ⟨_, rfl⟩
  rw [List.cons_append, List.append_assoc, List.singleton_append, htail, readValue_object, ← htail,
    hmembers]
  rfl

/-- A text that writes a value reads as the value. -/
theorem parse_of_writes {text : List Char} {v : Json} (h : Writes text v) :
    parse text = some v := by
  have hread := h (2 * text.length) [] (Nat.le_refl _)
  rw [List.append_nil] at hread
  unfold parse
  rw [hread]
  rfl

/-! ### Reading a value's parts -/

/-- The characters of a string. -/
def string? : Json → Option (List Char)
  | .str s => some s
  | _ => none

/-- The elements of an array. -/
def elements? : Json → Option (List Json)
  | .arr elements => some elements
  | _ => none

/-- The value of the first member with the given name. -/
def member? (name : List Char) : Json → Option Json
  | .obj members => (members.find? (·.1 == name)).map Prod.snd
  | _ => none

/-! ### Bytes -/

/-- The UTF-8 encoding of a text. -/
def utf8 (cs : List Char) : List UInt8 := cs.flatMap String.utf8EncodeChar

/-- The text with the given UTF-8 encoding, if it is one. -/
def utf8Decode (bs : List UInt8) : Option (List Char) := bs.toByteArray.utf8Decode?.map Array.toList

/-- A JSON text as it is transmitted. -/
def parseUtf8 (bs : List UInt8) : Option Json := (utf8Decode bs).bind parse

/-- An encoded text is decoded. -/
theorem utf8Decode_utf8 (cs : List Char) : utf8Decode (utf8 cs) = some cs := by
  have h : (utf8 cs).toByteArray = cs.utf8Encode := rfl
  rw [utf8Decode, h, List.utf8Decode?_utf8Encode]
  rfl

/-- A text is encoded part by part. -/
@[simp]
theorem utf8_append (cs ds : List Char) : utf8 (cs ++ ds) = utf8 cs ++ utf8 ds :=
  List.flatMap_append

/-- A text is encoded character by character. -/
theorem utf8_cons (c : Char) (cs : List Char) :
    utf8 (c :: cs) = String.utf8EncodeChar c ++ utf8 cs :=
  List.flatMap_cons

/-- A character below 128 is its own encoding. -/
theorem utf8EncodeChar_ascii {c : Char} (h : c.toNat < 128) :
    String.utf8EncodeChar c = [UInt8.ofNat c.toNat] := by
  have hle : c.val.toNat ≤ 0x7f := Nat.le_of_lt_succ h
  unfold String.utf8EncodeChar
  exact if_pos hle

/-- The bytes of any other character are not below 128. -/
theorem le_utf8EncodeChar {c : Char} (h : 128 ≤ c.toNat) {b : UInt8}
    (hb : b ∈ String.utf8EncodeChar c) : 128 ≤ b.toNat := by
  have hgt : ¬c.val.toNat ≤ 0x7f := Nat.not_le_of_gt h
  unfold String.utf8EncodeChar at hb
  dsimp only at hb
  rw [if_neg hgt] at hb
  split_ifs at hb
  all_goals
    simp only [List.mem_cons, List.not_mem_nil, or_false] at hb
    rcases hb with rfl | rfl | rfl | rfl
  all_goals
    rw [UInt8.toNat_ofNat']
    omega

/-- Separated texts are encoded one by one, and so are the separators. -/
theorem utf8_intercalate (sep : List Char) (ws : List (List Char)) :
    utf8 (sep.intercalate ws) = (utf8 sep).intercalate (ws.map utf8) := by
  induction ws with
  | nil => rfl
  | cons w ws ih =>
    by_cases hws : ws = []
    · simp [hws]
    · rw [List.map_cons, List.intercalate_cons_of_ne_nil hws,
        List.intercalate_cons_of_ne_nil (by simpa using hws), utf8_append, utf8_append, ih]

/-- A written value is read back from its encoding. -/
theorem parseUtf8_of_writes {text : List Char} {v : Json} (h : Writes text v) :
    parseUtf8 (utf8 text) = some v := by
  rw [parseUtf8, utf8Decode_utf8]
  exact parse_of_writes h

end Json
