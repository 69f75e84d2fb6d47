import ShellLine.Json.Basic

/-!
# A reader of JSON

A text is read from its front: a string with its escapes, a number in digits, a list
of items between brackets or an object of fields, with spaces wherever they may stand.
Truth values and numbers with a sign, a fraction or an exponent are no values here.

What is read always takes up some of the text, so a list ends. The values inside a
value are read by a reader of smaller depth, and the length of the text is depth enough.
-/

namespace ShellLine.Json

/-- The characters that may stand between the parts of a text. -/
def isSpace (c : Char) : Bool := c == ' ' || c == '\t' || c == '\n' || c == '\r'

def skipSpaces (text : List Char) : List Char := text.dropWhile isSpace

theorem skipSpaces_of_not_isSpace {c : Char} (h : isSpace c = false) (text : List Char) :
    skipSpaces (c :: text) = c :: text :=
  List.dropWhile_cons_of_neg (Bool.eq_false_iff.1 h)

theorem length_skipSpaces_le (text : List Char) : (skipSpaces text).length ≤ text.length :=
  (List.dropWhile_suffix isSpace).length_le

theorem length_lt_of_skipSpaces {c : Char} {text behind : List Char}
    (h : skipSpaces text = c :: behind) : behind.length < text.length := by
  have hspaces := length_skipSpaces_le text
  rw [h] at hspaces
  exact hspaces

variable {α β : Type}

/-- What was read in front of a text, made into something else. -/
def mapRead (f : α → β) (read : Option (α × List Char)) : Option (β × List Char) :=
  read.map fun found ↦ (f found.1, found.2)

@[simp] theorem mapRead_some (f : α → β) (a : α) (rest : List Char) :
    mapRead f (some (a, rest)) = some (f a, rest) := rfl

theorem length_rest_of_mapRead {f : α → β} {read : Option (α × List Char)} {rest : List Char}
    {size : Nat} (hread : ∀ {a}, read = some (a, rest) → rest.length < size) {b : β}
    (h : mapRead f read = some (b, rest)) : rest.length < size := by
  obtain ⟨⟨a, behind⟩, hsome, h⟩ := Option.map_eq_some_iff.1 h
  obtain rfl : behind = rest := (Prod.mk.inj h).2
  exact hread hsome

/-! ## Strings -/

def hexDigit? (c : Char) : Option Nat :=
  if c.isDigit then some (c.toNat - '0'.toNat)
  else if 'a' ≤ c ∧ c ≤ 'f' then some (c.toNat - 'a'.toNat + 10)
  else if 'A' ≤ c ∧ c ≤ 'F' then some (c.toNat - 'A'.toNat + 10)
  else none

/-- The number written in four hexadecimal digits. -/
def codeUnit? : List Char → Option (Nat × List Char)
  | a :: b :: c :: d :: rest => do
    let a ← hexDigit? a
    let b ← hexDigit? b
    let c ← hexDigit? c
    let d ← hexDigit? d
    some (((a * 16 + b) * 16 + c) * 16 + d, rest)
  | _ => none

/-- The character for which two surrogates stand together. -/
def ofSurrogates? (high low : Nat) : Option Char :=
  if (0xD800 ≤ high ∧ high < 0xDC00) ∧ 0xDC00 ≤ low ∧ low < 0xE000 then
    some (Char.ofNat (0x10000 + (high - 0xD800) * 0x400 + (low - 0xDC00)))
  else none

/-- A character given by its number, or by a pair of surrogates if it is beyond four digits. -/
def numbered? (text : List Char) : Option (Char × List Char) := do
  let (unit, rest) ← codeUnit? text
  if unit < 0xD800 ∨ 0xDFFF < unit then some (Char.ofNat unit, rest)
  else
    match rest with
    | '\\' :: 'u' :: rest => do
      let (low, rest) ← codeUnit? rest
      let c ← ofSurrogates? unit low
      some (c, rest)
    | _ => none

/-- The character that is escaped, behind the backslash. -/
def escaped? : List Char → Option (Char × List Char)
  | '"' :: rest => some ('"', rest)
  | '\\' :: rest => some ('\\', rest)
  | '/' :: rest => some ('/', rest)
  | 'b' :: rest => some ('\x08', rest)
  | 'f' :: rest => some ('\x0c', rest)
  | 'n' :: rest => some ('\n', rest)
  | 'r' :: rest => some ('\r', rest)
  | 't' :: rest => some ('\t', rest)
  | 'u' :: rest => numbered? rest
  | _ => none

theorem length_rest_of_codeUnit? {text rest : List Char} {unit : Nat}
    (h : codeUnit? text = some (unit, rest)) : rest.length < text.length := by
  unfold codeUnit? at h
  split at h
  · simp only [Option.bind_eq_bind, Option.bind_eq_some_iff, Option.some.injEq,
      Prod.mk.injEq] at h
    obtain ⟨-, -, -, -, -, -, -, -, -, rfl⟩ := h
    simp only [List.length_cons]
    omega
  · cases h

theorem length_rest_of_numbered? {text rest : List Char} {c : Char}
    (h : numbered? text = some (c, rest)) : rest.length < text.length := by
  unfold numbered? at h
  obtain ⟨⟨unit, behind⟩, hunit, h⟩ := Option.bind_eq_some_iff.1 h
  have hbehind := length_rest_of_codeUnit? hunit
  dsimp only at h
  split at h
  · obtain rfl := (Prod.mk.inj (Option.some.inj h)).2
    exact hbehind
  · split at h
    · obtain ⟨⟨low, last⟩, hlow, h⟩ := Option.bind_eq_some_iff.1 h
      obtain ⟨d, -, h⟩ := Option.bind_eq_some_iff.1 h
      have hlast := length_rest_of_codeUnit? hlow
      obtain rfl : last = rest := (Prod.mk.inj (Option.some.inj h)).2
      simp only [List.length_cons] at hbehind
      omega
    · cases h

theorem length_rest_of_escaped? {text rest : List Char} {c : Char}
    (h : escaped? text = some (c, rest)) : rest.length < text.length := by
  unfold escaped? at h
  split at h
  case h_9 => exact Nat.lt_succ_of_lt (length_rest_of_numbered? h)
  case h_10 => cases h
  all_goals
    cases h
    exact Nat.lt_succ_self _

/-- The characters of a string up to the quotation mark at its end. -/
def quoted? (text : List Char) : Option (List Char × List Char) :=
  match text with
  | [] => none
  | '"' :: rest => some ([], rest)
  | '\\' :: rest =>
    match _h : escaped? rest with
    | none => none
    | some (c, behind) => mapRead (c :: ·) (quoted? behind)
  | c :: rest =>
    if c.toNat < 32 then none else mapRead (c :: ·) (quoted? rest)
termination_by text.length
decreasing_by
  · exact Nat.lt_succ_of_lt (length_rest_of_escaped? _h)
  · exact Nat.lt_succ_self _

theorem length_rest_of_quoted? {text rest chars : List Char}
    (h : quoted? text = some (chars, rest)) : rest.length < text.length := by
  fun_induction quoted? text generalizing chars with
  | case1 => cases h
  | case2 =>
    cases h
    exact Nat.lt_succ_self _
  | case3 => cases h
  | case4 text c behind hc ih =>
    have hread := length_rest_of_mapRead ih h
    have hbehind := length_rest_of_escaped? hc
    rw [List.length_cons]
    omega
  | case5 => cases h
  | case6 c text hquote hbackslash hcontrol ih =>
    exact Nat.lt_succ_of_lt (length_rest_of_mapRead ih h)

/-! ## Numbers -/

/-- A number in decimal digits, the first of which is no zero unless it is the only one. -/
def number? (text : List Char) : Option (Nat × List Char) :=
  match text.takeWhile Char.isDigit with
  | [] => none
  | '0' :: _ :: _ => none
  | digits => some (Nat.ofDigitChars 10 digits 0, text.dropWhile Char.isDigit)

theorem length_rest_of_number? {text rest : List Char} {value : Nat}
    (h : number? text = some (value, rest)) : rest.length < text.length := by
  have hlength : (text.takeWhile Char.isDigit).length + (text.dropWhile Char.isDigit).length =
      text.length := by
    rw [← List.length_append, List.takeWhile_append_dropWhile]
  unfold number? at h
  split at h
  · cases h
  · cases h
  · next hnonempty _ =>
    have hdigits := List.length_pos_iff.2 hnonempty
    obtain rfl := (Prod.mk.inj (Option.some.inj h)).2
    omega

/-! ## Lists of items -/

/-- What reads something from the front of a text, of which it uses a part. -/
structure Reader (α : Type) where
  read : List Char → Option (α × List Char)
  length_rest_lt : ∀ {text rest : List Char} {a : α},
    read text = some (a, rest) → rest.length < text.length

/-- The items up to the closing character, with commas between them. -/
def itemsUpTo (item : Reader α) (close : Char) (text : List Char) : Option (List α × List Char) :=
  match _hitem : item.read text with
  | none => none
  | some (a, behind) =>
    match _hbehind : skipSpaces behind with
    | [] => none
    | c :: rest =>
      if c = close then some ([a], rest)
      else if c = ',' then mapRead (a :: ·) (itemsUpTo item close rest)
      else none
termination_by text.length
decreasing_by exact Nat.lt_trans (length_lt_of_skipSpaces _hbehind) (item.length_rest_lt _hitem)

/-- The items up to the closing character, if there are any. -/
def enclosed (item : Reader α) (close : Char) (text : List Char) : Option (List α × List Char) :=
  match skipSpaces text with
  | [] => none
  | c :: rest => if c = close then some ([], rest) else itemsUpTo item close text

theorem length_rest_of_itemsUpTo {item : Reader α} {close : Char} {text rest : List Char}
    {items : List α} (h : itemsUpTo item close text = some (items, rest)) :
    rest.length < text.length := by
  fun_induction itemsUpTo item close text generalizing items with
  | case1 => cases h
  | case2 => cases h
  | case3 text a behind hitem last hbehind =>
    cases h
    exact Nat.lt_trans (length_lt_of_skipSpaces hbehind) (item.length_rest_lt hitem)
  | case4 text a behind hitem more hbehind _ ih =>
    calc
      rest.length < more.length := length_rest_of_mapRead ih h
      _ < behind.length := length_lt_of_skipSpaces hbehind
      _ < text.length := item.length_rest_lt hitem
  | case5 => cases h

theorem length_rest_of_enclosed {item : Reader α} {close : Char} {text rest : List Char}
    {items : List α} (h : enclosed item close text = some (items, rest)) :
    rest.length < text.length := by
  unfold enclosed at h
  split at h
  · cases h
  · next hspaces =>
    split at h
    · cases h
      exact length_lt_of_skipSpaces hspaces
    · exact length_rest_of_itemsUpTo h

/-! ## Values -/

/-- A key and, behind a colon, a value. -/
def readField (value : Reader Json) (text : List Char) : Option ((String × Json) × List Char) :=
  match skipSpaces text with
  | '"' :: text => do
    let (key, text) ← quoted? text
    match skipSpaces text with
    | ':' :: text => mapRead (String.ofList key, ·) (value.read text)
    | _ => none
  | _ => none

theorem length_rest_of_readField {value : Reader Json} {text rest : List Char}
    {field : String × Json} (h : readField value text = some (field, rest)) :
    rest.length < text.length := by
  unfold readField at h
  split at h
  · next behind htext =>
    obtain ⟨⟨key, last⟩, hkey, h⟩ := Option.bind_eq_some_iff.1 h
    dsimp only at h
    split at h
    · next part hcolon =>
      calc
        rest.length < part.length := length_rest_of_mapRead value.length_rest_lt h
        _ < last.length := length_lt_of_skipSpaces hcolon
        _ < behind.length := length_rest_of_quoted? hkey
        _ < text.length := length_lt_of_skipSpaces htext
    · cases h
  · cases h

def fieldReader (value : Reader Json) : Reader (String × Json) :=
  ⟨readField value, length_rest_of_readField⟩

/-- A value whose parts are read by `inner`. -/
def readValue (inner : Reader Json) (text : List Char) : Option (Json × List Char) :=
  match skipSpaces text with
  | '"' :: rest => mapRead (.string ∘ String.ofList) (quoted? rest)
  | '[' :: rest => mapRead .array (enclosed inner ']' rest)
  | '\x7b' :: rest => mapRead .object (enclosed (fieldReader inner) '\x7d' rest)
  | 'n' :: 'u' :: 'l' :: 'l' :: rest => some (.null, rest)
  | text => mapRead .number (number? text)

theorem length_rest_of_readValue {inner : Reader Json} {text rest : List Char} {value : Json}
    (h : readValue inner text = some (value, rest)) : rest.length < text.length := by
  unfold readValue at h
  split at h
  · next htext =>
    exact Nat.lt_trans (length_rest_of_mapRead length_rest_of_quoted? h)
      (length_lt_of_skipSpaces htext)
  · next htext =>
    exact Nat.lt_trans (length_rest_of_mapRead length_rest_of_enclosed h)
      (length_lt_of_skipSpaces htext)
  · next htext =>
    exact Nat.lt_trans (length_rest_of_mapRead length_rest_of_enclosed h)
      (length_lt_of_skipSpaces htext)
  · next htext =>
    cases h
    have hspaces := length_lt_of_skipSpaces htext
    simp only [List.length_cons] at hspaces
    omega
  · next htext =>
    exact Nat.lt_of_lt_of_le (length_rest_of_mapRead length_rest_of_number? h)
      (length_skipSpaces_le text)

/-- What reads the values that are nested less deep than a given depth. -/
def within : Nat → Reader Json
  | 0 => ⟨fun _ ↦ none, fun h ↦ nomatch h⟩
  | depth + 1 => ⟨readValue (within depth), length_rest_of_readValue⟩

/-- The value that a text holds, with nothing but spaces around it. -/
def read? (text : String) : Option Json :=
  match (within text.toList.length).read text.toList with
  | some (value, rest) => if (skipSpaces rest).isEmpty then some value else none
  | none => none

end ShellLine.Json
