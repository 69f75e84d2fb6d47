/-!
# JSON values and their compact text

A value is written without spaces, on one line. The fields of an object keep
their order. In a string, the quotation mark, the backslash and the control
characters below the space are escaped, and every other character stands as it
is. Each part is written in front of the text that follows it.
-/

namespace ShellLine

/-- The JSON values that tokens and programs need. -/
inductive Json where
  | null
  | number (value : Nat)
  | string (value : String)
  | array (items : List Json)
  | object (fields : List (String × Json))

namespace Json

/-- A character inside a string: escaped by a letter or by its number, or as it is. -/
def escape (c : Char) : List Char :=
  if c = '"' then ['\\', '"']
  else if c = '\\' then ['\\', '\\']
  else if c = '\n' then ['\\', 'n']
  else if c = '\r' then ['\\', 'r']
  else if c = '\t' then ['\\', 't']
  else if c = '\x08' then ['\\', 'b']
  else if c = '\x0c' then ['\\', 'f']
  else if c.toNat < 32 then
    ['\\', 'u', '0', '0', Nat.digitChar (c.toNat / 16), Nat.digitChar (c.toNat % 16)]
  else [c]

/-- A text between quotation marks, in front of another. -/
def quoteThen (text : String) (rest : List Char) : List Char :=
  '"' :: (text.toList.flatMap escape ++ '"' :: rest)

mutual

def compactThen : Json → List Char → List Char
  | .null, rest => "null".toList ++ rest
  | .number value, rest => (toString value).toList ++ rest
  | .string value, rest => quoteThen value rest
  | .array items, rest => '[' :: itemsThen items (']' :: rest)
  | .object fields, rest => '\x7b' :: fieldsThen fields ('\x7d' :: rest)

/-- Items with commas between them. -/
def itemsThen : List Json → List Char → List Char
  | [], rest => rest
  | [item], rest => item.compactThen rest
  | item :: next :: items, rest => item.compactThen (',' :: itemsThen (next :: items) rest)

/-- Fields with commas between them, each a key and a value. -/
def fieldsThen : List (String × Json) → List Char → List Char
  | [], rest => rest
  | [(key, value)], rest => quoteThen key (':' :: value.compactThen rest)
  | (key, value) :: next :: fields, rest =>
    quoteThen key (':' :: value.compactThen (',' :: fieldsThen (next :: fields) rest))

end

/-- The compact text of a value. -/
def compact (value : Json) : String :=
  String.ofList (value.compactThen [])

/-! ## The text behind a value stays as it is -/

theorem quoteThen_append (text : String) (rest more : List Char) :
    quoteThen text (rest ++ more) = quoteThen text rest ++ more := by
  simp [quoteThen]

mutual

theorem compactThen_append (value : Json) (rest more : List Char) :
    value.compactThen (rest ++ more) = value.compactThen rest ++ more := by
  cases value with
  | null => simp [compactThen]
  | number value => simp [compactThen]
  | string value => exact quoteThen_append value rest more
  | array items =>
    simp only [compactThen, ← List.cons_append, itemsThen_append items]
  | object fields =>
    simp only [compactThen, ← List.cons_append, fieldsThen_append fields]

theorem itemsThen_append (items : List Json) (rest more : List Char) :
    itemsThen items (rest ++ more) = itemsThen items rest ++ more := by
  match items with
  | [] => rfl
  | [item] => exact compactThen_append item rest more
  | item :: next :: items =>
    simp only [itemsThen, itemsThen_append (next :: items), ← List.cons_append,
      compactThen_append item]

theorem fieldsThen_append (fields : List (String × Json)) (rest more : List Char) :
    fieldsThen fields (rest ++ more) = fieldsThen fields rest ++ more := by
  match fields with
  | [] => rfl
  | [(key, value)] =>
    simp only [fieldsThen, compactThen_append value, ← List.cons_append, quoteThen_append]
  | (key, value) :: next :: fields =>
    simp only [fieldsThen, fieldsThen_append (next :: fields), ← List.cons_append,
      compactThen_append value, quoteThen_append]

end

end Json

end ShellLine
