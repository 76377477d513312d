/-!
# JSON text

Values that are written as indented JSON: two spaces a level, one member a line.
-/

namespace LendingRelay

inductive Json
  | text (value : String)
  | number (value : Nat)
  | list (items : List Json)
  | record (members : List (String × Json))

namespace Json

/-- A character inside a quoted text. Quotes, backslashes and control characters are escaped. -/
def escape (c : Char) : List Char :=
  if c = '"' then ['\\', '"']
  else if c = '\\' then ['\\', '\\']
  else if c = '\n' then ['\\', 'n']
  else if c = '\r' then ['\\', 'r']
  else if c = '\t' then ['\\', 't']
  else if c.toNat = 8 then ['\\', 'b']
  else if c.toNat = 12 then ['\\', 'f']
  else if c.toNat < 32 then
    ['\\', 'u', '0', '0', Nat.digitChar (c.toNat / 16), Nat.digitChar (c.toNat % 16)]
  else [c]

def quote (text : String) : List Char :=
  '"' :: text.toList.flatMap escape ++ ['"']

def newLine (depth : Nat) : List Char :=
  '\n' :: List.replicate (2 * depth) ' '

mutual

/-- The text of a value that starts on a line of the given depth. -/
def chars (depth : Nat) : Json → List Char
  | text value => quote value
  | number value => Nat.toDigits 10 value
  | list [] => ['[', ']']
  | list (item :: items) =>
    '[' :: newLine (depth + 1) ++ chars (depth + 1) item ++ itemChars (depth + 1) items ++
      newLine depth ++ [']']
  | record [] => ['{', '}']
  | record ((name, value) :: members) =>
    '{' :: newLine (depth + 1) ++ quote name ++ [':', ' '] ++ chars (depth + 1) value ++
      memberChars (depth + 1) members ++ newLine depth ++ ['}']

/-- Further items of a list, each on a line of its own. -/
def itemChars (depth : Nat) : List Json → List Char
  | [] => []
  | item :: items => ',' :: newLine depth ++ chars depth item ++ itemChars depth items

/-- Further members of a record, each on a line of its own. -/
def memberChars (depth : Nat) : List (String × Json) → List Char
  | [] => []
  | (name, value) :: members =>
    ',' :: newLine depth ++ quote name ++ [':', ' '] ++ chars depth value ++
      memberChars depth members

end

def render (value : Json) : String :=
  String.ofList (value.chars 0)

end Json

end LendingRelay
