import DocIndex.Json.Basic

/-!
# Writing JSON texts

`compact` writes a value without white space, `pretty` with one item or field on each line, two
spaces deeper for each open array or object, where an array or object without items stays together.
-/

namespace DocIndex.Json

/-- The characters that stand for one character inside a string literal. -/
def escape (c : Char) : List Char :=
  match c with
  | '"' => ['\\', '"']
  | '\\' => ['\\', '\\']
  | '\x08' => ['\\', 'b']
  | '\x0C' => ['\\', 'f']
  | '\n' => ['\\', 'n']
  | '\r' => ['\\', 'r']
  | '\t' => ['\\', 't']
  | c =>
    if c.toNat < 0x20 then
      ['\\', 'u', '0', '0', Nat.digitChar (c.toNat / 16), Nat.digitChar (c.toNat % 16)]
    else [c]

/-- The string literal of a text. -/
def quote (s : String) : List Char :=
  '"' :: s.toList.flatMap escape ++ ['"']

/-- The string literal of a text; one that denotes no text is written as the empty text. -/
def quoteText (t : Text) : List Char :=
  quote (t.getD "")

mutual

/-- The characters of a value without white space. -/
def compactChars : Json → List Char
  | .null => "null".toList
  | .bool true => "true".toList
  | .bool false => "false".toList
  | .number literal => literal.toList
  | .string text => quoteText text
  | .array items => '[' :: compactItems items
  | .object fields => '\x7B' :: compactFields fields

/-- The items of an array and its end. -/
def compactItems : List Json → List Char
  | [] => [']']
  | [j] => compactChars j ++ [']']
  | j :: rest => compactChars j ++ ',' :: compactItems rest

/-- The fields of an object and its end. -/
def compactFields : List (Text × Json) → List Char
  | [] => ['\x7D']
  | [(name, j)] => quoteText name ++ ':' :: compactChars j ++ ['\x7D']
  | (name, j) :: rest => quoteText name ++ ':' :: compactChars j ++ ',' :: compactFields rest

end

/-- A line end and the indentation of the next line. -/
def newline (depth : Nat) : List Char :=
  '\n' :: List.replicate (2 * depth) ' '

mutual

/-- The characters of a value with one item or field on each line, inside `depth` others. -/
def prettyChars (depth : Nat) : Json → List Char
  | .null => "null".toList
  | .bool true => "true".toList
  | .bool false => "false".toList
  | .number literal => literal.toList
  | .string text => quoteText text
  | .array [] => "[]".toList
  | .array items => '[' :: newline (depth + 1) ++ prettyItems depth items
  | .object [] => ['\x7B', '\x7D']
  | .object fields => '\x7B' :: newline (depth + 1) ++ prettyFields depth fields

/-- The items of an array and its end. -/
def prettyItems (depth : Nat) : List Json → List Char
  | [] => newline depth ++ [']']
  | [j] => prettyChars (depth + 1) j ++ newline depth ++ [']']
  | j :: rest =>
    prettyChars (depth + 1) j ++ ',' :: newline (depth + 1) ++ prettyItems depth rest

/-- The fields of an object and its end. -/
def prettyFields (depth : Nat) : List (Text × Json) → List Char
  | [] => newline depth ++ ['\x7D']
  | [(name, j)] =>
    quoteText name ++ ':' :: ' ' :: prettyChars (depth + 1) j ++ newline depth ++ ['\x7D']
  | (name, j) :: rest =>
    quoteText name ++ ':' :: ' ' :: prettyChars (depth + 1) j ++
      ',' :: newline (depth + 1) ++ prettyFields depth rest

end

/-- The text of a value without white space. -/
def compact (j : Json) : String :=
  String.ofList (compactChars j)

/-- The text of a value with one item or field on each line. -/
def pretty (j : Json) : String :=
  String.ofList (prettyChars 0 j)

end DocIndex.Json
