/-!
# JSON values

A `Json` value keeps what its text says: a number is its literal, an object its fields in order,
repeated names included. A string literal can be well formed and still denote no text, when it holds
a lone surrogate or bytes that are not UTF-8; such a `Text` is `none`.
-/

namespace DocIndex

/-- What a string literal denotes: `none` if it denotes no text. -/
abbrev Json.Text := Option String

/-- A JSON value. -/
inductive Json where
  | null
  | bool (value : Bool)
  | number (literal : String)
  | string (text : Json.Text)
  | array (items : List Json)
  | object (fields : List (Json.Text × Json))
  deriving Inhabited

namespace Json

/-- A string value. -/
def text (s : String) : Json :=
  .string (some s)

/-- A number value without sign or fraction. -/
def nat (n : Nat) : Json :=
  .number (toString n)

/-- An object with the given fields. -/
def record (fields : List (String × Json)) : Json :=
  .object (fields.map fun (name, value) => (some name, value))

/-- A value that may be missing, with `null` in its place. -/
def ofOption {α : Type} (write : α → Json) : Option α → Json
  | none => .null
  | some a => write a

/-- A list of values. -/
def ofList {α : Type} (write : α → Json) (items : List α) : Json :=
  .array (items.map write)

/-! ## Reading typed values -/

/-- The text of a string value. -/
def string? : Json → Option String
  | .string text => text
  | _ => none

/-- The value of a boolean. -/
def bool? : Json → Option Bool
  | .bool b => some b
  | _ => none

/-- The value of a number literal that has digits only. -/
def nat? : Json → Option Nat
  | .number literal =>
    if literal.toList.all Char.isDigit then some (Nat.ofDigitChars 10 literal.toList 0) else none
  | _ => none

/-- The value of a number literal that has digits only and fits 32 bits. -/
def word? (j : Json) : Option UInt32 := do
  let n ← j.nat?
  if n < UInt32.size then some (UInt32.ofNat n) else none

/-- The items of an array, each of which has to be readable. -/
def list? {α : Type} (read : Json → Option α) : Json → Option (List α)
  | .array items => items.mapM read
  | _ => none

/-- A value that may be `null`. -/
def option? {α : Type} (read : Json → Option α) : Json → Option (Option α)
  | .null => some none
  | j => (read j).map some

/-! ## Records

A record is an object whose fields have the names that the record declares, in any order and each
at most once, or an array with the values of the declared fields in their order, of which the last
ones may be missing. Fields of other names are passed over.
-/

/-- The fields of an object that are declared, if none of those is repeated. -/
def declaredFields? (names : List String) :
    List (Text × Json) → Option (List (String × Json))
  | [] => some []
  | (none, _) :: _ => none
  | (some name, value) :: rest => do
    let found ← declaredFields? names rest
    if !names.contains name then some found
    else if (found.lookup name).isSome then none
    else some ((name, value) :: found)

/-- The declared fields that a record gives, with their values. -/
def fields? (names : List String) : Json → Option (List (String × Json))
  | .object fields => declaredFields? names fields
  | .array items => if items.length ≤ names.length then some (names.zip items) else none
  | _ => none

/-- A field that has to be given. -/
def required? {α : Type} (read : Json → Option α) (name : String)
    (fields : List (String × Json)) : Option α := do
  read (← fields.lookup name)

/-- A field that has a default. -/
def optional? {α : Type} (read : Json → Option α) (default : α) (name : String)
    (fields : List (String × Json)) : Option α :=
  match fields.lookup name with
  | none => some default
  | some j => read j

end Json

end DocIndex
