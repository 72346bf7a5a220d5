import DocIndex.Json.Reader

/-!
# Builtin functions

A `Builtin` is a function of the language itself. Lists of them are JSON arrays of records, in which
only the name has to be given.
-/

namespace DocIndex

/-- A builtin function. -/
structure Builtin where
  name : String
  signature : String := ""
  description : String := ""
  deriving DecidableEq, Repr, Inhabited

namespace Builtin

/-- The object for a builtin. -/
def toJson (b : Builtin) : Json :=
  .record [("name", .text b.name), ("signature", .text b.signature),
    ("description", .text b.description)]

/-- Reads a builtin. -/
def ofJson? (j : Json) : Option Builtin := do
  let given ← j.fields? ["name", "signature", "description"]
  return { name := ← Json.required? Json.string? "name" given
           signature := ← Json.optional? Json.string? "" "signature" given
           description := ← Json.optional? Json.string? "" "description" given }

/-- Reads a list of builtins from a JSON text. -/
def listOfJsonText? (text : String) : Option (List Builtin) := do
  Json.list? ofJson? (← Json.parse? (Utf8.encode text))

end Builtin

end DocIndex
