import DocIndex.Json.Printer
import DocIndex.Json.Reader
import DocIndex.Snapshot.Basic

/-!
# The JSON form of snapshots

Every record is an object. Names, roots, categories and the lists of modules and declarations have
to be given, all other fields have defaults. Texts that are read may also write a record as the
array of its fields. `Snapshot.ofJson?` reads what `Snapshot.toJson` writes.
-/

namespace DocIndex

open Json (text nat record ofOption ofList)

namespace Category

/-- A category is written as its name. -/
def toJson (c : Category) : Json :=
  text c.name

/-- Reads the name of a category, or an object that gives it the value `null`. -/
def ofJson? : Json → Option Category
  | .string (some name) => ofName? name
  | .object [(some name, .null)] => ofName? name
  | _ => none

end Category

/-- A position in the table is written as a number. -/
def indexToJson (n : UInt32) : Json :=
  nat n.toNat

namespace ModuleEntry

/-- The object for a module. -/
def toJson (m : ModuleEntry) : Json :=
  record [("name", text m.name), ("root", indexToJson m.root)]

/-- Reads a module. -/
def ofJson? (j : Json) : Option ModuleEntry := do
  let given ← j.fields? ["name", "root"]
  return { name := ← Json.required? Json.string? "name" given
           root := ← Json.required? Json.word? "root" given }

end ModuleEntry

namespace FileEntry

/-- The object for a source file. -/
def toJson (f : FileEntry) : Json :=
  record [("path", text f.path), ("root", indexToJson f.root)]

/-- Reads a source file. -/
def ofJson? (j : Json) : Option FileEntry := do
  let given ← j.fields? ["path", "root"]
  return { path := ← Json.required? Json.string? "path" given
           root := ← Json.required? Json.word? "root" given }

end FileEntry

namespace ErrorEntry

/-- The object for an error. -/
def toJson (e : ErrorEntry) : Json :=
  record [("name", text e.name), ("docs_html", text e.docsHtml)]

/-- Reads an error. -/
def ofJson? (j : Json) : Option ErrorEntry := do
  let given ← j.fields? ["name", "docs_html"]
  return { name := ← Json.required? Json.string? "name" given
           docsHtml := ← Json.optional? Json.string? "" "docs_html" given }

end ErrorEntry

namespace ErrorSet

/-- The object for an error set. -/
def toJson (e : ErrorSet) : Json :=
  record [("owner", ofOption indexToJson e.owner), ("errors", ofList ErrorEntry.toJson e.errors)]

/-- Reads an error set. -/
def ofJson? (j : Json) : Option ErrorSet := do
  let given ← j.fields? ["owner", "errors"]
  return { owner := ← Json.optional? (Json.option? Json.word?) none "owner" given
           errors := ← Json.optional? (Json.list? ErrorEntry.ofJson?) [] "errors" given }

end ErrorSet

namespace Decl

/-- The names of the fields of a declaration, in their order. -/
def fieldNames : List String :=
  ["name", "parent", "category", "aliasee", "members", "private", "docs_html", "signature_html",
    "params", "fields", "error_set", "example_html", "source_html"]

/-- The object for a declaration. -/
def toJson (d : Decl) : Json :=
  record [
    ("name", text d.name),
    ("parent", ofOption indexToJson d.parent),
    ("category", d.category.toJson),
    ("aliasee", ofOption indexToJson d.aliasee),
    ("members", ofList indexToJson d.members),
    ("private", .bool d.isPrivate),
    ("docs_html", text d.docsHtml),
    ("signature_html", text d.signatureHtml),
    ("params", ofList text d.params),
    ("fields", ofList text d.fields),
    ("error_set", ofOption ErrorSet.toJson d.errorSet),
    ("example_html", text d.exampleHtml),
    ("source_html", text d.sourceHtml)]

/-- Reads a declaration. -/
def ofJson? (j : Json) : Option Decl := do
  let given ← j.fields? fieldNames
  return {
    name := ← Json.required? Json.string? "name" given
    parent := ← Json.optional? (Json.option? Json.word?) none "parent" given
    category := ← Json.required? Category.ofJson? "category" given
    aliasee := ← Json.optional? (Json.option? Json.word?) none "aliasee" given
    members := ← Json.optional? (Json.list? Json.word?) [] "members" given
    isPrivate := ← Json.optional? Json.bool? false "private" given
    docsHtml := ← Json.optional? Json.string? "" "docs_html" given
    signatureHtml := ← Json.optional? Json.string? "" "signature_html" given
    params := ← Json.optional? (Json.list? Json.string?) [] "params" given
    fields := ← Json.optional? (Json.list? Json.string?) [] "fields" given
    errorSet := ← Json.optional? (Json.option? ErrorSet.ofJson?) none "error_set" given
    exampleHtml := ← Json.optional? Json.string? "" "example_html" given
    sourceHtml := ← Json.optional? Json.string? "" "source_html" given }

end Decl

namespace Snapshot

/-- The object for a snapshot, with every field written out. -/
def toJson (s : Snapshot) : Json :=
  record [
    ("modules", ofList ModuleEntry.toJson s.modules),
    ("decls", ofList Decl.toJson s.decls.toList),
    ("files", ofList FileEntry.toJson s.files)]

/-- Reads a snapshot from a JSON value. -/
def ofJson? (j : Json) : Option Snapshot := do
  let given ← j.fields? ["modules", "decls", "files"]
  let decls ← Json.required? (Json.list? Decl.ofJson?) "decls" given
  return { modules := ← Json.required? (Json.list? ModuleEntry.ofJson?) "modules" given
           decls := decls.toArray
           files := ← Json.optional? (Json.list? FileEntry.ofJson?) [] "files" given }

/-- Reads a snapshot from the bytes of a JSON text. -/
def ofJsonText? (bytes : List UInt8) : Option Snapshot := do
  ofJson? (← Json.parse? bytes)

/-- The JSON text of a snapshot without white space. -/
def toJsonText (s : Snapshot) : List UInt8 :=
  Utf8.encode s.toJson.compact

end Snapshot

end DocIndex
