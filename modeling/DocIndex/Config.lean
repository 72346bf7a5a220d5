import DocIndex.Text.Dotted

/-!
# Configuration

`Config` holds what a session is set to. The index knows its main module by an internal root name,
and users know it by a public alias: `Config.publicName` turns a name of the index into the name
that is shown.
-/

namespace DocIndex

/-- The settings of a session. -/
structure Config where
  /-- The name of the main module for users. -/
  publicAlias : String := "std"
  /-- The first segment of the names of the main module inside the index. -/
  internalRoot : String := "root"
  /-- Whether listings include private members. -/
  includePrivate : Bool := false
  /-- Whether documents show sources. -/
  includeSource : Bool := false
  /-- The language that fenced code is tagged with. -/
  codeLanguage : String := "zig"
  /-- How many hits a search returns at most. -/
  searchLimit : Nat := 20
  /-- The submodules that are tried last when a name is resolved. -/
  submodules : List String :=
    ["mem", "fmt", "fs", "io", "heap", "math", "meta", "debug", "process", "os", "posix", "json",
      "Thread"]
  deriving DecidableEq, Repr

namespace Config

/-- The name that is shown for a name of the index: the public alias takes the place of the internal
root. -/
def publicName (c : Config) (fqn : String) : String :=
  if fqn = c.internalRoot then c.publicAlias
  else
    match Dotted.below? c.internalRoot fqn with
    | some rest => c.publicAlias ++ "." ++ rest
    | none => fqn

end Config

end DocIndex
