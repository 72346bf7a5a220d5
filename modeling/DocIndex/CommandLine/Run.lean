import DocIndex.Builtin.Rank
import DocIndex.Builtin.Reference
import DocIndex.CommandLine.Options
import DocIndex.Engine.Table
import DocIndex.Highlight
import DocIndex.Session
import DocIndex.Storage.Load

/-!
# Running the command line

`run` is the whole program: what it writes and how it ends, given its arguments, its surroundings
and the files that it can read. `requiredFile?` is the one file that it reads, if any.
-/

namespace DocIndex.CommandLine

/-- What the program finds around it. -/
structure Surroundings where
  /-- The variable that names the snapshot. -/
  indexVariable : Option String := none
  /-- Whether the variable that turns colours off is set. -/
  colorsOff : Bool := false
  /-- The kind of terminal. -/
  terminal : Option String := none
  /-- Whether the output is a terminal. -/
  isTerminal : Bool := false
  /-- The directory for the data of the user. -/
  dataDirectory : String := ""

/-- What the program writes and how it ends. -/
structure Outcome where
  exit : Nat
  output : String
  /-- The message of an error. -/
  problem : String := ""
  deriving DecidableEq, Repr

/-! ## Files -/

/-- The snapshot to load: the one that was asked for, else the one that the variable names unless it
is blank, else the one among the data of the user. -/
def indexPath (around : Surroundings) (asked : Option String) : String :=
  match asked, around.indexVariable with
  | some path, _ => path
  | none, some path => if Document.isBlankText path then ownIndex else path
  | none, none => ownIndex
where
  /-- The snapshot among the data of the user. -/
  ownIndex : String := around.dataDirectory ++ "/stddoc/index.json"

/-- The file that a command reads. -/
def requiredFile? (around : Surroundings) (verb : Verb) (a : Arguments) : Option String :=
  match verb with
  | .get | .list | .modules => some (indexPath around a.index)
  | .search =>
    if Document.isBlankText (a.subject.getD "") then none else some (indexPath around a.index)
  | .builtins => a.builtinList

/-! ## Configuration -/

namespace Kind

/-- The categories of a group. -/
def categories : Kind → CategorySet
  | types => .types
  | namespaces => .namespaces
  | functions => .functions
  | values => .values

end Kind

namespace Arguments

/-- The configuration that the arguments ask for. -/
def config (a : Arguments) : Config :=
  let c : Config := { includePrivate := a.includePrivate, includeSource := a.includeSource }
  { c with
    publicAlias := a.publicAlias.getD c.publicAlias
    internalRoot := a.internalRoot.getD c.internalRoot
    searchLimit := a.limit.getD c.searchLimit }

/-- The categories of the groups that were asked for, or all. -/
def filter (a : Arguments) : CategorySet :=
  match a.kinds with
  | [] => .full
  | kinds => kinds.foldl (fun s k => s.union k.categories) .empty

/-- Whether matches are shown in colour. -/
def colored (a : Arguments) (around : Surroundings) : Bool :=
  !a.noColor && !around.colorsOff && around.terminal ≠ some "dumb" && around.isTerminal

end Arguments

/-! ## Output -/

/-- Text with blanks behind it up to a width. -/
def padded (width : Nat) (s : String) : String :=
  s ++ String.ofList (List.replicate (width - s.length) ' ')

/-- A text with the matches of a query in bold and bright green. -/
def highlighted (query : String) (ignoreCase : Bool) (text : String) : String :=
  Highlight.mark "\x1b[1m\x1b[92m" "\x1b[39m\x1b[0m" query ignoreCase text

/-- The line for a declaration. -/
def entryLine (category : Category) (path brief : String) : String :=
  padded 16 category.label ++ " " ++ path ++ (if brief = "" then "" else " - " ++ brief) ++ "\n"

/-- The object for a member. -/
def memberJson (m : Member) : Json :=
  .record [("handle", .nat m.handle.index.toNat), ("display_name", .text m.displayName),
    ("category", m.category.toJson), ("brief_doc", .text m.briefDoc), ("path", .text m.path)]

/-- The object for a search hit. -/
def hitJson (h : SearchHit) : Json :=
  .record [("handle", .nat h.handle.index.toNat), ("name", .text h.name), ("fqn", .text h.fqn),
    ("category", h.category.toJson), ("brief", .text h.brief)]

/-- A JSON list on lines of its own. -/
def jsonLines {α : Type} (write : α → Json) (items : List α) : String :=
  (Json.ofList write items).pretty ++ "\n"

/-- The output for a name and its document. -/
def documentOutput (name : String) : Option Document → String
  | some d => d.markdown
  | none => "No documentation found for " ++ Document.quoted name ++ ".\n"

/-- The output for a name and its members. -/
def membersOutput (a : Arguments) (name : String) (members : List Member) : String :=
  match a.format, members with
  | .json, _ => jsonLines memberJson members
  | .text, [] => "No members found for " ++ Document.quoted name ++ ".\n"
  | .text, _ => String.join (members.map fun m => entryLine m.category m.path m.briefDoc)

/-- The output for a query and its hits. -/
def searchOutput (a : Arguments) (colored : Bool) (query : String) (hits : List SearchHit) :
    String :=
  let shown (fqn : String) := if colored then highlighted query (ignoresCase query) fqn else fqn
  match a.format, hits with
  | .json, _ => jsonLines hitJson hits
  | .text, [] => "No results for " ++ Document.quoted query ++ ".\n"
  | .text, _ => String.join (hits.map fun h => entryLine h.category (shown h.fqn) h.brief)

/-- The lines for a builtin. -/
def builtinLines (colored : Bool) (query : String) (b : Builtin) : String :=
  let signature := if b.signature = "" then b.name else b.signature
  (if colored then highlighted query true signature else signature) ++ "\n" ++
    (if b.description = "" then "" else "    " ++ b.description ++ "\n")

/-- The output for a keyword and what it gives. -/
def rankingOutput (a : Arguments) (colored : Bool) (query : String) : Ranking → String
  | .usage => "Enter a keyword, e.g. " ++ Document.quoted "stddoc builtins overflow" ++ ".\n"
  | .results ranked =>
    match a.format, ranked with
    | .json, _ => jsonLines RankedBuiltin.toJson ranked
    | .text, [] => "No builtin functions match " ++ Document.quoted query ++ ".\n"
    | .text, _ => String.join (ranked.map fun r => builtinLines colored query r.builtin)

/-! ## Commands -/

/-- Reads files by their paths. -/
abbrev Reader := String → Except ReadError (List UInt8)

/-- What a session over the snapshot that was asked for gives, or the message of the error. -/
def inSession {α : Type} (read : Reader) (around : Surroundings) (a : Arguments)
    (ask : Index Table α) : Except String α := do
  let path := indexPath around a.index
  match Snapshot.load path (read path) with
  | .error e => throw e.message
  | .ok s =>
    match (ask (Table.start s)).1 with
    | .error f => throw f.message
    | .ok answer => return answer

/-- The output of a command, or the message of the error. -/
def answer (read : Reader) (around : Surroundings) (verb : Verb) (a : Arguments) :
    Except String String := do
  let subject := a.subject.getD ""
  let query := trimmed subject
  let colored := a.colored around
  match verb with
  | .get =>
    return documentOutput subject (← inSession read around a (Session.document a.config subject))
  | .list =>
    return membersOutput a subject
      (← inSession read around a (Session.members a.config subject a.filter))
  | .search =>
    if query = "" then
      return "Enter a search query, e.g. " ++ Document.quoted "stddoc search ArrayList" ++ ".\n"
    else
      return searchOutput a colored query
        (← inSession read around a (Session.search a.config query))
  | .builtins =>
    let builtins ←
      match a.builtinList with
      | none => pure Builtin.reference
      | some path =>
        match Builtin.load path (read path) with
        | .error e => throw e.message
        | .ok l => pure l
    return rankingOutput a colored query (Builtin.rank builtins subject)
  | .modules =>
    let names ← inSession read around a Session.modules
    return String.join (names.map (· ++ "\n"))

/-- How the program ends when there is nothing to run. -/
def stopped : Stop → Outcome
  | .help => { exit := 0, output := "" }
  | .version => { exit := 0, output := "stddoc 0.1.0\n" }
  | .usage => { exit := 2, output := "" }

/-- The program. -/
def run (read : Reader) (around : Surroundings) (words : List String) : Outcome :=
  match Arguments.parse words with
  | .error stop => stopped stop
  | .ok (verb, a) =>
    match answer read around verb a with
    | .ok output => { exit := 0, output }
    | .error problem => { exit := 1, output := "", problem }

end DocIndex.CommandLine
