/-!
# The command line

`Arguments.parse` reads the arguments of the program: options that hold for every command, one
command with a name or query, and the options of that command. Options come as `--name value`,
`--name=value`, `-n value`, `-nvalue` or `-n=value`, and short flags can be drawn together. An
option may be given once before the command and once behind it, where the later one holds.
-/

namespace DocIndex.CommandLine

/-- A group of members to list. -/
inductive Kind where
  | types
  | namespaces
  | functions
  | values
  deriving DecidableEq, Repr

/-- How results are written. -/
inductive Format where
  | text
  | json
  deriving DecidableEq, Repr

/-- The commands. -/
inductive Verb where
  | get
  | list
  | search
  | builtins
  | modules
  deriving DecidableEq, Repr

/-- The options. -/
inductive Flag where
  | index
  | includePrivate
  | source
  | publicAlias
  | internalRoot
  | verbose
  | noColor
  | kind
  | format
  | limit
  | builtinList
  | help
  | version
  deriving DecidableEq, Repr

/-- Why there is nothing to run. -/
inductive Stop where
  /-- Help was asked for. -/
  | help
  /-- The version was asked for. -/
  | version
  /-- The arguments are wrong. -/
  | usage
  deriving DecidableEq, Repr

/-- What the arguments say. -/
structure Arguments where
  verb : Option Verb := none
  /-- The name or query, which is empty if it is missing. -/
  subject : Option String := none
  index : Option String := none
  includePrivate : Bool := false
  includeSource : Bool := false
  publicAlias : Option String := none
  internalRoot : Option String := none
  noColor : Bool := false
  kinds : List Kind := []
  format : Format := .text
  limit : Option Nat := none
  builtinList : Option String := none
  /-- The options given since the command, or since the start if there is none yet. -/
  given : List Flag := []
  deriving DecidableEq, Repr

/-! ## Names -/

/-- The command with a name. -/
def Verb.ofName? (name : String) : Option Verb :=
  [("get", Verb.get), ("list", .list), ("search", .search), ("builtins", .builtins),
    ("modules", .modules)].lookup name

/-- Whether the command takes a name or query. -/
def Verb.takesSubject : Verb → Bool
  | modules => false
  | _ => true

/-- The group with a name. -/
def Kind.ofName? (name : String) : Option Kind :=
  [("types", Kind.types), ("namespaces", .namespaces), ("functions", .functions),
    ("values", .values)].lookup name

/-- The format with a name. -/
def Format.ofName? (name : String) : Option Format :=
  [("text", Format.text), ("json", .json)].lookup name

namespace Flag

/-- The option with a long name. -/
def ofLong? (name : String) : Option Flag :=
  [("index", index), ("private", includePrivate), ("source", source), ("alias", publicAlias),
    ("root", internalRoot), ("verbose", verbose), ("no-color", noColor), ("kind", kind),
    ("format", format), ("limit", limit), ("builtins", builtinList), ("help", help),
    ("version", version)].lookup name

/-- The option with a short name. -/
def ofShort? (name : Char) : Option Flag :=
  [('p', includePrivate), ('v', verbose), ('k', kind), ('f', format), ('l', limit), ('h', help),
    ('V', version)].lookup name

/-- Whether the option is followed by a value. -/
def takesValue : Flag → Bool
  | index | publicAlias | internalRoot | kind | format | limit | builtinList => true
  | _ => false

/-- Whether the option may be given for the command, or in front of any command. -/
def isKnownTo (verb : Option Verb) : Flag → Bool
  | kind => verb = some .list
  | format => verb = some .list || verb = some .search || verb = some .builtins
  | limit => verb = some .search
  | builtinList => verb = some .builtins
  | version => verb = none
  | _ => true

end Flag

/-! ## Values -/

/-- The number that digits write, with a plus in front or not, if it fits 64 bits. -/
def number? (s : String) : Option Nat :=
  let digits :=
    match s.toList with
    | '+' :: r => r
    | r => r
  if digits.isEmpty || !digits.all Char.isDigit then none
  else
    let n := Nat.ofDigitChars 10 digits 0
    if n < UInt64.size then some n else none

/-- The groups that a list with commas names. -/
def kinds? (s : String) : Option (List Kind) :=
  (s.toList.splitOn ',').mapM fun name => Kind.ofName? (String.ofList name)

/-- The path that a value is; it cannot be empty. -/
def path? (s : String) : Option String :=
  if s = "" then none else some s

/-! ## Parsing -/

namespace Arguments

/-- Takes in an option without value. -/
def setFlag (a : Arguments) : Flag → Except Stop Arguments
  | .includePrivate => .ok { a with includePrivate := true }
  | .source => .ok { a with includeSource := true }
  | .verbose => .ok a
  | .noColor => .ok { a with noColor := true }
  | .help => .error .help
  | .version => .error .version
  | _ => .error .usage

/-- Takes in an option with its value, if the value is one that it can have. -/
def setValue? (a : Arguments) (value : String) : Flag → Option Arguments
  | .index => (path? value).map fun path => { a with index := some path }
  | .publicAlias => some { a with publicAlias := some value }
  | .internalRoot => some { a with internalRoot := some value }
  | .kind => (kinds? value).map fun kinds => { a with kinds := a.kinds ++ kinds }
  | .format => (Format.ofName? value).map fun format => { a with format }
  | .limit => (number? value).map fun n => { a with limit := some n }
  | .builtinList => (path? value).map fun path => { a with builtinList := some path }
  | _ => none

/-- Takes note of an option. Only groups may be given more than once in one place. -/
def note (a : Arguments) (flag : Flag) : Except Stop Arguments :=
  if flag ≠ .kind && a.given.contains flag then .error .usage
  else .ok { a with given := flag :: a.given }

/-- Takes in an option and its value, if it has one. -/
def takeOption (a : Arguments) (flag : Flag) (value : Option String) : Except Stop Arguments := do
  let a ← a.note flag
  match value with
  | none => a.setFlag flag
  | some value =>
    match a.setValue? value flag with
    | some a => return a
    | none => throw .usage

/-- Takes in what is no option: the command first, then its name or query. -/
def takePlain (a : Arguments) (word : String) : Except Stop Arguments :=
  match a.verb with
  | none =>
    match Verb.ofName? word with
    | some verb => .ok { a with verb := some verb, given := [] }
    | none => .error .usage
  | some verb =>
    if verb.takesSubject && a.subject.isNone then .ok { a with subject := some word }
    else .error .usage

/-- What the reading of an option comes to. -/
inductive Reading where
  /-- The option is taken in. -/
  | complete (a : Arguments)
  /-- The value of the option is still to come. -/
  | wanting (a : Arguments) (flag : Flag)

/-- Reads an option that starts with two hyphens. -/
def readLong (a : Arguments) (body : List Char) : Except Stop Reading :=
  let name := String.ofList (body.takeWhile (· != '='))
  let value :=
    match body.dropWhile (· != '=') with
    | [] => none
    | _ :: value => some (String.ofList value)
  match Flag.ofLong? name with
  | none => .error .usage
  | some flag =>
    if !flag.isKnownTo a.verb then .error .usage
    else if flag.takesValue && value.isNone then .ok (.wanting a flag)
    else if !flag.takesValue && value.isSome then .error .usage
    else (a.takeOption flag value).map .complete

/-- Reads the short options that stand behind one hyphen. -/
def readShort (a : Arguments) : List Char → Except Stop Reading
  | [] => .ok (.complete a)
  | c :: rest =>
    match Flag.ofShort? c with
    | none => .error .usage
    | some flag =>
      if !flag.isKnownTo a.verb then .error .usage
      else if flag.takesValue then
        match rest with
        | [] => .ok (.wanting a flag)
        | '=' :: value => (a.takeOption flag (some (String.ofList value))).map .complete
        | value => (a.takeOption flag (some (String.ofList value))).map .complete
      else do
        let a ← a.takeOption flag none
        a.readShort rest

/-- Whether an argument looks like an option. A hyphen alone does not. -/
def looksLikeOption (word : String) : Bool :=
  match word.toList with
  | '-' :: _ :: _ => true
  | _ => false

/-- Reads the arguments behind two hyphens on their own, none of which is an option. -/
def readPlain (a : Arguments) (words : List String) : Except Stop Arguments :=
  if a.verb.isNone && !words.isEmpty then .error .usage else words.foldlM takePlain a

/-- What a request for help about some commands comes to. -/
def helpAbout (names : List String) : Stop :=
  match names with
  | [] => .help
  | [name] => if name = "help" || (Verb.ofName? name).isSome then .help else .usage
  | _ => .usage

/-- Reads the arguments one behind the other. -/
def readAll (a : Arguments) : List String → Except Stop Arguments
  | [] => .ok a
  | word :: rest =>
    if word = "--" then a.readPlain rest
    else if looksLikeOption word then
      let reading :=
        match word.toList with
        | '-' :: '-' :: body => a.readLong body
        | _ :: body => a.readShort body
        | [] => .error .usage
      match reading, rest with
      | .error stop, _ => .error stop
      | .ok (.complete a), rest => a.readAll rest
      | .ok (.wanting _ _), [] => .error .usage
      | .ok (.wanting a flag), value :: rest =>
        if looksLikeOption value then .error .usage
        else
          match a.takeOption flag (some value) with
          | .error stop => .error stop
          | .ok a => a.readAll rest
    else if a.verb.isNone && word = "help" then .error (helpAbout rest)
    else
      match a.takePlain word with
      | .error stop => .error stop
      | .ok a => a.readAll rest

/-- The command and the options that the arguments give. -/
def parse (words : List String) : Except Stop (Verb × Arguments) := do
  let a ← readAll {} words
  match a.verb with
  | some verb => return (verb, a)
  | none => throw .usage

end Arguments

end DocIndex.CommandLine
