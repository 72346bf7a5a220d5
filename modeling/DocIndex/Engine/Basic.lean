/-!
# Engines

An engine is a set of exports that take and return plain words, and a linear memory that texts are
passed through. `Engine` is all that is known of one: what an export returns and how it changes the
engine's own state and the memory. `Fault` is why a call fails.
-/

namespace DocIndex

/-- The entry points of an engine. -/
inductive Export where
  /-- Makes room for an input text: length to offset. -/
  | setInput
  /-- Looks the input up as a path: to a declaration or the absent value. -/
  | findDecl
  /-- The category code of a declaration. For an alias it also puts the target in reach of
  `aliasee`. -/
  | categorize
  /-- The target of the alias that was categorized right before, or the absent value. -/
  | aliasee
  /-- The members of a namespace or container: declaration and whether to include private ones. -/
  | namespaceMembers
  /-- The members of what a type function returns: declaration and whether to include private
  ones. -/
  | typeFunctionMembers
  /-- The fields of a declaration. -/
  | fields
  /-- The parameters of a declaration. -/
  | params
  /-- The fully qualified name of a declaration. -/
  | fqn
  /-- The declared name of a declaration. -/
  | declName
  /-- The declaration around a declaration, or the absent value. -/
  | parent
  /-- The documentation of a declaration: declaration and whether to give the summary only. -/
  | docs
  /-- The prototype of a function: declaration and whether to shorten it. -/
  | signature
  /-- One parameter: declaration and position. -/
  | param
  /-- One field: declaration and position. -/
  | field
  /-- The reference of the error set of a declaration, zero if it has none. -/
  | errorSet
  /-- The declaration that the errors of an error set belong to: declaration and reference. -/
  | errorSetOwner
  /-- The references of the errors of an error set: declaration and reference. -/
  | errorSetEntries
  /-- One error: owner and reference. -/
  | errorText
  /-- The example of a declaration. -/
  | doctest
  /-- The source of a declaration. -/
  | source
  /-- The name of a module, empty behind the last one. -/
  | moduleName
  /-- The root declaration of a module. -/
  | moduleRoot
  /-- Looks the input up as the path of a source file: to a declaration or the absent value. -/
  | fileRoot
  /-- Makes room for a query text: length to offset. -/
  | queryBegin
  /-- Runs the query: whether to ignore case. -/
  | queryExec
  deriving DecidableEq, Repr, Inhabited

namespace Export

/-- All exports in their order. -/
def all : List Export :=
  [setInput, findDecl, categorize, aliasee, namespaceMembers, typeFunctionMembers, fields, params,
    fqn, declName, parent, docs, signature, param, field, errorSet, errorSetOwner, errorSetEntries,
    errorText, doctest, source, moduleName, moduleRoot, fileRoot, queryBegin, queryExec]

/-- The name under which an engine exports the entry point. -/
def symbol : Export → String
  | setInput => "set_input_string"
  | findDecl => "find_decl"
  | categorize => "categorize_decl"
  | aliasee => "get_aliasee"
  | namespaceMembers => "namespace_members"
  | typeFunctionMembers => "type_fn_members"
  | fields => "decl_fields"
  | params => "decl_params"
  | fqn => "decl_fqn"
  | declName => "decl_name"
  | parent => "decl_parent"
  | docs => "decl_docs_html"
  | signature => "decl_fn_proto_html"
  | param => "decl_param_html"
  | field => "decl_field_html"
  | errorSet => "fn_error_set"
  | errorSetOwner => "fn_error_set_decl"
  | errorSetEntries => "error_set_node_list"
  | errorText => "error_html"
  | doctest => "decl_doctest_html"
  | source => "decl_source_html"
  | moduleName => "module_name"
  | moduleRoot => "find_module_root"
  | fileRoot => "find_file_root"
  | queryBegin => "query_begin"
  | queryExec => "query_exec"

/-- The export with a symbol. -/
def ofSymbol? (symbol : String) : Option Export :=
  all.find? fun e => e.symbol = symbol

/-- How many arguments the export takes. -/
def arity : Export → Nat
  | findDecl | aliasee | fileRoot => 0
  | namespaceMembers | typeFunctionMembers | docs | signature | param | field | errorSetOwner
  | errorSetEntries | errorText => 2
  | _ => 1

end Export

/-- The word that an engine returns in the place of a declaration when there is none. -/
def absent : UInt64 :=
  0xFFFFFFFF

/-- Why a call of an engine, or the reading of its answer, fails. -/
inductive Fault where
  /-- The engine does not have the export. -/
  | missingExport (symbol : Export)
  /-- The export was called with the wrong number of arguments. -/
  | arity (symbol : Export) (expected actual : Nat)
  /-- An argument is no declaration of the engine. -/
  | unknownDecl (index : UInt64)
  /-- A slice does not lie within the memory. -/
  | outOfBounds (offset length memory : Nat)
  /-- A text is not UTF-8. -/
  | invalidUtf8
  /-- A category code stands for no category. -/
  | unknownCategory (code : UInt64)
  /-- A word stands for no declaration. -/
  | invalidHandle (word : UInt64)
  /-- The engine gave up while it ran the export. -/
  | trap (symbol : Export) (reason : String)
  deriving DecidableEq, Repr

/-- A number in lower-case hexadecimal digits behind `0x`. -/
def hexadecimal (n : Nat) : String :=
  "0x" ++ String.ofList (Nat.toDigits 16 n)

/-- The words for a fault. -/
def Fault.message : Fault → String
  | missingExport e => "engine does not export \x60" ++ e.symbol ++ "\x60"
  | arity e expected actual =>
    "\x60" ++ e.symbol ++ "\x60 expects " ++ toString expected ++ " argument(s), got " ++
      toString actual
  | unknownDecl index => "declaration index " ++ toString index.toNat ++ " is out of range"
  | outOfBounds offset length memory =>
    "engine slice " ++ hexadecimal offset ++ "+" ++ toString length ++
      " exceeds linear memory of " ++ toString memory ++ " bytes"
  | invalidUtf8 => "engine returned a string that is not valid UTF-8"
  | unknownCategory code => "engine returned unknown category code " ++ toString code.toNat
  | invalidHandle word =>
    "engine returned " ++ hexadecimal word.toNat ++ " where a declaration index was expected"
  | trap e reason => "engine trapped in \x60" ++ e.symbol ++ "\x60: " ++ reason

/-- The linear memory of an engine. -/
abbrev Memory := List UInt8

/-- The memory with `bytes` in the place of what stood at `offset`. -/
def Memory.overwrite (memory : Memory) (offset : Nat) (bytes : List UInt8) : Memory :=
  memory.take offset ++ bytes ++ memory.drop (offset + bytes.length)

/-- An engine at work: its own state and its memory. -/
structure Machine (σ : Type) where
  state : σ
  memory : Memory

/-- The engines with states of type `σ`: what a call returns and what it leaves behind. -/
class Engine (σ : Type) where
  invoke : Export → List UInt64 → Machine σ → Except Fault UInt64 × Machine σ

end DocIndex
