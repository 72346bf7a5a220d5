import DocIndex.Category
import DocIndex.Engine.Packed

/-!
# The typed index

An `Index σ` computation works with an engine whose states have type `σ`: each step is a call that
may fail, and what earlier calls did to the engine stays even if it does. The functions here put
texts into the memory, read what comes back, and offer handles, categories and texts instead of
words.
-/

namespace DocIndex

/-- A declaration of an index. -/
structure Handle where
  index : UInt32
  deriving DecidableEq, Repr, Inhabited

/-- A field of a declaration. -/
structure FieldRef where
  index : UInt32
  deriving DecidableEq, Repr

/-- A parameter of a declaration. -/
structure ParamRef where
  index : UInt32
  deriving DecidableEq, Repr

/-- The error set of a declaration. -/
structure ErrorSetRef where
  word : UInt64
  deriving DecidableEq, Repr

/-- One error of an error set. -/
structure ErrorRef where
  word : UInt64
  deriving DecidableEq, Repr

/-- A computation that works with an engine. -/
abbrev Index (σ : Type) := ExceptT Fault (StateM (Machine σ))

/-- The handle as an argument of a call. -/
def Handle.word (h : Handle) : UInt64 :=
  h.index.toUInt64

/-- The handle that a word stands for. -/
def Handle.ofWord (word : UInt64) : Except Fault Handle :=
  if word < absent then .ok ⟨word.toUInt32⟩ else .error (.invalidHandle word)

/-- The handle that a word stands for, if it is not the absent value. -/
def Handle.ofWord? (word : UInt64) : Except Fault (Option Handle) :=
  if word = absent then .ok none else (Handle.ofWord word).map some

/-- A flag as an argument of a call. -/
def flag (b : Bool) : UInt64 :=
  if b then 1 else 0

namespace Index

variable {σ : Type} [Engine σ]

/-- Calls an export of the engine. -/
def call (e : Export) (args : List UInt64) : Index σ UInt64 :=
  fun m => Engine.invoke e args m

/-- Lets the engine make room for a text and writes it there. -/
def stage (room : Export) (text : String) : Index σ Unit := do
  let bytes := Utf8.encode text
  let offset := (← call room [UInt64.ofNat bytes.length]).toNat
  let m ← get
  if offset + bytes.length ≤ m.memory.length then
    set { m with memory := m.memory.overwrite offset bytes }
  else throw (.outOfBounds offset bytes.length m.memory.length)

/-- A result that needs no engine. -/
def ofExcept {α : Type} : Except Fault α → Index σ α
  | .ok a => pure a
  | .error f => throw f

/-- Calls an export that returns a slice and reads it. -/
def callSlice {α : Type} (read : Slice → Memory → Except Fault α) (e : Export)
    (args : List UInt64) : Index σ α := do
  let word ← call e args
  ofExcept (read (.unpack word) (← get).memory)

/-- Calls an export that returns a text. -/
def callText (e : Export) (args : List UInt64) : Index σ String :=
  callSlice Slice.text e args

/-- Calls an export that returns a list of 32-bit words. -/
def callWords (e : Export) (args : List UInt64) : Index σ (List UInt32) :=
  callSlice Slice.words e args

/-- Calls an export that returns a list of declarations. -/
def callHandles (e : Export) (args : List UInt64) : Index σ (List Handle) := do
  return (← callWords e args).map Handle.mk

/-- Calls an export that returns a declaration. -/
def callHandle (e : Export) (args : List UInt64) : Index σ Handle := do
  ofExcept (Handle.ofWord (← call e args))

/-- Calls an export that returns a declaration or the absent value. -/
def callHandle? (e : Export) (args : List UInt64) : Index σ (Option Handle) := do
  ofExcept (Handle.ofWord? (← call e args))

/-! ## Declarations -/

/-- The declaration at the end of a dotted path. -/
def findDeclaration (path : String) : Index σ (Option Handle) := do
  stage .setInput path
  callHandle? .findDecl []

/-- The category of a declaration, and the target of an alias that has one. -/
def classify (h : Handle) : Index σ (Category × Option Handle) := do
  let code ← call .categorize [h.word]
  match Category.ofCode? code.toNat with
  | none => throw (.unknownCategory code)
  | some .redirect => return (.redirect, ← callHandle? .aliasee [])
  | some category => return (category, none)

/-- The members of a namespace or container. -/
def namespaceMembers (h : Handle) (includePrivate : Bool) : Index σ (List Handle) :=
  callHandles .namespaceMembers [h.word, flag includePrivate]

/-- The members of what a type function returns. -/
def typeFunctionMembers (h : Handle) (includePrivate : Bool) : Index σ (List Handle) :=
  callHandles .typeFunctionMembers [h.word, flag includePrivate]

/-- The fields of a declaration. -/
def fields (h : Handle) : Index σ (List FieldRef) := do
  return (← callWords .fields [h.word]).map FieldRef.mk

/-- The parameters of a declaration. -/
def params (h : Handle) : Index σ (List ParamRef) := do
  return (← callWords .params [h.word]).map ParamRef.mk

/-- The fully qualified name of a declaration. -/
def fullyQualifiedName (h : Handle) : Index σ String :=
  callText .fqn [h.word]

/-- The name under which a declaration was declared. -/
def declaredName (h : Handle) : Index σ String :=
  callText .declName [h.word]

/-- The declaration around a declaration. -/
def parent (h : Handle) : Index σ (Option Handle) :=
  callHandle? .parent [h.word]

/-- The documentation of a declaration as HTML, or its summary. -/
def docsHtml (h : Handle) (short : Bool) : Index σ String :=
  callText .docs [h.word, flag short]

/-- The prototype of a function as HTML. -/
def signatureHtml (h : Handle) (short : Bool) : Index σ String :=
  callText .signature [h.word, flag short]

/-- A parameter as HTML. -/
def paramHtml (h : Handle) (p : ParamRef) : Index σ String :=
  callText .param [h.word, p.index.toUInt64]

/-- A field as HTML. -/
def fieldHtml (h : Handle) (f : FieldRef) : Index σ String :=
  callText .field [h.word, f.index.toUInt64]

/-- The example of a declaration as HTML. -/
def exampleHtml (h : Handle) : Index σ String :=
  callText .doctest [h.word]

/-- The source of a declaration as HTML. -/
def sourceHtml (h : Handle) : Index σ String :=
  callText .source [h.word]

/-! ## Error sets -/

/-- The error set of a declaration. -/
def errorSet (h : Handle) : Index σ (Option ErrorSetRef) := do
  let word ← call .errorSet [h.word]
  return if word = 0 then none else some ⟨word⟩

/-- The declaration that the errors of a set belong to. -/
def errorSetOwner (h : Handle) (set : ErrorSetRef) : Index σ Handle :=
  callHandle .errorSetOwner [h.word, set.word]

/-- The errors of a set. -/
def errorSetEntries (h : Handle) (set : ErrorSetRef) : Index σ (List ErrorRef) := do
  return (← callSlice Slice.longWords .errorSetEntries [h.word, set.word]).map ErrorRef.mk

/-- An error as HTML. -/
def errorHtml (owner : Handle) (e : ErrorRef) : Index σ String :=
  callText .errorText [owner.word, e.word]

/-! ## Modules, files and queries -/

/-- The name of a module, none behind the last one. -/
def moduleName (i : UInt32) : Index σ (Option String) := do
  let name ← callText .moduleName [i.toUInt64]
  return if name = "" then none else some name

/-- The root declaration of a module. -/
def moduleRoot (i : UInt32) : Index σ Handle :=
  callHandle .moduleRoot [i.toUInt64]

/-- What a count of modules breaks off with. Positions are 32-bit numbers, and none stands behind
the last one. -/
def overflow : Fault :=
  .trap .moduleName "attempt to add with overflow"

/-- The names of the modules from position `i` on. -/
def modulesFrom (i : Nat) : Index σ (List String) :=
  if i < UInt32.size then do
    match ← moduleName (UInt32.ofNat i) with
    | none => return []
    | some name => return name :: (← modulesFrom (i + 1))
  else throw overflow
termination_by UInt32.size - i

/-- The names of all modules, in order. -/
def modules : Index σ (List String) :=
  modulesFrom 0

/-- The root declaration of the first module with a name, from position `i` on. -/
def moduleRootNamedFrom (name : String) (i : Nat) : Index σ (Option Handle) :=
  if i < UInt32.size then do
    match ← moduleName (UInt32.ofNat i) with
    | none => return none
    | some found =>
      if found = name then return some (← moduleRoot (UInt32.ofNat i))
      else moduleRootNamedFrom name (i + 1)
  else throw overflow
termination_by UInt32.size - i

/-- The root declaration of the first module with a name. -/
def moduleRootNamed (name : String) : Index σ (Option Handle) :=
  moduleRootNamedFrom name 0

/-- The root declaration of a source file. -/
def fileRoot (path : String) : Index σ (Option Handle) := do
  stage .setInput path
  callHandle? .fileRoot []

/-- The declarations that a full-text query finds, in the order of the engine. -/
def runQuery (text : String) (ignoreCase : Bool) : Index σ (List Handle) := do
  stage .queryBegin text
  callHandles .queryExec [flag ignoreCase]

end Index

end DocIndex
