import DocIndex.Engine.Packed
import DocIndex.Snapshot.Query
import DocIndex.Text.Lines

/-!
# The engine over a snapshot

`Table` is the engine that answers from a snapshot. Its memory starts with the input that was staged
last, and each answer that is a text or a list stands right behind it until the next one. What an
export answers depends on the snapshot, the arguments and the staged input alone (`Snapshot.reply`),
save for the target of an alias, which can be asked for once after the alias was categorized.
-/

namespace DocIndex

/-- What an export answers before it is put into a word. -/
inductive Reply where
  | word (value : UInt64)
  | text (value : String)
  | words (values : List UInt32)
  | longWords (values : List UInt64)
  deriving DecidableEq, Repr

namespace Reply

/-- A declaration or the absent value. -/
def ofDecl? (index : Option UInt32) : Reply :=
  .word ((index.map (·.toUInt64)).getD absent)

/-- The elements of a reply that is a slice: how many, and their bytes. -/
def elements : Reply → Nat × List UInt8
  | .word _ => (0, [])
  | .text s =>
    let bytes := Utf8.encode s
    (bytes.length, bytes)
  | .words l => (l.length, l.flatMap fun w => LittleEndian.toBytes 4 w.toNat)
  | .longWords l => (l.length, l.flatMap fun w => LittleEndian.toBytes 8 w.toNat)

end Reply

namespace Snapshot

/-- The declaration that a word refers to. -/
def declAt (s : Snapshot) (word : UInt64) : Except Fault Decl :=
  match s.decls[word.toNat]? with
  | some d => .ok d
  | none => .error (.unknownDecl word)

/-- The members of a declaration of one of the wanted categories, without the private ones unless
they are to be included. -/
def visibleMembers (s : Snapshot) (wanted : Category → Bool) (d : Decl) (includePrivate : Bool) :
    List UInt32 :=
  if wanted d.category then
    d.members.filter fun m => includePrivate || (s.decl? m).any (!·.isPrivate)
  else []

/-- The summary of a documentation: its first paragraph, or its first line if no paragraph ends. -/
def summary (html : String) : String :=
  match Text.through "</p>".toList html.toList with
  | some front => String.ofList front
  | none => String.ofList ((Text.lines html.toList).headD [])

/-- The item of a list at the position that a word gives. -/
def itemAt (e : Export) (items : List String) (word : UInt64) : Except Fault String :=
  match items[word.toNat]? with
  | some item => .ok item
  | none => .error (.trap e ("index " ++ toString word.toNat ++ " out of range"))

/-- The positions below a length. -/
def positions (length : Nat) : List UInt32 :=
  (List.range length).map UInt32.ofNat

/-- The HTML of an error: a term, with a definition if the error is documented. -/
def errorHtml (e : ErrorEntry) : String :=
  if e.docsHtml = "" then "<dt>" ++ e.name ++ "</dt>"
  else "<dt>" ++ e.name ++ "</dt><dd>" ++ e.docsHtml ++ "</dd>"

/-- What an export answers that only looks at the snapshot and the staged input. The reference of
an error set is one more than the position of its declaration, and that of an error has the position
of the declaration in its high half and the position in the set in its low half. -/
def reply (s : Snapshot) (input : String) : Export → List UInt64 → Except Fault Reply
  | .findDecl, [] => .ok (.ofDecl? (s.lookup input))
  | .namespaceMembers, [h, includePrivate] => do
    let wanted c := c = .nameSpace || c = .container
    return .words (s.visibleMembers wanted (← s.declAt h) (includePrivate ≠ 0))
  | .typeFunctionMembers, [h, includePrivate] => do
    return .words (s.visibleMembers (· = .typeFunction) (← s.declAt h) (includePrivate ≠ 0))
  | .fields, [h] => do return .words (positions (← s.declAt h).fields.length)
  | .params, [h] => do return .words (positions (← s.declAt h).params.length)
  | .fqn, [h] => do
    let _ ← s.declAt h
    return .text (s.fqn h.toUInt32)
  | .declName, [h] => do return .text (← s.declAt h).name
  | .parent, [h] => do return .ofDecl? (← s.declAt h).parent
  | .docs, [h, short] => do
    let html := (← s.declAt h).docsHtml
    return .text (if short ≠ 0 then summary html else html)
  | .signature, [h, _] => do return .text (← s.declAt h).signatureHtml
  | .param, [h, i] => do return .text (← itemAt .param (← s.declAt h).params i)
  | .field, [h, i] => do return .text (← itemAt .field (← s.declAt h).fields i)
  | .errorSet, [h] => do
    return .word (if (← s.declAt h).errorSet.isSome then h + 1 else 0)
  | .errorSetOwner, [_, set] => do
    let declaring := set - 1
    let owner := (← s.declAt declaring).errorSet.bind (·.owner)
    return .word ((owner.map (·.toUInt64)).getD declaring)
  | .errorSetEntries, [_, set] => do
    let declaring := set - 1
    let errors := ((← s.declAt declaring).errorSet.map (·.errors)).getD []
    return .longWords ((List.range errors.length).map fun i => halves declaring (.ofNat i))
  | .errorText, [_, ref] => do
    let declaring := UInt64.ofNat (ref.toNat / UInt32.size)
    let errors := ((← s.declAt declaring).errorSet.map (·.errors)).getD []
    match errors[ref.toNat % UInt32.size]? with
    | some e => return .text (errorHtml e)
    | none => throw (.trap .errorText ("error ref " ++ hexadecimal ref.toNat ++ " does not exist"))
  | .doctest, [h] => do return .text (← s.declAt h).exampleHtml
  | .source, [h] => do return .text (← s.declAt h).sourceHtml
  | .moduleName, [i] => .ok (.text ((s.modules[i.toNat]?.map (·.name)).getD ""))
  | .moduleRoot, [i] =>
    match s.modules[i.toNat]? with
    | some m => .ok (.word m.root.toUInt64)
    | none => .error (.trap .moduleRoot ("module " ++ toString i.toNat ++ " does not exist"))
  | .fileRoot, [] => .ok (.ofDecl? ((s.files.find? (·.path = input)).map (·.root)))
  | .queryExec, [ignoreCase] => .ok (.words (s.query input (ignoreCase ≠ 0)))
  | e, args => .error (.arity e e.arity args.length)

end Snapshot

/-- The state of the engine over a snapshot. -/
structure Table where
  snapshot : Snapshot
  /-- The length of the staged input, which the memory starts with. -/
  staged : Nat := 0
  /-- The target of the alias that was categorized last, until it is asked for. -/
  target : Option UInt64 := none

namespace Table

/-- The engine over a snapshot as it starts. -/
def start (s : Snapshot) : Machine Table :=
  ⟨{ snapshot := s }, []⟩

/-- The staged input. -/
def input (m : Machine Table) : String :=
  Utf8.decodeLossy (m.memory.take m.state.staged)

/-- Makes room for an input: the memory is as many zeros as it is long. -/
def stage (length : UInt64) (m : Machine Table) : Machine Table :=
  ⟨{ m.state with staged := length.toNat }, List.replicate length.toNat 0⟩

/-- Puts a reply into a word. The elements of a slice are written right behind the staged input. -/
def emit (r : Reply) (m : Machine Table) : UInt64 × Machine Table :=
  match r with
  | .word value => (value, m)
  | r =>
    let (count, bytes) := r.elements
    let front := m.memory.take m.state.staged
    (Slice.pack ⟨front.length, count⟩, { m with memory := front ++ bytes })

/-- Categorizes a declaration, and keeps the target if it is an alias. -/
def categorize (h : UInt64) (m : Machine Table) : Except Fault UInt64 × Machine Table :=
  match m.state.snapshot.declAt h with
  | .error f => (.error f, m)
  | .ok d =>
    let target :=
      if d.category = .redirect then some ((d.aliasee.map (·.toUInt64)).getD absent) else none
    (.ok (UInt64.ofNat d.category.code), { m with state := { m.state with target } })

/-- A call that answers from the snapshot, the arguments and the staged input. -/
def answer (e : Export) (args : List UInt64) (m : Machine Table) :
    Except Fault UInt64 × Machine Table :=
  match m.state.snapshot.reply (input m) e args with
  | .error f => (.error f, m)
  | .ok r =>
    let (word, m) := emit r m
    (.ok word, m)

/-- A call of the engine. A fault leaves everything as it was. -/
def invoke (e : Export) (args : List UInt64) (m : Machine Table) :
    Except Fault UInt64 × Machine Table :=
  match e, args with
  | .setInput, [length] | .queryBegin, [length] => (.ok 0, stage length m)
  | .categorize, [h] => categorize h m
  | .aliasee, [] =>
    (.ok (m.state.target.getD absent), { m with state := { m.state with target := none } })
  | e, args => answer e args m

instance : Engine Table :=
  ⟨Table.invoke⟩

end Table

end DocIndex
