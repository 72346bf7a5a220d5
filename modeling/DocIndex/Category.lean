/-!
# Categories of declarations

Every declaration has a `Category`, written as a code from 0 to 10 by an engine. A `CategorySet` is
a set of categories as bits, one for each code; the four groups that listings show are such sets.
-/

namespace DocIndex

/-- What kind of thing a declaration declares. -/
inductive Category where
  /-- A namespace, such as the root of a file. -/
  | nameSpace
  /-- A struct, union, enumeration or other container type. -/
  | container
  /-- A global that can be written. -/
  | globalVariable
  /-- A function. -/
  | function
  /-- A primitive type. -/
  | primitive
  /-- A set of errors. -/
  | errorSet
  /-- A global that cannot be written. -/
  | globalConst
  /-- An alias, which only redirects to another declaration. -/
  | redirect
  /-- A declaration whose value is a type. -/
  | type
  /-- The type of types. -/
  | typeType
  /-- A function that returns a type. -/
  | typeFunction
  deriving DecidableEq, Repr, Inhabited

namespace Category

/-- All categories in the order of their codes. -/
def all : List Category :=
  [nameSpace, container, globalVariable, function, primitive, errorSet, globalConst, redirect,
    type, typeType, typeFunction]

/-- The code of a category. -/
def code : Category → Nat
  | nameSpace => 0
  | container => 1
  | globalVariable => 2
  | function => 3
  | primitive => 4
  | errorSet => 5
  | globalConst => 6
  | redirect => 7
  | type => 8
  | typeType => 9
  | typeFunction => 10

/-- The category with a code. -/
def ofCode? (code : Nat) : Option Category :=
  all[code]?

/-- The name of a category in snapshots and listings. -/
def name : Category → String
  | nameSpace => "namespace"
  | container => "container"
  | globalVariable => "global_variable"
  | function => "function"
  | primitive => "primitive"
  | errorSet => "error_set"
  | globalConst => "global_const"
  | redirect => "alias"
  | type => "type"
  | typeType => "type_type"
  | typeFunction => "type_function"

/-- The category with a name. -/
def ofName? (name : String) : Option Category :=
  all.find? fun c => c.name = name

/-- The words for a category in documents and listings. -/
def label : Category → String
  | nameSpace => "namespace"
  | container => "container"
  | globalVariable => "global variable"
  | function => "function"
  | primitive => "primitive"
  | errorSet => "error set"
  | globalConst => "constant"
  | redirect => "alias"
  | type => "type"
  | typeType => "type"
  | typeFunction => "type function"

/-- Whether the members of such a declaration can be listed. -/
def hasMembers : Category → Bool
  | nameSpace | container | typeFunction => true
  | _ => false

theorem ofCode?_code (c : Category) : ofCode? c.code = some c := by
  cases c <;> rfl

theorem ofName?_name (c : Category) : ofName? c.name = some c := by
  cases c <;> decide

end Category

/-- A set of categories: bit `n` stands for the category with code `n`. -/
structure CategorySet where
  bits : Nat
  deriving DecidableEq, Repr

namespace CategorySet

/-- The set without categories. -/
def empty : CategorySet :=
  ⟨0⟩

/-- The set of all categories. -/
def full : CategorySet :=
  ⟨(1 <<< 11) - 1⟩

instance : Inhabited CategorySet :=
  ⟨full⟩

/-- The categories in either set. -/
def union (s t : CategorySet) : CategorySet :=
  ⟨s.bits ||| t.bits⟩

/-- The set with the given bits; bits that stand for no category are dropped. -/
def ofBits (bits : Nat) : CategorySet :=
  ⟨bits % (1 <<< 11)⟩

/-- The set of the given categories. -/
def ofList (cs : List Category) : CategorySet :=
  cs.foldl (fun s c => s.union ⟨1 <<< c.code⟩) empty

/-- Whether the category belongs to the set. -/
def admits (s : CategorySet) (c : Category) : Bool :=
  s.bits.testBit c.code

/-- What listings show under "Types". -/
def types : CategorySet :=
  ofList [.container, .primitive, .errorSet, .type, .typeType, .typeFunction]

/-- What listings show under "Namespaces". -/
def namespaces : CategorySet :=
  ofList [.nameSpace]

/-- What listings show under "Functions". -/
def functions : CategorySet :=
  ofList [.function]

/-- What listings show under "Values". -/
def values : CategorySet :=
  ofList [.globalVariable, .globalConst]

theorem admits_full (c : Category) : full.admits c = true := by
  cases c <;> decide

end CategorySet

/-- The set that holds one category. -/
def Category.asSet (c : Category) : CategorySet :=
  .ofList [c]

end DocIndex
