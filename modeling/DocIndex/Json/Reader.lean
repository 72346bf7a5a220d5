import DocIndex.Json.Token

/-!
# Reading JSON texts

The tokens of a text drive a machine that keeps the open arrays and objects on a stack, so a text
may nest as deeply as it likes. `Json.parse?` reads a whole text: one value with nothing but white
space around it.
-/

namespace DocIndex.Json

/-- An open array or object. What it holds so far is backwards. -/
inductive Frame where
  /-- An array that waits for its next item. -/
  | item (before : List Json)
  /-- An object that waits for the value of the field `key`. -/
  | field (before : List (Text × Json)) (key : Text)

/-- What the machine waits for, and the open arrays and objects around it. -/
inductive Waiting where
  /-- A value. -/
  | value (outer : List Frame)
  /-- The first item of an array or its end. -/
  | firstItem (outer : List Frame)
  /-- A comma or the end of an array. -/
  | afterItem (items : List Json) (outer : List Frame)
  /-- The first name of an object or its end. -/
  | firstName (outer : List Frame)
  /-- A name. -/
  | name (before : List (Text × Json)) (outer : List Frame)
  /-- A colon. -/
  | colon (before : List (Text × Json)) (key : Text) (outer : List Frame)
  /-- A comma or the end of an object. -/
  | afterField (fields : List (Text × Json)) (outer : List Frame)
  /-- Nothing more. -/
  | done (value : Json)

namespace Waiting

/-- What is waited for behind a value. -/
def afterValue (j : Json) : List Frame → Waiting
  | [] => .done j
  | .item before :: rest => .afterItem (j :: before) rest
  | .field before key :: rest => .afterField ((key, j) :: before) rest

/-- What is waited for behind a token that has to start a value. -/
def startValue? (outer : List Frame) : Token → Option Waiting
  | .openArray => some (.firstItem outer)
  | .openObject => some (.firstName outer)
  | .null => some (afterValue .null outer)
  | .bool b => some (afterValue (.bool b) outer)
  | .number literal => some (afterValue (.number literal) outer)
  | .string text => some (afterValue (.string text) outer)
  | _ => none

/-- What is waited for behind a token; no token may follow a whole value. -/
def step? : Waiting → Token → Option Waiting
  | .value outer, token => startValue? outer token
  | .firstItem outer, .closeArray => some (afterValue (.array []) outer)
  | .firstItem outer, token => startValue? (.item [] :: outer) token
  | .afterItem items outer, .comma => some (.value (.item items :: outer))
  | .afterItem items outer, .closeArray => some (afterValue (.array items.reverse) outer)
  | .firstName outer, .closeObject => some (afterValue (.object []) outer)
  | .firstName outer, .string key => some (.colon [] key outer)
  | .name before outer, .string key => some (.colon before key outer)
  | .colon before key outer, .colon => some (.value (.field before key :: outer))
  | .afterField fields outer, .comma => some (.name fields outer)
  | .afterField fields outer, .closeObject => some (afterValue (.object fields.reverse) outer)
  | _, _ => none

/-- The value that the tokens complete, if they complete one. -/
def finish? : Waiting → List Token → Option Json
  | .done j, [] => some j
  | _, [] => none
  | state, token :: rest =>
    match state.step? token with
    | some state => state.finish? rest
    | none => none

end Waiting

/-- The value that a text is written for, if it is a JSON text. -/
def parse? (text : List UInt8) : Option Json :=
  match Token.all? text with
  | some tokens => (Waiting.value []).finish? tokens
  | none => none

end DocIndex.Json
