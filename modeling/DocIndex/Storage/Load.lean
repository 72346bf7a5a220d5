import DocIndex.Builtin.Basic
import DocIndex.Snapshot.Binary
import DocIndex.Snapshot.Json
import DocIndex.Storage.Basic

/-!
# Loading files

Snapshots are read as JSON from files with the extension `json`, in any case, and as binary from all
others. Lists of builtins are JSON.
-/

namespace DocIndex

/-- Why a snapshot or a list of builtins cannot be loaded. -/
inductive LoadError where
  /-- The file cannot be read. -/
  | unreadable (path : String) (reason : ReadError)
  /-- A JSON text does not describe a snapshot. -/
  | snapshotJson
  /-- Bytes are not the binary form of a snapshot. -/
  | snapshotBinary
  /-- A JSON text does not describe a list of builtins. -/
  | builtinsJson
  deriving DecidableEq, Repr

/-- The words for an error. -/
def LoadError.message : LoadError → String
  | unreadable path reason => "failed to read " ++ path ++ ": " ++ reason.message
  | snapshotJson => "invalid JSON in index snapshot"
  | snapshotBinary => "invalid index snapshot"
  | builtinsJson => "invalid JSON in builtin list"

namespace Snapshot

/-- The snapshot in the bytes of a JSON text. -/
def loadJson (bytes : List UInt8) : Except LoadError Snapshot :=
  match ofJsonText? bytes with
  | some s => .ok s
  | none => .error .snapshotJson

/-- The snapshot in the bytes of a binary form. -/
def loadBinary (bytes : List UInt8) : Except LoadError Snapshot :=
  match ofBinary? bytes with
  | some s => .ok s
  | none => .error .snapshotBinary

/-- Whether a path is that of a JSON file. -/
def isJsonPath (path : String) : Bool :=
  (extension? path).any fun e => e.toLower = "json"

/-- The snapshot in a file, given what reading the file gave. -/
def load (path : String) (contents : Except ReadError (List UInt8)) : Except LoadError Snapshot :=
  match contents with
  | .error reason => .error (.unreadable path reason)
  | .ok bytes => if isJsonPath path then loadJson bytes else loadBinary bytes

end Snapshot

namespace Builtin

/-- The list of builtins in a JSON text. -/
def loadText (text : String) : Except LoadError (List Builtin) :=
  match listOfJsonText? text with
  | some l => .ok l
  | none => .error .builtinsJson

/-- The list of builtins in a file, given what reading the file gave. -/
def load (path : String) (contents : Except ReadError (List UInt8)) :
    Except LoadError (List Builtin) :=
  match contents with
  | .error reason => .error (.unreadable path reason)
  | .ok bytes =>
    match Utf8.decode? bytes with
    | none => .error (.unreadable path .notText)
    | some text => loadText text

end Builtin

end DocIndex
