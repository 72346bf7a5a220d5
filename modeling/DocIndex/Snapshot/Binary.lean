import DocIndex.Bytes.Delimited
import DocIndex.Snapshot.Basic

/-!
# The binary form of snapshots

Every record is its fields one behind the other in the order of their declaration, and a category is
its code. `Snapshot.ofBinary?` reads what `Snapshot.toBinary` writes and passes over what stands
behind it.
-/

namespace DocIndex

open Delimited (encode decode?)

instance : Delimited Category where
  encode c := Delimited.encodeNat c.code
  decode? s := do
    let (n, r) ← Delimited.decodeNat? 4 s
    return (← Category.ofCode? n, r)

instance : Delimited ModuleEntry where
  encode m := encode m.name ++ encode m.root
  decode? s := do
    let (name, s) ← decode? s
    let (root, s) ← decode? s
    return ({ name, root }, s)

instance : Delimited FileEntry where
  encode f := encode f.path ++ encode f.root
  decode? s := do
    let (path, s) ← decode? s
    let (root, s) ← decode? s
    return ({ path, root }, s)

instance : Delimited ErrorEntry where
  encode e := encode e.name ++ encode e.docsHtml
  decode? s := do
    let (name, s) ← decode? s
    let (docsHtml, s) ← decode? s
    return ({ name, docsHtml }, s)

instance : Delimited ErrorSet where
  encode e := encode e.owner ++ encode e.errors
  decode? s := do
    let (owner, s) ← decode? s
    let (errors, s) ← decode? s
    return ({ owner, errors }, s)

instance : Delimited Decl where
  encode d :=
    encode d.name ++ encode d.parent ++ encode d.category ++ encode d.aliasee ++
      encode d.members ++ encode d.isPrivate ++ encode d.docsHtml ++ encode d.signatureHtml ++
      encode d.params ++ encode d.fields ++ encode d.errorSet ++ encode d.exampleHtml ++
      encode d.sourceHtml
  decode? s := do
    let (name, s) ← decode? s
    let (parent, s) ← decode? s
    let (category, s) ← decode? s
    let (aliasee, s) ← decode? s
    let (members, s) ← decode? s
    let (isPrivate, s) ← decode? s
    let (docsHtml, s) ← decode? s
    let (signatureHtml, s) ← decode? s
    let (params, s) ← decode? s
    let (fields, s) ← decode? s
    let (errorSet, s) ← decode? s
    let (exampleHtml, s) ← decode? s
    let (sourceHtml, s) ← decode? s
    return ({ name, parent, category, aliasee, members, isPrivate, docsHtml, signatureHtml, params,
              fields, errorSet, exampleHtml, sourceHtml }, s)

instance : Delimited Snapshot where
  encode t := encode t.modules ++ encode t.decls.toList ++ encode t.files
  decode? s := do
    let (modules, s) ← decode? s
    let (decls, s) ← decode? (α := List Decl) s
    let (files, s) ← decode? s
    return ({ modules, decls := decls.toArray, files }, s)

namespace Snapshot

/-- The binary form of a snapshot. -/
def toBinary (s : Snapshot) : List UInt8 :=
  encode s

/-- The snapshot whose binary form the bytes start with. -/
def ofBinary? (bytes : List UInt8) : Option Snapshot :=
  (decode? bytes).map Prod.fst

end Snapshot

end DocIndex
