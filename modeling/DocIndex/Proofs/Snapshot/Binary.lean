import DocIndex.Proofs.Bytes.Delimited
import DocIndex.Snapshot.Binary

/-!
# Reading back binary snapshots

A record is read field by field, so it is restored if its fields are, and what it gives is decided
without a look at what stands behind it. Lengths are written as words, which is all that is asked
of a snapshot (`Snapshot.Counted`). It is read back from its binary form with anything behind, and
from no shorter part of it (`Snapshot.ofBinary?_toBinary`).
-/

namespace DocIndex

open Delimited

/-- A list whose length a word can count, and what is asked of its items. -/
def CountedItems {α : Type} (item : α → Prop) (l : List α) : Prop :=
  l.length < 2 ^ 64 ∧ ∀ a ∈ l, item a

instance {α : Type} {item : α → Prop} [DecidablePred item] (l : List α) :
    Decidable (CountedItems item l) :=
  inferInstanceAs (Decidable (_ ∧ _))

theorem CountedItems.restored {α : Type} [Delimited α] {item : α → Prop} {l : List α}
    (counted : CountedItems item l) (h : ∀ a, item a → Restored a) : Restored l :=
  restored_list counted.1 fun a ha => h a (counted.2 a ha)

theorem restored_option {α : Type} [Delimited α] {o : Option α} (h : ∀ a ∈ o, Restored a) :
    Restored o := by
  cases o with
  | none => exact restored_none
  | some a => exact (h a rfl).some

theorem restored_words {l : List UInt32} (counted : l.length < 2 ^ 64) : Restored l :=
  restored_list counted fun n _ => restored_word n

/-! ## Records -/

theorem restored_category (c : Category) : Restored c := by
  have small : c.code < 2 ^ 32 := by cases c <;> decide
  have number : Restores (decodeNat? 4) (encodeNat c.code) c.code :=
    restores_encodeNat (by omega) le_rfl fun long => absurd small (by omega)
  refine number.last fun s => ?_
  simp only [Category.ofCode?_code]
  rfl

instance : Definite Category where
  stable := (stable_decodeNat? 4).bind fun n => stable_of_option (Category.ofCode? n)

/-- A module whose text a word can count. -/
def ModuleEntry.Counted (m : ModuleEntry) : Prop :=
  Utf8.Counted m.name

instance (m : ModuleEntry) : Decidable m.Counted :=
  inferInstanceAs (Decidable (Utf8.Counted _))

theorem ModuleEntry.restored {m : ModuleEntry} (counted : m.Counted) : Restored m :=
  (restored_text counted).bind ((restored_word m.root).last fun _ => rfl)

instance : Definite ModuleEntry where
  stable := Definite.stable.bind fun _ => Definite.stable.bind fun _ => stable_pure _

/-- A source file whose text a word can count. -/
def FileEntry.Counted (f : FileEntry) : Prop :=
  Utf8.Counted f.path

instance (f : FileEntry) : Decidable f.Counted :=
  inferInstanceAs (Decidable (Utf8.Counted _))

theorem FileEntry.restored {f : FileEntry} (counted : f.Counted) : Restored f :=
  (restored_text counted).bind ((restored_word f.root).last fun _ => rfl)

instance : Definite FileEntry where
  stable := Definite.stable.bind fun _ => Definite.stable.bind fun _ => stable_pure _

/-- An error whose texts a word can count. -/
def ErrorEntry.Counted (e : ErrorEntry) : Prop :=
  Utf8.Counted e.name ∧ Utf8.Counted e.docsHtml

instance (e : ErrorEntry) : Decidable e.Counted :=
  inferInstanceAs (Decidable (_ ∧ _))

theorem ErrorEntry.restored {e : ErrorEntry} (counted : e.Counted) : Restored e :=
  (restored_text counted.1).bind ((restored_text counted.2).last fun _ => rfl)

instance : Definite ErrorEntry where
  stable := Definite.stable.bind fun _ => Definite.stable.bind fun _ => stable_pure _

/-- An error set whose list and texts a word can count. -/
def ErrorSet.Counted (e : ErrorSet) : Prop :=
  CountedItems ErrorEntry.Counted e.errors

instance (e : ErrorSet) : Decidable e.Counted :=
  inferInstanceAs (Decidable (CountedItems _ _))

theorem ErrorSet.restored {e : ErrorSet} (counted : e.Counted) : Restored e := by
  have owner : Restored e.owner := restored_option fun n _ => restored_word n
  have errors : Restored e.errors := counted.restored fun _ => ErrorEntry.restored
  exact owner.bind (errors.last fun _ => rfl)

instance : Definite ErrorSet where
  stable := Definite.stable.bind fun _ => Definite.stable.bind fun _ => stable_pure _

/-- A declaration whose lists and texts a word can count. -/
structure Decl.Counted (d : Decl) : Prop where
  name : Utf8.Counted d.name
  members : d.members.length < 2 ^ 64
  docsHtml : Utf8.Counted d.docsHtml
  signatureHtml : Utf8.Counted d.signatureHtml
  params : CountedItems Utf8.Counted d.params
  fields : CountedItems Utf8.Counted d.fields
  errorSet : ∀ e ∈ d.errorSet, e.Counted
  exampleHtml : Utf8.Counted d.exampleHtml
  sourceHtml : Utf8.Counted d.sourceHtml

instance (d : Decl) : Decidable d.Counted :=
  decidable_of_iff (Utf8.Counted d.name ∧ d.members.length < 2 ^ 64 ∧ Utf8.Counted d.docsHtml ∧
      Utf8.Counted d.signatureHtml ∧ CountedItems Utf8.Counted d.params ∧
      CountedItems Utf8.Counted d.fields ∧ (∀ e ∈ d.errorSet, e.Counted) ∧
      Utf8.Counted d.exampleHtml ∧ Utf8.Counted d.sourceHtml)
    ⟨fun ⟨a, b, c, d, e, f, g, h, i⟩ => ⟨a, b, c, d, e, f, g, h, i⟩,
      fun ⟨a, b, c, d, e, f, g, h, i⟩ => ⟨a, b, c, d, e, f, g, h, i⟩⟩

theorem encode_decl (d : Decl) :
    encode d = encode d.name ++ (encode d.parent ++ (encode d.category ++ (encode d.aliasee ++
      (encode d.members ++ (encode d.isPrivate ++ (encode d.docsHtml ++ (encode d.signatureHtml ++
        (encode d.params ++ (encode d.fields ++ (encode d.errorSet ++ (encode d.exampleHtml ++
          encode d.sourceHtml))))))))))) := by
  simp only [← List.append_assoc]
  rfl

theorem Decl.restored {d : Decl} (counted : d.Counted) : Restored d := by
  have parent : Restored d.parent := restored_option fun n _ => restored_word n
  have aliasee : Restored d.aliasee := restored_option fun n _ => restored_word n
  have params : Restored d.params := counted.params.restored fun _ => restored_text
  have fields : Restored d.fields := counted.fields.restored fun _ => restored_text
  have errorSet : Restored d.errorSet :=
    restored_option fun e he => ErrorSet.restored (counted.errorSet e he)
  rw [Restored, encode_decl]
  refine (restored_text counted.name).bind (parent.bind ?_)
  refine (restored_category d.category).bind (aliasee.bind ?_)
  refine (restored_words counted.members).bind ((restored_bool d.isPrivate).bind ?_)
  refine (restored_text counted.docsHtml).bind ((restored_text counted.signatureHtml).bind ?_)
  refine params.bind (fields.bind (errorSet.bind ?_))
  exact (restored_text counted.exampleHtml).bind
    ((restored_text counted.sourceHtml).last fun _ => rfl)

instance : Definite Decl where
  stable := by
    iterate 13 refine Definite.stable.bind fun _ => ?_
    exact stable_pure _

namespace Snapshot

/-- A snapshot whose lists and texts a word can count. -/
structure Counted (s : Snapshot) : Prop where
  modules : CountedItems ModuleEntry.Counted s.modules
  decls : CountedItems Decl.Counted s.decls.toList
  files : CountedItems FileEntry.Counted s.files

instance (s : Snapshot) : Decidable s.Counted :=
  decidable_of_iff (CountedItems ModuleEntry.Counted s.modules ∧
      CountedItems Decl.Counted s.decls.toList ∧ CountedItems FileEntry.Counted s.files)
    ⟨fun ⟨a, b, c⟩ => ⟨a, b, c⟩, fun ⟨a, b, c⟩ => ⟨a, b, c⟩⟩

theorem restored {s : Snapshot} (counted : s.Counted) : Restored s := by
  have modules : Restored s.modules := counted.modules.restored fun _ => ModuleEntry.restored
  have decls : Restored s.decls.toList := counted.decls.restored fun _ => Decl.restored
  have files : Restored s.files := counted.files.restored fun _ => FileEntry.restored
  have form : encode s = encode s.modules ++ (encode s.decls.toList ++ encode s.files) :=
    List.append_assoc ..
  rw [Restored, form]
  exact modules.bind (decls.bind (files.last fun _ => rfl))

end Snapshot

instance : Definite Snapshot where
  stable := by
    iterate 3 refine Definite.stable.bind fun _ => ?_
    exact stable_pure _

namespace Snapshot

variable {s : Snapshot}

theorem ofBinary?_append (counted : s.Counted) (t : List UInt8) :
    ofBinary? (s.toBinary ++ t) = some s := by
  have restored : Restores decode? s.toBinary s := Snapshot.restored counted
  rw [ofBinary?, restored t, Option.map_some]

/-- A snapshot is read back from its binary form, whatever stands behind it, and no part of that
form that is cut off behind is read as a snapshot. -/
theorem ofBinary?_toBinary (counted : s.Counted) :
    (∀ t, ofBinary? (s.toBinary ++ t) = some s) ∧
      ∀ p, p <+: s.toBinary → p ≠ s.toBinary → ofBinary? p = none := by
  refine ⟨ofBinary?_append counted, fun p front cut => ?_⟩
  have restored : Restores decode? s.toBinary s := Snapshot.restored counted
  rw [ofBinary?, Definite.stable.eq_none_of_cut restored front cut, Option.map_none]

/-- A snapshot with numbers of one, three and five bytes and with texts that are not ASCII. -/
theorem ofBinary?_toBinary_sample :
    let s : Snapshot := {
      modules := [{ name := "std", root := 0 }]
      decls := #[
        { name := "größe", category := .errorSet, members := [250, 251, 65536],
          errorSet := some { owner := some 70000, errors := [{ name := "∅" }] } }]
      files := [{ path := "a.zig", root := 4294967295 }] }
    s.Counted ∧ ofBinary? (s.toBinary ++ [7, 7]) = some s ∧
      ofBinary? s.toBinary.dropLast = none := by
  intro s
  have counted : s.Counted := by decide
  have front : s.toBinary.dropLast <+: s.toBinary := List.dropLast_prefix _
  have cut : s.toBinary.dropLast ≠ s.toBinary := by decide
  exact ⟨counted, (ofBinary?_toBinary counted).1 [7, 7],
    (ofBinary?_toBinary counted).2 _ front cut⟩

end Snapshot

end DocIndex
