import Mathlib.Data.List.Forall2
import DocIndex.Json.Basic

/-!
# Records in JSON

A record with given fields may be written as an object or as an array (`RecordForm`). An object has
its fields in any order, some of those that have their default left out, and fields of other names
among them with any values. An array has the values of the fields in their order, and some of the
last fields that have their default are left out. In either form each field is found under its name
or may be missing (`RecordForm.exists_found`), so it is read as what it was written for
(`required?_eq`, `optional?_eq`).
-/

namespace DocIndex.Json

/-- A field of a record: its name, the values that may be written for it, and whether it may be left
out. -/
structure Field where
  name : String
  form : Json → Prop
  optional : Prop

/-- Fields with values that are written for them, in their order, some optional ones left out. -/
inductive Written : List Field → List (String × Json) → Prop
  | nil : Written [] []
  | given {f : Field} {fields : List Field} {j : Json} {entries : List (String × Json)}
      (form : f.form j) (rest : Written fields entries) :
      Written (f :: fields) ((f.name, j) :: entries)
  | omitted {f : Field} {fields : List Field} {entries : List (String × Json)}
      (optional : f.optional) (rest : Written fields entries) : Written (f :: fields) entries

/-- The ways to write a record. -/
inductive RecordForm (fields : List Field) : Json → Prop
  | object {known unknown entries : List (String × Json)} (written : Written fields known)
      (other : ∀ e ∈ unknown, e.1 ∉ fields.map Field.name)
      (order : entries.Perm (known ++ unknown)) : RecordForm fields (record entries)
  | array {front behind : List Field} {items : List Json} (split : fields = front ++ behind)
      (written : List.Forall₂ Field.form front items) (optional : ∀ f ∈ behind, f.optional) :
      RecordForm fields (.array items)

/-- Whether the field has one of its values, or is optional and missing. -/
def Field.Found (f : Field) (entries : List (String × Json)) : Prop :=
  (∃ j, entries.lookup f.name = some j ∧ f.form j) ∨ entries.lookup f.name = none ∧ f.optional

variable {fields : List Field} {entries : List (String × Json)}

/-! ## Entries -/

theorem lookup_eq_some_of_mem {name : String} {j : Json} (distinct : (entries.map Prod.fst).Nodup)
    (h : (name, j) ∈ entries) : entries.lookup name = some j := by
  induction entries with
  | nil => cases h
  | cons e entries ih =>
    obtain ⟨first, distinct⟩ := List.nodup_cons.1 distinct
    rcases List.mem_cons.1 h with rfl | later
    · exact List.lookup_cons_self
    · have other : (name == e.1) = false := by
        rw [beq_eq_false_iff_ne]
        intro same
        exact first (List.mem_map.2 ⟨(name, j), later, same⟩)
      rw [List.lookup_cons, other]
      exact ih distinct later

theorem lookup_eq_none_of_not_mem {name : String} (h : name ∉ entries.map Prod.fst) :
    entries.lookup name = none := by
  rw [List.lookup_eq_none_iff]
  intro e he
  rw [bne_iff_ne]
  rintro rfl
  exact h (List.mem_map_of_mem he)

/-- Of an object, the entries are found whose names are declared. -/
theorem declaredFields?_record {names : List String}
    (distinct : ((entries.filter fun e => names.contains e.1).map Prod.fst).Nodup) :
    declaredFields? names (entries.map fun (name, j) => (some name, j)) =
      some (entries.filter fun e => names.contains e.1) := by
  induction entries with
  | nil => rfl
  | cons e entries ih =>
    obtain ⟨name, j⟩ := e
    by_cases declared : names.contains name = true
    · rw [List.filter_cons_of_pos (by exact declared)] at distinct ⊢
      obtain ⟨first, distinct⟩ := List.nodup_cons.1 distinct
      have found := ih distinct
      have once := lookup_eq_none_of_not_mem first
      simp only [List.map_cons, declaredFields?, found, Option.bind_eq_bind, Option.bind_some,
        declared, once]
      rfl
    · rw [List.filter_cons_of_neg (by exact declared)] at distinct ⊢
      have found := ih distinct
      simp only [List.map_cons, declaredFields?, found, Option.bind_eq_bind, Option.bind_some,
        declared]
      rfl

/-- An object is no record if the name of a field of it denotes no text. -/
theorem fields?_eq_none {names : List String} {fields : List (Text × Json)}
    (h : none ∈ fields.map Prod.fst) : (object fields).fields? names = none := by
  rw [Json.fields?]
  induction fields with
  | nil => cases h
  | cons field fields ih =>
    obtain ⟨_ | name, j⟩ := field
    · rfl
    · have later : none ∈ fields.map Prod.fst := (List.mem_cons.1 h).resolve_left (by rintro ⟨⟩)
      rw [declaredFields?, ih later]
      rfl

/-! ## Fields -/

theorem Written.sublist (h : Written fields entries) :
    (entries.map Prod.fst).Sublist (fields.map Field.name) := by
  induction h with
  | nil => exact .slnil
  | given _ _ ih => exact ih.cons_cons _
  | omitted _ _ ih => exact ih.cons _

theorem Written.mem_or {f : Field} (distinct : (fields.map Field.name).Nodup)
    (h : Written fields entries) (hf : f ∈ fields) :
    (∃ j, (f.name, j) ∈ entries ∧ f.form j) ∨ f.name ∉ entries.map Prod.fst ∧ f.optional := by
  induction h with
  | nil => cases hf
  | @given f' fields j entries form rest ih =>
    obtain ⟨first, distinct⟩ := List.nodup_cons.1 distinct
    rcases List.mem_cons.1 hf with rfl | later
    · exact .inl ⟨j, List.mem_cons_self, form⟩
    · rcases ih distinct later with ⟨j, mem, form⟩ | ⟨missing, optional⟩
      · exact .inl ⟨j, List.mem_cons_of_mem _ mem, form⟩
      · refine .inr ⟨?_, optional⟩
        rw [List.map_cons, List.mem_cons, not_or]
        refine ⟨?_, missing⟩
        intro same
        exact first (List.mem_map.2 ⟨f, later, same⟩)
  | @omitted f' fields entries optional rest ih =>
    obtain ⟨first, distinct⟩ := List.nodup_cons.1 distinct
    rcases List.mem_cons.1 hf with rfl | later
    · exact .inr ⟨fun mem => first (rest.sublist.subset mem), optional⟩
    · exact ih distinct later

/-- The order of the entries does not matter. -/
theorem Written.found {f : Field} {found : List (String × Json)}
    (distinct : (fields.map Field.name).Nodup) (h : Written fields entries)
    (order : found.Perm entries) (hf : f ∈ fields) : f.Found found := by
  have names := order.map Prod.fst
  have once : (found.map Prod.fst).Nodup := names.nodup_iff.2 (h.sublist.nodup distinct)
  rcases h.mem_or distinct hf with ⟨j, mem, form⟩ | ⟨missing, optional⟩
  · exact .inl ⟨j, lookup_eq_some_of_mem once (order.mem_iff.2 mem), form⟩
  · exact .inr ⟨lookup_eq_none_of_not_mem fun mem => missing (names.mem_iff.1 mem), optional⟩

theorem written_of_omitted (optional : ∀ f ∈ fields, f.optional) : Written fields [] := by
  induction fields with
  | nil => exact .nil
  | cons f fields ih =>
    exact .omitted (optional f List.mem_cons_self)
      (ih fun g hg => optional g (List.mem_cons_of_mem f hg))

/-- The values of an array stand for the fields in their order. -/
theorem written_zip {front behind : List Field} {items : List Json}
    (written : List.Forall₂ Field.form front items) (optional : ∀ f ∈ behind, f.optional) :
    Written (front ++ behind) (((front ++ behind).map Field.name).zip items) := by
  induction written with
  | nil =>
    rw [List.zip_nil_right]
    exact written_of_omitted optional
  | cons form _ ih => exact .given form ih

/-- In each way to write a record its fields are found, if they have different names. -/
theorem RecordForm.exists_found {names : List String} {j : Json} (h : RecordForm fields j)
    (named : fields.map Field.name = names) (distinct : names.Nodup) :
    ∃ found, j.fields? names = some found ∧ ∀ f ∈ fields, f.Found found := by
  subst named
  cases h with
  | @object known unknown entries written other order =>
    have declared : ∀ e ∈ known, (fields.map Field.name).contains e.1 = true := fun e he =>
      List.contains_iff_mem.2 (written.sublist.subset (List.mem_map_of_mem he))
    have undeclared : ∀ e ∈ unknown, ¬ (fields.map Field.name).contains e.1 = true := fun e he h =>
      other e he (List.contains_iff_mem.1 h)
    have same : (entries.filter fun e => (fields.map Field.name).contains e.1).Perm known := by
      have parts := order.filter fun e => (fields.map Field.name).contains e.1
      rwa [List.filter_append, List.filter_eq_self.2 declared, List.filter_eq_nil_iff.2 undeclared,
        List.append_nil] at parts
    have once := (same.map Prod.fst).nodup_iff.2 (written.sublist.nodup distinct)
    exact ⟨_, declaredFields?_record once, fun f hf => written.found distinct same hf⟩
  | @array front behind items split written optional =>
    subst split
    have short : items.length ≤ ((front ++ behind).map Field.name).length := by
      rw [← written.length_eq, List.length_map, List.length_append]
      exact Nat.le_add_right _ _
    exact ⟨_, if_pos short,
      fun f hf => (written_zip written optional).found distinct (.refl _) hf⟩

theorem recordForm_record (h : Written fields entries) : RecordForm fields (record entries) :=
  .object h (List.forall_mem_nil _) (by rw [List.append_nil])

/-! ## Values of fields -/

/-- Whether the values that are written for something are read as it. -/
def Reads {α : Type} (read : Json → Option α) (form : α → Json → Prop) : Prop :=
  ∀ a j, form a j → read j = some a

section Values

variable {α : Type} {read : Json → Option α} {form : α → Json → Prop} {a : α}

/-- A field that has to be given. -/
def Field.needed (name : String) (form : α → Json → Prop) (a : α) : Field :=
  ⟨name, form a, False⟩

/-- A field that may be left out if it has its default. -/
def Field.defaulting (name : String) (form : α → Json → Prop) (default a : α) : Field :=
  ⟨name, form a, a = default⟩

theorem bind_of_eq_some {β : Type} {found : Option α} {next : α → Option β}
    (h : found = some a) : found >>= next = next a := by
  rw [h]
  rfl

theorem required?_eq {name : String} (reads : Reads read form)
    (h : (Field.needed name form a).Found entries) : required? read name entries = some a := by
  rcases h with ⟨j, found, form⟩ | ⟨_, ⟨⟩⟩
  have found : entries.lookup name = some j := found
  rw [required?, found]
  exact reads a j form

theorem optional?_eq {name : String} {default : α} (reads : Reads read form)
    (h : (Field.defaulting name form default a).Found entries) :
    optional? read default name entries = some a := by
  rcases h with ⟨j, found, form⟩ | ⟨missing, same⟩
  · have found : entries.lookup name = some j := found
    rw [optional?, found]
    exact reads a j form
  · have missing : entries.lookup name = none := missing
    have same : a = default := same
    rw [optional?, missing, same]

/-- The value that is written for a text; a string literal may spell it in many ways. -/
def TextForm (s : String) (j : Json) : Prop :=
  j = text s

/-- The value that is written for a number of 32 bits. -/
def WordForm (n : UInt32) (j : Json) : Prop :=
  j = nat n.toNat

/-- The value that is written for a truth value. -/
def BoolForm (b : Bool) (j : Json) : Prop :=
  j = .bool b

/-- The values that are written for what may be missing. -/
inductive OptionForm (form : α → Json → Prop) : Option α → Json → Prop
  | none : OptionForm form none .null
  | some {a : α} {j : Json} (h : form a j) : OptionForm form (some a) j

/-- The values that are written for a list. -/
inductive ListForm (form : α → Json → Prop) : List α → Json → Prop
  | array {l : List α} {items : List Json} (h : List.Forall₂ form l items) :
      ListForm form l (.array items)

theorem reads_text : Reads string? TextForm := by
  rintro s _ rfl
  rfl

theorem nat?_nat (n : Nat) : (nat n).nat? = some n := by
  have digits : ∀ c ∈ Nat.toDigits 10 n, c.isDigit = true := fun c hc =>
    Nat.isDigit_of_mem_toDigits (n := n) (by decide) (by decide) hc
  rw [nat, nat?, Nat.toString_eq_ofList_toDigits, String.toList_ofList,
    if_pos (List.all_eq_true.2 digits), Nat.ofDigitChars_toDigits (by decide) (by decide)]

theorem reads_word : Reads word? WordForm := by
  rintro n _ rfl
  rw [word?, nat?_nat]
  simp only [Option.bind_eq_bind, Option.bind_some]
  rw [if_pos n.toNat_lt_size, UInt32.ofNat_toNat]

theorem reads_bool : Reads bool? BoolForm := by
  rintro b _ rfl
  rfl

theorem reads_option (reads : Reads read form) (null : read .null = none) :
    Reads (option? read) (OptionForm form) := by
  rintro _ j (_ | @⟨a, _, h⟩)
  · rfl
  · have value := reads a j h
    have other : j ≠ .null := by
      rintro rfl
      rw [null] at value
      cases value
    rw [option?, value, Option.map_some]
    exact other

theorem reads_list (reads : Reads read form) : Reads (list? read) (ListForm form) := by
  rintro l _ ⟨h⟩
  rw [list?]
  induction h with
  | nil => rfl
  | cons first _ ih =>
    rw [List.mapM_cons, reads _ _ first, ih]
    rfl

theorem listForm_ofList {write : α → Json} {l : List α} (h : ∀ a ∈ l, form a (write a)) :
    ListForm form l (ofList write l) := by
  refine .array ?_
  rw [List.forall₂_map_right_iff, List.forall₂_same]
  exact h

theorem optionForm_ofOption {write : α → Json} {o : Option α} (h : ∀ a ∈ o, form a (write a)) :
    OptionForm form o (ofOption write o) := by
  cases o with
  | none => exact .none
  | some a => exact .some (h a rfl)

end Values

end DocIndex.Json
