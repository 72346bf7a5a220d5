import DocIndex.Proofs.Json.Compact
import DocIndex.Proofs.Json.Reading
import DocIndex.Proofs.Json.Record
import DocIndex.Proofs.Snapshot.Binary
import DocIndex.Snapshot.Json

/-!
# Reading back JSON snapshots

`Snapshot.JsonText` says which JSON texts are texts of a snapshot: the fields of each record are in
any order or in an array, fields of other names stand among them, fields that have their default may
be left out, and any white space and any escapes are used. Each of these texts is read as the
snapshot, and the compact text that is written is one of them (`Snapshot.ofJsonText?_jsonText`). So
JSON and binary forms of a snapshot are read alike.
-/

namespace DocIndex

open Json

/-! ## Categories -/

/-- The values that are written for a category: its name, alone or with the value `null`. -/
inductive Category.JsonForm (c : Category) : Json → Prop
  | name : JsonForm c (text c.name)
  | tagged : JsonForm c (record [(c.name, .null)])

theorem reads_category : Reads Category.ofJson? Category.JsonForm := by
  rintro c _ (_ | _) <;> exact c.ofName?_name

/-! ## Records -/

/-- The fields of a module. -/
def ModuleEntry.jsonFields (m : ModuleEntry) : List Field :=
  [.needed "name" TextForm m.name, .needed "root" WordForm m.root]

/-- The values that are written for a module. -/
def ModuleEntry.JsonForm (m : ModuleEntry) : Json → Prop :=
  RecordForm m.jsonFields

theorem reads_module : Reads ModuleEntry.ofJson? ModuleEntry.JsonForm := by
  intro m j h
  have named : m.jsonFields.map Field.name = ["name", "root"] := rfl
  obtain ⟨found, given, each⟩ := h.exists_found named (by decide)
  simp only [ModuleEntry.jsonFields, List.forall_mem_cons] at each
  obtain ⟨name, root, -⟩ := each
  rw [ModuleEntry.ofJson?, bind_of_eq_some given, bind_of_eq_some (required?_eq reads_text name),
    bind_of_eq_some (required?_eq reads_word root)]
  rfl

/-- The fields of a source file. -/
def FileEntry.jsonFields (f : FileEntry) : List Field :=
  [.needed "path" TextForm f.path, .needed "root" WordForm f.root]

/-- The values that are written for a source file. -/
def FileEntry.JsonForm (f : FileEntry) : Json → Prop :=
  RecordForm f.jsonFields

theorem reads_file : Reads FileEntry.ofJson? FileEntry.JsonForm := by
  intro f j h
  have named : f.jsonFields.map Field.name = ["path", "root"] := rfl
  obtain ⟨found, given, each⟩ := h.exists_found named (by decide)
  simp only [FileEntry.jsonFields, List.forall_mem_cons] at each
  obtain ⟨path, root, -⟩ := each
  rw [FileEntry.ofJson?, bind_of_eq_some given, bind_of_eq_some (required?_eq reads_text path),
    bind_of_eq_some (required?_eq reads_word root)]
  rfl

/-- The fields of an error. -/
def ErrorEntry.jsonFields (e : ErrorEntry) : List Field :=
  [.needed "name" TextForm e.name, .defaulting "docs_html" TextForm "" e.docsHtml]

/-- The values that are written for an error. -/
def ErrorEntry.JsonForm (e : ErrorEntry) : Json → Prop :=
  RecordForm e.jsonFields

theorem reads_error : Reads ErrorEntry.ofJson? ErrorEntry.JsonForm := by
  intro e j h
  have named : e.jsonFields.map Field.name = ["name", "docs_html"] := rfl
  obtain ⟨found, given, each⟩ := h.exists_found named (by decide)
  simp only [ErrorEntry.jsonFields, List.forall_mem_cons] at each
  obtain ⟨name, docsHtml, -⟩ := each
  rw [ErrorEntry.ofJson?, bind_of_eq_some given, bind_of_eq_some (required?_eq reads_text name),
    bind_of_eq_some (optional?_eq reads_text docsHtml)]
  rfl

/-- The fields of an error set. -/
def ErrorSet.jsonFields (e : ErrorSet) : List Field :=
  [.defaulting "owner" (OptionForm WordForm) none e.owner,
    .defaulting "errors" (ListForm ErrorEntry.JsonForm) [] e.errors]

/-- The values that are written for an error set. -/
def ErrorSet.JsonForm (e : ErrorSet) : Json → Prop :=
  RecordForm e.jsonFields

theorem reads_errorSet : Reads ErrorSet.ofJson? ErrorSet.JsonForm := by
  intro e j h
  have named : e.jsonFields.map Field.name = ["owner", "errors"] := rfl
  obtain ⟨found, given, each⟩ := h.exists_found named (by decide)
  simp only [ErrorSet.jsonFields, List.forall_mem_cons] at each
  obtain ⟨owner, errors, -⟩ := each
  rw [ErrorSet.ofJson?, bind_of_eq_some given,
    bind_of_eq_some (optional?_eq (reads_option reads_word rfl) owner),
    bind_of_eq_some (optional?_eq (reads_list reads_error) errors)]
  rfl

/-- The fields of a declaration. -/
def Decl.jsonFields (d : Decl) : List Field :=
  [.needed "name" TextForm d.name,
    .defaulting "parent" (OptionForm WordForm) none d.parent,
    .needed "category" Category.JsonForm d.category,
    .defaulting "aliasee" (OptionForm WordForm) none d.aliasee,
    .defaulting "members" (ListForm WordForm) [] d.members,
    .defaulting "private" BoolForm false d.isPrivate,
    .defaulting "docs_html" TextForm "" d.docsHtml,
    .defaulting "signature_html" TextForm "" d.signatureHtml,
    .defaulting "params" (ListForm TextForm) [] d.params,
    .defaulting "fields" (ListForm TextForm) [] d.fields,
    .defaulting "error_set" (OptionForm ErrorSet.JsonForm) none d.errorSet,
    .defaulting "example_html" TextForm "" d.exampleHtml,
    .defaulting "source_html" TextForm "" d.sourceHtml]

/-- The values that are written for a declaration. -/
def Decl.JsonForm (d : Decl) : Json → Prop :=
  RecordForm d.jsonFields

theorem Decl.nodup_fieldNames : fieldNames.Nodup := by
  decide

theorem reads_decl : Reads Decl.ofJson? Decl.JsonForm := by
  intro d j h
  have named : d.jsonFields.map Field.name = Decl.fieldNames := rfl
  obtain ⟨found, given, each⟩ := h.exists_found named Decl.nodup_fieldNames
  simp only [Decl.jsonFields, List.forall_mem_cons] at each
  obtain ⟨name, parent, category, aliasee, members, isPrivate, docsHtml, signatureHtml, params,
    fields, errorSet, exampleHtml, sourceHtml, -⟩ := each
  have word := reads_option reads_word rfl
  have texts := reads_list reads_text
  rw [Decl.ofJson?, bind_of_eq_some given,
    bind_of_eq_some (required?_eq reads_text name),
    bind_of_eq_some (optional?_eq word parent),
    bind_of_eq_some (required?_eq reads_category category),
    bind_of_eq_some (optional?_eq word aliasee),
    bind_of_eq_some (optional?_eq (reads_list reads_word) members),
    bind_of_eq_some (optional?_eq reads_bool isPrivate),
    bind_of_eq_some (optional?_eq reads_text docsHtml),
    bind_of_eq_some (optional?_eq reads_text signatureHtml),
    bind_of_eq_some (optional?_eq texts params),
    bind_of_eq_some (optional?_eq texts fields),
    bind_of_eq_some (optional?_eq (reads_option reads_errorSet rfl) errorSet),
    bind_of_eq_some (optional?_eq reads_text exampleHtml),
    bind_of_eq_some (optional?_eq reads_text sourceHtml)]
  rfl

namespace Snapshot

/-- The fields of a snapshot. -/
def jsonFields (s : Snapshot) : List Field :=
  [.needed "modules" (ListForm ModuleEntry.JsonForm) s.modules,
    .needed "decls" (ListForm Decl.JsonForm) s.decls.toList,
    .defaulting "files" (ListForm FileEntry.JsonForm) [] s.files]

/-- The values that are written for a snapshot. -/
def JsonForm (s : Snapshot) : Json → Prop :=
  RecordForm s.jsonFields

/-- The JSON texts of a snapshot. -/
def JsonText (s : Snapshot) (text : List UInt8) : Prop :=
  ∃ j, s.JsonForm j ∧ Spells text j

end Snapshot

theorem reads_snapshot : Reads Snapshot.ofJson? Snapshot.JsonForm := by
  intro s j h
  have named : s.jsonFields.map Field.name = ["modules", "decls", "files"] := rfl
  obtain ⟨found, given, each⟩ := h.exists_found named (by decide)
  simp only [Snapshot.jsonFields, List.forall_mem_cons] at each
  obtain ⟨modules, decls, files, -⟩ := each
  rw [Snapshot.ofJson?, bind_of_eq_some given,
    bind_of_eq_some (required?_eq (reads_list reads_decl) decls),
    bind_of_eq_some (required?_eq (reads_list reads_module) modules),
    bind_of_eq_some (optional?_eq (reads_list reads_file) files), Array.toArray_toList]
  rfl

/-! ## What is written -/

theorem ModuleEntry.jsonForm_toJson (m : ModuleEntry) : m.JsonForm m.toJson :=
  recordForm_record (.given rfl (.given rfl .nil))

theorem FileEntry.jsonForm_toJson (f : FileEntry) : f.JsonForm f.toJson :=
  recordForm_record (.given rfl (.given rfl .nil))

theorem ErrorEntry.jsonForm_toJson (e : ErrorEntry) : e.JsonForm e.toJson :=
  recordForm_record (.given rfl (.given rfl .nil))

theorem optionForm_index (o : Option UInt32) : OptionForm WordForm o (ofOption indexToJson o) :=
  optionForm_ofOption fun _ _ => rfl

theorem ErrorSet.jsonForm_toJson (e : ErrorSet) : e.JsonForm e.toJson := by
  have errors : ListForm ErrorEntry.JsonForm e.errors (ofList ErrorEntry.toJson e.errors) :=
    listForm_ofList fun a _ => a.jsonForm_toJson
  exact recordForm_record (.given (optionForm_index e.owner) (.given errors .nil))

theorem Decl.jsonForm_toJson (d : Decl) : d.JsonForm d.toJson := by
  have members : ListForm WordForm d.members (ofList indexToJson d.members) :=
    listForm_ofList fun _ _ => rfl
  have texts (l : List String) : ListForm TextForm l (ofList text l) :=
    listForm_ofList fun _ _ => rfl
  have errorSet : OptionForm ErrorSet.JsonForm d.errorSet (ofOption ErrorSet.toJson d.errorSet) :=
    optionForm_ofOption fun e _ => e.jsonForm_toJson
  refine recordForm_record ?_
  refine .given rfl (.given (optionForm_index d.parent) (.given .name ?_))
  refine .given (optionForm_index d.aliasee) (.given members (.given rfl ?_))
  refine .given rfl (.given rfl (.given (texts d.params) (.given (texts d.fields) ?_)))
  exact .given errorSet (.given rfl (.given rfl .nil))

theorem ModuleEntry.printable_toJson (m : ModuleEntry) : m.toJson.Printable := by
  refine printable_record ?_
  simp only [List.forall_mem_cons]
  exact ⟨printable_text _, printable_nat _, List.forall_mem_nil _⟩

theorem FileEntry.printable_toJson (f : FileEntry) : f.toJson.Printable := by
  refine printable_record ?_
  simp only [List.forall_mem_cons]
  exact ⟨printable_text _, printable_nat _, List.forall_mem_nil _⟩

theorem ErrorEntry.printable_toJson (e : ErrorEntry) : e.toJson.Printable := by
  refine printable_record ?_
  simp only [List.forall_mem_cons]
  exact ⟨printable_text _, printable_text _, List.forall_mem_nil _⟩

theorem printable_index (n : UInt32) : (indexToJson n).Printable :=
  printable_nat n.toNat

theorem ErrorSet.printable_toJson (e : ErrorSet) : e.toJson.Printable := by
  refine printable_record ?_
  simp only [List.forall_mem_cons]
  exact ⟨printable_ofOption printable_index _, printable_ofList ErrorEntry.printable_toJson _,
    List.forall_mem_nil _⟩

theorem Decl.printable_toJson (d : Decl) : d.toJson.Printable := by
  have index := printable_ofOption printable_index
  have texts := printable_ofList printable_text
  have errorSet := printable_ofOption ErrorSet.printable_toJson d.errorSet
  refine printable_record ?_
  simp only [List.forall_mem_cons]
  exact ⟨printable_text _, index d.parent, printable_text _, index d.aliasee,
    printable_ofList printable_index _, printable_bool _, printable_text _, printable_text _,
    texts d.params, texts d.fields, errorSet, printable_text _, printable_text _,
    List.forall_mem_nil _⟩

namespace Snapshot

theorem jsonForm_toJson (s : Snapshot) : s.JsonForm s.toJson := by
  have modules := listForm_ofList (l := s.modules) fun m _ => m.jsonForm_toJson
  have decls := listForm_ofList (l := s.decls.toList) fun d _ => d.jsonForm_toJson
  have files := listForm_ofList (l := s.files) fun f _ => f.jsonForm_toJson
  exact recordForm_record (.given modules (.given decls (.given files .nil)))

theorem printable_toJson (s : Snapshot) : s.toJson.Printable := by
  refine printable_record ?_
  simp only [List.forall_mem_cons]
  exact ⟨printable_ofList ModuleEntry.printable_toJson _, printable_ofList Decl.printable_toJson _,
    printable_ofList FileEntry.printable_toJson _, List.forall_mem_nil _⟩

/-- The text that is written for a snapshot is one of its texts. -/
theorem jsonText_toJsonText (s : Snapshot) : s.JsonText s.toJsonText :=
  ⟨s.toJson, s.jsonForm_toJson, spells_compact s.printable_toJson⟩

theorem JsonText.read {s : Snapshot} {text : List UInt8} (h : s.JsonText text) :
    ofJsonText? text = some s := by
  obtain ⟨j, form, spells⟩ := h
  rw [ofJsonText?, bind_of_eq_some (parse?_of_spells spells)]
  exact reads_snapshot s j form

/-- Every JSON text of a snapshot is read as that snapshot, so the text that is written for it is
read back, and the snapshot is the same that its binary form is read as. -/
theorem ofJsonText?_jsonText (s : Snapshot) :
    (∀ text, s.JsonText text → ofJsonText? text = some s) ∧ s.JsonText s.toJsonText ∧
      ofJsonText? s.toJsonText = some s ∧
        (s.Counted → ∀ text, s.JsonText text → ofBinary? s.toBinary = ofJsonText? text) := by
  refine ⟨fun _ => JsonText.read, s.jsonText_toJsonText, s.jsonText_toJsonText.read, ?_⟩
  intro counted text h
  have binary := ofBinary?_append counted []
  rw [List.append_nil] at binary
  rw [binary, h.read]

theorem joined_surrogate :
    Joined Piece.Form [.escaped 0xD800] [0x5C, 0x75, 0x64, 0x38, 0x30, 0x30] :=
  joined_singleton (.escaped (.long (.lower (by decide) : HexDigit 13 _)
    (.decimal (by decide) : HexDigit 8 _) (.decimal (by decide) : HexDigit 0 _)
    (.decimal (by decide) : HexDigit 0 _)))

/-- A text with the fields in another order, a field of an unknown name whose value is a lone
surrogate, an array for a declaration, fields left out, an escape and white space. -/
theorem ofJsonText?_jsonText_sample :
    let s : Snapshot := { decls := #[{ name := "é", category := .function, aliasee := some 7 }] }
    let text := Utf8.encode ("\x7b \"x\":\"\\ud800\",\"decls\":[[\"\\u00E9\",null," ++
      "\"function\",7]], \"modules\":[] \x7d\n")
    s.JsonText text ∧ ofJsonText? text = some s ∧ s.Counted ∧
      ofBinary? s.toBinary = ofJsonText? text := by
  intro s text
  let d : Decl := { name := "é", category := .function, aliasee := some 7 }
  let items := [Json.text "é", .null, Json.text "function", nat 7]
  let entries := [("x", Json.string none), ("decls", .array [.array items]), ("modules", .array [])]
  have decl : d.JsonForm (.array items) := by
    refine .array (List.take_append_drop 4 d.jsonFields).symm ?_ ?_
    · exact .cons rfl (.cons OptionForm.none (.cons Category.JsonForm.name
        (.cons (OptionForm.some rfl) .nil)))
    · simp only [Decl.jsonFields, List.drop_succ_cons, List.drop_zero, List.forall_mem_cons]
      exact ⟨rfl, rfl, rfl, rfl, rfl, rfl, rfl, rfl, rfl, List.forall_mem_nil _⟩
  have form : s.JsonForm (record entries) := by
    have known : Written s.jsonFields [("modules", .array []), ("decls", .array [.array items])] :=
      .given (ListForm.array .nil) (.given (ListForm.array (.cons decl .nil)) (.omitted rfl .nil))
    have order : entries.Perm
        ([("modules", .array []), ("decls", .array [.array items])] ++ [("x", .string none)]) :=
      List.reverse_perm [("modules", Json.array []), ("decls", .array [.array items]), ("x", _)]
    exact .object known (List.forall_mem_singleton.2 (by decide)) order
  have spells : Spells text (record entries) := by
    have blank : Space [0x20] := by decide
    have acute : Joined CharForm "é".toList [0x5C, 0x75, 0x30, 0x30, 0x45, 0x39] :=
      joined_singleton (.escaped (.long (.decimal (by decide) : HexDigit 0 _)
        (.decimal (by decide) : HexDigit 0 _) (.upper (by decide) : HexDigit 14 _)
        (.decimal (by decide) : HexDigit 9 _)))
    have placed := Joined.cons Token.Form.openObject.spaced <|
      .cons (.behind blank (form_quote "x")) <| .cons Token.Form.colon.spaced <|
      .cons (Token.Form.pieces joined_surrogate).spaced <| .cons Token.Form.comma.spaced <|
      .cons (form_quote "decls").spaced <| .cons Token.Form.colon.spaced <|
      .cons Token.Form.openArray.spaced <| .cons Token.Form.openArray.spaced <|
      .cons (Token.Form.text acute).spaced <|
      .cons Token.Form.comma.spaced <| .cons Token.Form.null.spaced <|
      .cons Token.Form.comma.spaced <| .cons (form_quote "function").spaced <|
      .cons Token.Form.comma.spaced <| .cons (Token.Form.number (numeral_toString 7)).spaced <|
      .cons Token.Form.closeArray.spaced <| .cons Token.Form.closeArray.spaced <|
      .cons Token.Form.comma.spaced <| .cons (.behind blank (form_quote "modules")) <|
      .cons Token.Form.colon.spaced <| .cons Token.Form.openArray.spaced <|
      .cons Token.Form.closeArray.spaced <| .cons (.behind blank .closeObject) .nil
    exact .of_eq placed (by decide : Space [0x0A]) (by decide)
  have read := ofJsonText?_jsonText s
  have counted : s.Counted := by decide
  exact ⟨⟨_, form, spells⟩, read.1 text ⟨_, form, spells⟩, counted,
    read.2.2.2 counted text ⟨_, form, spells⟩⟩

/-- A field whose name is a lone surrogate is refused where any other field is passed over. -/
theorem ofJsonText?_lone_surrogate :
    let text := Utf8.encode "\x7b\"modules\":[],\"decls\":[],\"\\ud800\":null\x7d"
    let fields := [(some "modules", Json.array []), (some "decls", .array [])]
    ({} : Snapshot).JsonForm (.object fields) ∧ Spells text (.object (fields ++ [(none, .null)])) ∧
      ofJsonText? text = none := by
  intro text fields
  have modules := (form_quote "modules").spaced
  have decls := (form_quote "decls").spaced
  have spells : Spells text (.object (fields ++ [(none, .null)])) := by
    have placed := Joined.cons Token.Form.openObject.spaced <| .cons modules <|
      .cons Token.Form.colon.spaced <| .cons Token.Form.openArray.spaced <|
      .cons Token.Form.closeArray.spaced <| .cons Token.Form.comma.spaced <| .cons decls <|
      .cons Token.Form.colon.spaced <| .cons Token.Form.openArray.spaced <|
      .cons Token.Form.closeArray.spaced <| .cons Token.Form.comma.spaced <|
      .cons (Token.Form.pieces joined_surrogate).spaced <| .cons Token.Form.colon.spaced <|
      .cons Token.Form.null.spaced <| .cons Token.Form.closeObject.spaced .nil
    exact .of_eq placed (List.forall_mem_nil _) (by decide)
  refine ⟨?_, spells, ?_⟩
  · exact recordForm_record (.given (ListForm.array .nil) (.given (ListForm.array .nil)
      (.omitted rfl .nil)))
  · rw [ofJsonText?, bind_of_eq_some (parse?_of_spells spells), ofJson?,
      fields?_eq_none (by decide)]
    rfl

end Snapshot

end DocIndex
