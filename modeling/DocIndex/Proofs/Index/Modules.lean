import DocIndex.Proofs.Index.Answers

/-!
# Enumerated modules

Modules are enumerated by position, and an empty name stands for the end of the enumeration. So what
is enumerated, and searched for the root of a module, are the modules in front of the first one
without a name, while a path of one segment leads to the root of any module with that name. Both
agree, and all modules are enumerated, exactly if every module has a name (`modules_complete_iff`).
-/

namespace DocIndex

namespace Snapshot

variable {s : Snapshot} {name : String} {e : ModuleEntry}

/-- A path of one segment leads to the root of the first module with that name. -/
theorem lookup_of_undotted (undotted : '.' ∉ name.toList) :
    s.lookup name = (s.module? name).map (·.root) := by
  rw [lookup_eq (Dotted.segments_eq_singleton undotted)]
  cases s.module? name <;> rfl

/-- The modules in front of the first one without a name. -/
def named (s : Snapshot) : List ModuleEntry :=
  s.modules.takeWhile (·.name ≠ "")

theorem named_isPrefix (s : Snapshot) : s.named <+: s.modules :=
  List.takeWhile_prefix _

theorem named_eq_modules_iff : s.named = s.modules ↔ ∀ e ∈ s.modules, e.name ≠ "" := by
  simp [named, List.takeWhile_eq_self_iff]

theorem name_ne_of_mem_named (h : e ∈ s.named) : e.name ≠ "" := by
  simpa using List.mem_takeWhile_imp h

theorem exists_name_eq_iff {l : List ModuleEntry} :
    (∃ e ∈ l, e.name = name) ↔ (l.find? (·.name = name)).isSome = true := by
  simp [List.find?_isSome]

/-- Looking for a name among the named modules finds the first module of all, or nothing. -/
theorem map_find?_named_iff {α : Type} (f : ModuleEntry → α) :
    (s.named.find? (·.name = name)).map f = (s.modules.find? (·.name = name)).map f ↔
      ((∃ e ∈ s.modules, e.name = name) → ∃ e ∈ s.named, e.name = name) := by
  rw [exists_name_eq_iff, exists_name_eq_iff]
  cases found : s.named.find? (·.name = name) with
  | some e => simp [(named_isPrefix s).find?_eq_some found]
  | none => cases s.modules.find? (·.name = name) <;> simp

end Snapshot

namespace Index

open Snapshot Table

variable {s : Snapshot} {m : Machine Table}

/-- The names of the modules in front of the first one without a name are enumerated, and the root
of a module is looked for among these; a path without a dot leads to the root of the first module of
all with that name. For one name both are the same exactly if some module in front of the first one
without a name has it, or none at all. The enumeration is complete, and both are the same for all
names, exactly if every module has a name. -/
theorem modules_complete_iff (closed : s.ModulesClosed) (few : s.modules.length < 2 ^ 32)
    (short : ∀ e ∈ s.modules, Utf8.Short e.name) (serves : Serves s m) :
    (modules m).1 = .ok (s.named.map (·.name)) ∧
    (∀ name, Utf8.Counted name → '.' ∉ name.toList →
      (findDeclaration name m).1 = .ok ((s.modules.find? (·.name = name)).map (⟨·.root⟩)) ∧
      (moduleRootNamed name m).1 = .ok ((s.named.find? (·.name = name)).map (⟨·.root⟩)) ∧
      ((moduleRootNamed name m).1 = (findDeclaration name m).1 ↔
        ((∃ e ∈ s.modules, e.name = name) → ∃ e ∈ s.named, e.name = name))) ∧
    ((modules m).1 = .ok (s.modules.map (·.name)) ↔ ∀ e ∈ s.modules, e.name ≠ "") ∧
    ((∀ name, Utf8.Counted name → '.' ∉ name.toList →
        (moduleRootNamed name m).1 = (findDeclaration name m).1) ↔
      ∀ e ∈ s.modules, e.name ≠ "") := by
  have listed : (modules m).1 = .ok (s.named.map (·.name)) := (answers_modules few short m serves).1
  have searched (name : String) : (moduleRootNamed name m).1 =
      .ok ((s.named.find? (·.name = name)).map (⟨·.root⟩)) :=
    (answers_moduleRootNamed few short closed name m serves).1
  have found (name : String) (counted : Utf8.Counted name) (undotted : '.' ∉ name.toList) :
      (findDeclaration name m).1 =
        .ok ((s.modules.find? (·.name = name)).map (⟨·.root⟩)) := by
    rw [findDeclaration_run counted, serves.snapshot, filter_present closed.size_lt
      fun i hi => closed.declares_of_lookup hi, lookup_of_undotted undotted, Option.map_map]
    rfl
  have same_iff (name : String) (counted : Utf8.Counted name) (undotted : '.' ∉ name.toList) :
      (moduleRootNamed name m).1 = (findDeclaration name m).1 ↔
        ((∃ e ∈ s.modules, e.name = name) → ∃ e ∈ s.named, e.name = name) := by
    rw [searched, found name counted undotted, Except.ok.injEq, map_find?_named_iff]
  refine ⟨listed, fun name counted undotted => ⟨found name counted undotted, searched name,
    same_iff name counted undotted⟩, ?_, ?_⟩
  · rw [listed, Except.ok.injEq, ← named_eq_modules_iff]
    constructor
    · intro same
      refine (named_isPrefix s).eq_of_length ?_
      simpa using congrArg List.length same
    · rintro same
      rw [same]
  · constructor
    · -- An empty name is no name of a module in front of the first one without a name.
      intro same e he none
      obtain ⟨e', he', none'⟩ := (same_iff "" (by decide) (by decide)).1
        (same "" (by decide) (by decide)) ⟨e, he, none⟩
      exact name_ne_of_mem_named he' none'
    · intro all name counted undotted
      rw [same_iff name counted undotted, named_eq_modules_iff.2 all]
      exact id

/-- Modules that all have names, one of them twice. -/
def doubled : Snapshot where
  modules := [⟨"root", 0⟩, ⟨"std", 0⟩, ⟨"std", 1⟩]
  decls := #[{ name := "root", category := .nameSpace }, { name := "std", category := .nameSpace }]

/-- All modules are enumerated, and of two with the same name the first one is found both ways. -/
theorem modules_complete_iff_doubled : doubled.ModulesClosed ∧ Serves doubled (start doubled) ∧
    (modules (start doubled)).1 = .ok ["root", "std", "std"] ∧
    (findDeclaration "std" (start doubled)).1 = .ok (some ⟨0⟩) ∧
    (moduleRootNamed "std" (start doubled)).1 = .ok (some ⟨0⟩) := by
  have closed : doubled.ModulesClosed := by decide
  have serves := serves_start doubled
  obtain ⟨-, one, complete, agree⟩ :=
    modules_complete_iff closed (by decide) (by decide) serves
  have all : ∀ e ∈ doubled.modules, e.name ≠ "" := by decide
  have found : (findDeclaration "std" (start doubled)).1 = .ok (some ⟨0⟩) :=
    (one "std" (by decide) (by decide)).1
  exact ⟨closed, serves, complete.2 all, found,
    (agree.2 all "std" (by decide) (by decide)).trans found⟩

/-- A module without a name in front of another one. -/
def interrupted : Snapshot where
  modules := [⟨"root", 0⟩, ⟨"", 0⟩, ⟨"std", 1⟩]
  decls := #[{ name := "root", category := .nameSpace }, { name := "std", category := .nameSpace }]

/-- The enumeration ends at a module without a name. What stands behind it is missing, and its root
is not found, though its name can be looked up. -/
theorem modules_interrupted :
    interrupted.modules.map (·.name) = ["root", "", "std"] ∧
      Answers interrupted modules (.ok ["root"]) ∧
      Answers interrupted (findDeclaration "std") (.ok (some ⟨1⟩)) ∧
      Answers interrupted (moduleRootNamed "std") (.ok none) := by
  have closed : interrupted.RootsClosed := by decide
  have few : interrupted.modules.length < 2 ^ 32 := by decide
  have short : ∀ e ∈ interrupted.modules, Utf8.Short e.name := by decide
  have std : interrupted.lookup "std" = some 1 := lookup_of_undotted (by decide)
  have path : Utf8.Short "std" := by decide
  have found := answers_findDeclaration closed path
  rw [std] at found
  exact ⟨rfl, answers_modules few short, found,
    answers_moduleRootNamed few short closed.toModulesClosed "std"⟩

end Index

end DocIndex
