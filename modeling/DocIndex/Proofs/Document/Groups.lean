import DocIndex.Proofs.Index.Answers
import DocIndex.Proofs.Session.Filtered
import DocIndex.Proofs.Text.Blank

/-!
# The groups of members

Each member of a listing has a category that is not that of an alias, so it belongs to exactly one
of the groups that documents show (`existsUnique_group`), and the groups together hold the members
of the listing (`perm_groups`). A group is written as one entry for each of its members under its
heading, and an empty one is not written at all (`text_headed`).
-/

namespace DocIndex

open Document Text

/-! ## What every listing is made of -/

/-- What is true of the members of every listing: they stand for what is no alias, and their summary
does not end in white space. -/
structure Member.Listed (m : Member) : Prop where
  category : m.category ≠ .redirect
  brief : Firm m.briefDoc.toList

theorem firm_inline (html : String) : Firm (Markup.inline html).toList := by
  rw [Markup.inline, String.toList_ofList]
  exact firm_oneLine _

namespace Index

variable {σ α β : Type} {x : Index σ α} {f : α → Index σ β} {P : α → Prop} {Q : β → Prop}

/-- Whether every value that a computation returns has the property, whatever the engine does. -/
def Ensures (x : Index σ α) (P : α → Prop) : Prop :=
  ∀ m a, (x m).1 = .ok a → P a

theorem ensures_pure {a : α} (h : P a) : Ensures (pure a : Index σ α) P := by
  intro m b hb
  cases hb
  exact h

theorem Ensures.bind (hx : Ensures x P) (hf : ∀ a, P a → Ensures (f a) Q) :
    Ensures (x >>= f) Q := by
  intro m b hb
  rw [run_bind] at hb
  rcases run : x m with ⟨e | a, m'⟩
  · rw [run] at hb
    cases hb
  · rw [run] at hb
    exact hf a (hx m a (by rw [run])) m' b hb

theorem ensures_bind (x : Index σ α) (hf : ∀ a, Ensures (f a) Q) : Ensures (x >>= f) Q := by
  have anything : Ensures x fun _ => True := fun _ _ _ => trivial
  exact anything.bind fun a _ => hf a

variable [Engine σ] {c : Config}

theorem ensures_unwindFrom (visited : List Handle) (h : Handle) :
    Ensures (unwindFrom visited h : Index σ Unwound) fun way =>
      ∀ t category, way.concrete? = some (t, category) → category ≠ .redirect := by
  rw [unwindFrom]
  split
  · exact ensures_pure (by simp [Unwound.concrete?])
  · refine ensures_bind _ fun p => ?_
    split
    · exact ensures_unwindFrom (h :: visited) _
    · exact ensures_pure (by simp [Unwound.concrete?])
    · next category target other none =>
      refine ensures_pure fun t category' same => ?_
      cases same
      rintro rfl
      cases target with
      | none => exact none rfl rfl
      | some t => exact other t rfl rfl
termination_by unvisited visited
decreasing_by exact unvisited_cons_lt ‹_›

theorem ensures_describe (child : Handle) :
    Ensures (describe c child : Index σ (Option Member)) fun o => ∀ m ∈ o, m.Listed := by
  refine ensures_bind _ fun displayName => (ensures_unwindFrom [] child).bind fun way other => ?_
  cases found : way.concrete? with
  | none => exact ensures_pure nofun
  | some target =>
    refine ensures_bind _ fun html => ensures_bind _ fun fqn => ensures_pure fun m hm => ?_
    cases hm
    exact ⟨other _ _ found, firm_inline html⟩

theorem ensures_describeAll (filter : CategorySet) (l : List Handle) :
    Ensures (describeAll c filter l : Index σ (List Member)) fun members =>
      ∀ m ∈ members, m.Listed := by
  induction l with
  | nil => exact ensures_pure (by simp)
  | cons child rest ih =>
    refine (ensures_describe child).bind fun member hmember => ih.bind fun others hothers => ?_
    refine ensures_pure fun m hm => ?_
    rcases List.mem_append.1 hm with hm | hm
    · rw [Option.mem_toList, Option.filter_eq_some_iff] at hm
      exact hmember m hm.1
    · exact hothers m hm

theorem ensures_listChildren (parent : Handle) (filter : CategorySet) :
    Ensures (listChildren c parent filter : Index σ (List Member)) fun members =>
      ∀ m ∈ members, m.Listed := by
  refine ensures_bind _ fun way => ?_
  cases way.concrete? with
  | none => exact ensures_pure (by simp)
  | some scope =>
    dsimp only
    split_ifs
    · exact ensures_bind _ fun l => ensures_describeAll filter l
    · exact ensures_bind _ fun l => ensures_describeAll filter l
    · exact ensures_pure (by simp)

theorem ensures_listRoot (filter : CategorySet) :
    Ensures (listRoot c filter : Index σ (List Member)) fun members =>
      ∀ m ∈ members, m.Listed := by
  have listed (l : List Handle) : Ensures (do
        let members ← describeAll c filter l
        return members.mergeSort fun a b => a.displayName ≤ b.displayName : Index σ _)
      fun members => ∀ m ∈ members, m.Listed :=
    (ensures_describeAll filter l).bind fun members h =>
      ensures_pure fun m hm => h m (List.mem_mergeSort.1 hm)
  refine ensures_bind _ fun hits => ensures_bind _ fun found => ?_
  dsimp only
  split_ifs
  · refine ensures_bind _ fun root => ?_
    cases root with
    | none => exact ensures_bind _ listed
    | some root => exact ensures_bind _ listed
  · exact ensures_bind _ listed

end Index

theorem Session.ensures_members {σ : Type} [Engine σ] (c : Config) (name : String)
    (filter : CategorySet) :
    Index.Ensures (members c name filter : Index σ (List Member)) fun listed =>
      ∀ m ∈ listed, m.Listed := by
  refine Index.ensures_bind _ fun found => ?_
  cases found with
  | none => exact Index.ensures_pure (by simp)
  | some r =>
    dsimp only
    split_ifs
    · exact Index.ensures_listRoot filter
    · exact Index.ensures_listChildren r.handle filter

/-! ## The groups -/

theorem exists_filter_memberGroups {category : Category} (other : category ≠ .redirect) :
    ∃ g, (memberGroups.filter fun g => g.2.admits category) = [g] := by
  cases category with
  | redirect => exact absurd rfl other
  | _ => exact ⟨_, rfl⟩

/-- A member of a listing belongs to exactly one group. -/
theorem existsUnique_group {m : Member} (listed : m.Listed) :
    ∃! g, g ∈ memberGroups ∧ g.2.admits m.category = true := by
  obtain ⟨g, only⟩ := exists_filter_memberGroups listed.category
  have mem_iff (g' : String × CategorySet) :
      g' ∈ memberGroups ∧ g'.2.admits m.category = true ↔ g' = g := by
    have listed_iff : g' ∈ [g] ↔ g' = g := List.mem_singleton
    rw [← listed_iff, ← only, List.mem_filter]
  exact ⟨g, (mem_iff g).2 rfl, fun g' => (mem_iff g').1⟩

open Index in
theorem perm_flatMap_wanted_cons (groups : List (String × CategorySet)) (m : Member)
    (members : List Member) :
    (groups.flatMap fun g => wanted g.2 (m :: members)).Perm
      (((groups.filter fun g => g.2.admits m.category).map fun _ => m) ++
        groups.flatMap fun g => wanted g.2 members) := by
  induction groups with
  | nil => exact .refl _
  | cons g groups ih =>
    have later := (ih.append_left (wanted g.2 members)).trans (List.perm_append_comm_assoc _ _ _)
    by_cases keep : g.2.admits m.category = true
    · simpa [wanted, keep] using later
    · simpa [wanted, keep] using later

open Index in
/-- The groups together hold the members of a listing, each of them once. -/
theorem perm_groups {members : List Member} (listed : ∀ m ∈ members, m.Listed) :
    (memberGroups.flatMap fun g => wanted g.2 members).Perm members := by
  induction members with
  | nil => exact .refl _
  | cons m members ih =>
    rw [List.forall_mem_cons] at listed
    obtain ⟨g, only⟩ := exists_filter_memberGroups listed.1.category
    have once := perm_flatMap_wanted_cons memberGroups m members
    rw [only] at once
    exact once.trans ((ih listed.2).cons m)

/-! ## The text of a group -/

namespace Document

/-- The Markdown of some parts. -/
def partsText (parts : List Part) : String :=
  String.join (parts.map Part.text)

theorem partsText_append (l l' : List Part) :
    partsText (l ++ l') = partsText l ++ partsText l' := by
  rw [partsText, List.map_append, String.join_append]
  rfl

end Document

/-- The Markdown of members under a heading. -/
def groupText (heading : String) (members : List Member) : String :=
  if members = [] then ""
  else "\n\n## " ++ heading ++ "\n\n" ++ Document.lines (members.map Member.entry)

theorem firm_quoted (name : String) : Firm (quoted name).toList := by
  have shape : (quoted name).toList = '\x60' :: name.toList ++ ['\x60'] := by simp [quoted]
  have mark : Firm ['\x60'] := firm_of_forall (List.forall_mem_singleton.2 (by decide))
  rw [shape]
  exact mark.append (List.cons_ne_nil _ _) _

theorem firm_entry {m : Member} (listed : m.Listed) :
    m.entry.toList ≠ [] ∧ Firm m.entry.toList := by
  rw [Member.entry]
  split_ifs with plain
  · refine ⟨by simp, ?_⟩
    rw [String.toList_append]
    exact (firm_quoted _).append (by simp [quoted]) _
  · refine ⟨by simp, ?_⟩
    rw [String.toList_append]
    exact listed.brief.append (by simpa using plain) _

theorem blockText_of_firm {s : String} (firm : Firm s.toList) (filled : s.toList ≠ []) :
    isBlankText s = false ∧ blockText s = "\n\n" ++ s := by
  have shown : isBlankText s = false := by
    have last : s.toList.getLast filled ∈ s.toList.getLast? := List.getLast?_eq_some_getLast filled
    rw [isBlankText, allBlank, List.all_eq_false]
    exact ⟨_, List.mem_of_mem_getLast? last, by simp [firm _ last]⟩
  refine ⟨shown, ?_⟩
  rw [blockText, shown, if_neg Bool.false_ne_true, trimEnd_eq_self firm, String.ofList_toList]

/-- Entries are written under their heading, if there are any. -/
theorem text_headed_lines (heading : String) {entries : List String}
    (filled : ∀ e ∈ entries, e.toList ≠ [] ∧ Firm e.toList) :
    (Part.headed heading (Document.lines entries)).text =
      if entries = [] then "" else "\n\n## " ++ heading ++ "\n\n" ++ Document.lines entries := by
  cases entries with
  | nil => rfl
  | cons e entries =>
    have each : ∀ w ∈ (e :: entries).map String.toList, w ≠ [] ∧ Firm w := by
      rwa [List.forall_mem_map]
    have body : (Document.lines (e :: entries)).toList =
        ['\n'].intercalate ((e :: entries).map String.toList) := String.toList_intercalate
    obtain ⟨shown, text⟩ := blockText_of_firm (body ▸ firm_intercalate _ each)
      (body ▸ intercalate_ne_nil (each _ List.mem_cons_self).1 _ _)
    rw [Part.text, shown, if_neg Bool.false_ne_true, text, if_neg (List.cons_ne_nil e entries),
      ← String.append_assoc]

/-- The members of a group are written under its heading, if there are any. -/
theorem text_headed (heading : String) {members : List Member} (listed : ∀ m ∈ members, m.Listed) :
    (Part.headed heading (Document.lines (members.map Member.entry))).text =
      groupText heading members := by
  rw [text_headed_lines heading (List.forall_mem_map.2 fun m hm => firm_entry (listed m hm)),
    groupText]
  simp only [List.map_eq_nil_iff]

/-- What is written for the members of a listing. -/
theorem text_memberParts {members : List Member} (listed : ∀ m ∈ members, m.Listed) :
    (memberParts members).map Part.text =
      memberGroups.map fun g => groupText g.1 (Index.wanted g.2 members) := by
  rw [memberParts, List.map_map]
  apply List.map_congr_left
  intro g _
  exact text_headed g.1 fun m hm => listed m (List.mem_of_mem_filter hm)

end DocIndex
