import DocIndex.Proofs.Document.Groups
import DocIndex.Proofs.Index.Keeps
import DocIndex.Proofs.Session.Faultless
import DocIndex.Proofs.Session.Transparency

/-!
# Documents and listings agree

The member sections of a document are written from a listing that the renderer makes itself, behind
other sections and for what aliases lead to. It is the listing of the name (`document_members`): the
sections in front of the members leave the staged input as it is, so the engine lists the same
members behind them. What stands around the members is what a renderer writes that lists none
(`Session.frame`).
-/

namespace DocIndex

open Document

namespace Document

/-- Whether the part has not the heading of a group of members. Text on its own has no heading. -/
def Part.isOther : Part → Bool
  | .block _ => true
  | .headed heading _ => !(memberGroups.map (·.1)).contains heading

/-- The parts of a document around the sections for its members. -/
structure Frame where
  front : List Part
  back : List Part

namespace Frame

/-- The Markdown of a document with the given text for its members. -/
def markdown (around : Frame) (title members : String) : String :=
  "# " ++ title ++ partsText around.front ++ members ++ partsText around.back ++ "\n"

/-- Whether none of the parts has the heading of a group of members. -/
def Apart (around : Frame) : Prop :=
  ∀ p ∈ around.front ++ around.back, p.isOther = true

theorem markdown_ofParts (around : Frame) (title : String) (members : List Part) :
    (ofParts title (around.front ++ members ++ around.back)).markdown =
      around.markdown title (partsText members) := by
  show "# " ++ title ++ partsText (around.front ++ members ++ around.back) ++ "\n" = _
  rw [partsText_append, partsText_append, markdown]
  simp only [String.append_assoc]

end Frame

end Document

namespace Index

open Table

/-! ## What stands around the members -/

section Frames

variable {σ : Type} [Engine σ] (style : Style)

/-- What stands around the members in the document of a declaration of the given category. -/
def declFrame (target : Handle) (category : Category) : Index σ Frame := do
  let name ← declaredName target
  let docs ← docsPart style target
  let lead ← leadParts style target category
  let trail ← trailParts style target category
  return ⟨kindPart category name :: docs :: lead, trail⟩

/-- What stands around the members in the document of the main module. -/
def rootFrame (c : Config) (root : Handle) : Index σ Frame := do
  let docs ← docsPart style root
  return ⟨[kindPart .nameSpace c.publicAlias, docs], []⟩

/-- What stands around the members in the document for what aliases lead to. -/
def frameFound : Option (Handle × Category) → Index σ (Option Frame)
  | none => return none
  | some (target, category) => return some (← declFrame style target category)

/-- What stands around the members in the document for a resolved name. -/
def frame (c : Config) (r : Resolved) : Index σ (Option Frame) := do
  if r.isRoot then return some (← rootFrame style c r.handle)
  else frameFound style (← unwind r.handle).concrete?

end Frames

section

variable {σ τ : Type} [Engine σ] [Engine τ] {texts : Export → String → Prop}
  {J : ∀ ⦃α : Type⦄, Index σ α → Index τ α → Prop} (step : Stepwise texts J)

include step

theorem stepwise_declFrame {style : Style} {target : Handle} (category : Category) :
    J (declFrame style target category) (declFrame style target category) := by
  refine step.bind (stepwise_callText step (by decide)) fun name => ?_
  refine step.bind (stepwise_docsPart step target) fun docs => ?_
  refine step.bind (stepwise_leadParts step category) fun lead => ?_
  exact step.bind (stepwise_trailParts step category) fun trail => step.pure _

theorem stepwise_frameFound {style : Style} (found : Option (Handle × Category)) :
    J (frameFound style found) (frameFound style found) := by
  cases found with
  | none => exact step.pure none
  | some found => exact step.bind (stepwise_declFrame step found.2) fun _ => step.pure _

end

section Around

variable {σ : Type} [Engine σ] {style : Style} {target : Handle}

theorem ensures_errorParts : Ensures (errorParts style target : Index σ (List Part)) fun parts =>
    ∀ p ∈ parts, p.isOther = true := by
  refine ensures_bind _ fun set => ?_
  cases set with
  | none => exact ensures_pure (by simp)
  | some set =>
    refine ensures_bind _ fun owner => ensures_bind _ fun l => ensures_bind _ fun entries => ?_
    exact ensures_pure (List.forall_mem_singleton.2 rfl)

theorem ensures_sourceParts : Ensures (sourceParts style target : Index σ (List Part)) fun parts =>
    ∀ p ∈ parts, p.isOther = true := by
  unfold sourceParts
  split_ifs
  · exact ensures_bind _ fun html => ensures_pure (List.forall_mem_singleton.2 rfl)
  · exact ensures_pure (by simp)

theorem ensures_leadParts (category : Category) :
    Ensures (leadParts style target category : Index σ (List Part)) fun parts =>
      ∀ p ∈ parts, p.isOther = true := by
  have signature : Ensures (signaturePart style target : Index σ Part) (·.isOther = true) :=
    ensures_bind _ fun _ => ensures_pure rfl
  have params : Ensures (paramsPart target : Index σ Part) (·.isOther = true) :=
    ensures_bind _ fun l => ensures_bind _ fun entries => ensures_pure rfl
  have doctest : Ensures (examplePart style target : Index σ Part) (·.isOther = true) :=
    ensures_bind _ fun _ => ensures_pure rfl
  unfold leadParts
  cases category with
  | function | typeFunction =>
    refine signature.bind fun p hp => params.bind fun q hq => ?_
    refine ensures_errorParts.bind fun l hl => doctest.bind fun r hr => ensures_pure fun x hx => ?_
    simp only [List.mem_append, List.mem_cons, List.not_mem_nil, or_false] at hx
    rcases hx with ((rfl | rfl) | hx) | rfl
    · exact hp
    · exact hq
    · exact hl x hx
    · exact hr
  | errorSet => exact ensures_errorParts
  | _ => exact ensures_pure (by simp)

theorem ensures_trailParts (category : Category) :
    Ensures (trailParts style target category : Index σ (List Part)) fun parts =>
      ∀ p ∈ parts, p.isOther = true := by
  have fields : Ensures (fieldsPart target : Index σ Part) (·.isOther = true) :=
    ensures_bind _ fun l => ensures_bind _ fun entries => ensures_pure rfl
  unfold trailParts
  cases category with
  | nameSpace | container =>
    exact fields.bind fun p hp => ensures_pure (List.forall_mem_singleton.2 hp)
  | _ => exact ensures_sourceParts

theorem ensures_docsPart (h : Handle) :
    Ensures (docsPart style h : Index σ Part) (·.isOther = true) :=
  ensures_bind _ fun _ => ensures_pure rfl

theorem ensures_declFrame (category : Category) :
    Ensures (declFrame style target category : Index σ Frame) Frame.Apart := by
  refine ensures_bind _ fun name => (ensures_docsPart target).bind fun docs hdocs => ?_
  refine (ensures_leadParts category).bind fun lead hlead => ?_
  refine (ensures_trailParts category).bind fun trail htrail => ensures_pure ?_
  rw [Frame.Apart, List.forall_mem_append, List.forall_mem_cons, List.forall_mem_cons]
  exact ⟨⟨rfl, hdocs, hlead⟩, htrail⟩

theorem ensures_rootFrame (c : Config) (root : Handle) :
    Ensures (rootFrame style c root : Index σ Frame) Frame.Apart := by
  refine (ensures_docsPart root).bind fun docs hdocs => ensures_pure ?_
  exact List.forall_mem_cons.2 ⟨rfl, List.forall_mem_singleton.2 hdocs⟩

theorem ensures_frame (c : Config) (r : Resolved) :
    Ensures (frame style c r : Index σ (Option Frame)) fun found => ∀ around ∈ found,
      around.Apart := by
  have some {x : Index σ Frame} (hx : Ensures x Frame.Apart) :
      Ensures (do return some (← x) : Index σ (Option Frame)) fun found => ∀ around ∈ found,
        around.Apart := by
    refine hx.bind fun around apart => ensures_pure fun _ h => ?_
    cases h
    exact apart
  unfold frame
  split_ifs
  · exact some (ensures_rootFrame c r.handle)
  · refine ensures_bind _ fun way => ?_
    cases way.concrete? with
    | none => exact ensures_pure nofun
    | some found => exact some (ensures_declFrame found.2)

end Around

/-! ## The members of a document -/

variable {m : Machine Table} {style : Style} {c : Config} {target : Handle} {title : String}
  {category : Category} {d : Document}

theorem listFound_of_leaf (leaf : category.hasMembers = false) (filter : CategorySet) :
    (listFound c filter (some (target, category)) : Index Table (List Member)) = pure [] := by
  have other : category ≠ .typeFunction := by
    rintro rfl
    cases leaf
  rw [listFound, if_neg other, leaf, if_neg Bool.false_ne_true]

theorem listChildren_of_leaf (unwound : (unwind target m).1 = .ok (.concrete target category))
    (leaf : category.hasMembers = false) (filter : CategorySet) :
    (listChildren c target filter m).1 = .ok [] := by
  rw [listChildren_run, unwound]
  show (listFound c filter (some (target, category)) m).1 = .ok []
  rw [listFound_of_leaf leaf]
  rfl

/-- The sections for members are those of the listing. -/
theorem exists_listed_of_scopeParts {parts : List Part}
    (unwound : (unwind target m).1 = .ok (.concrete target category))
    (written : (scopeParts target c category m).1 = .ok parts) :
    ∃ listed, (listChildren c target .full m).1 = .ok listed ∧
      partsText parts = partsText (memberParts listed) := by
  unfold scopeParts at written
  cases scope : category.hasMembers with
  | true =>
    rw [scope, if_pos rfl] at written
    obtain ⟨listed, hlisted, written⟩ := exists_of_bind written
    cases written
    exact ⟨listed, hlisted, rfl⟩
  | false =>
    rw [scope, if_neg Bool.false_ne_true] at written
    cases written
    exact ⟨[], listChildren_of_leaf unwound scope .full, rfl⟩

/-- The document of a declaration has the member sections of its listing in its frame. -/
theorem exists_frame_of_renderDecl (sized : Sized m)
    (unwound : (unwind target m).1 = .ok (.concrete target category))
    (written : (renderDecl style c title target category m).1 = .ok d) :
    ∃ listed around, (listChildren c target .full m).1 = .ok listed ∧
      (declFrame style target category m).1 = .ok around ∧ d.title = title ∧
      d.markdown = around.markdown title (partsText (memberParts listed)) := by
  obtain ⟨name, hname, written⟩ := exists_of_bind written
  obtain ⟨docs, hdocs, written⟩ := exists_of_bind written
  obtain ⟨body, built, written⟩ := exists_of_bind written
  cases written
  rw [bodyParts_eq] at built
  obtain ⟨lead, hlead, built⟩ := exists_of_bind built
  obtain ⟨members, hmembers, built⟩ := exists_of_bind built
  obtain ⟨trail, htrail, built⟩ := exists_of_bind built
  cases built
  -- the machines in front of the members and behind them still have the staged input
  have step := stepwise_undisturbed m
  have named : Undisturbed m (declaredName target m).2 :=
    stepwise_callText step (by decide) m (undisturbed_self sized)
  have front : Undisturbed m (leadParts style target category
      (docsPart style target (declaredName target m).2).2).2 :=
    stepwise_leadParts step category _ (stepwise_docsPart step target _ named)
  have back : Undisturbed m (scopeParts target c category _).2 :=
    stepwise_scopeParts step category _ front
  rw [(stepwise_unwind (stepwise_steady _) target front.alike).1] at unwound
  obtain ⟨listed, hlisted, members_eq⟩ := exists_listed_of_scopeParts unwound hmembers
  rw [← (stepwise_listChildren (stepwise_steady _) target .full front.alike).1] at hlisted
  rw [← (stepwise_trailParts (stepwise_steady _) category back.alike).1,
    (stepwise_trailParts (stepwise_steady _) category front.alike).1] at htrail
  refine ⟨listed, ⟨kindPart category name :: docs :: lead, trail⟩, hlisted, ?_, rfl, ?_⟩
  · rw [declFrame, bind_of_ok hname, bind_of_ok hdocs, bind_of_ok hlead, bind_of_ok htrail]
    rfl
  · rw [← members_eq]
    exact Frame.markdown_ofParts ⟨kindPart category name :: docs :: lead, trail⟩ title members

/-- The document of the main module has the member sections of the listing of the main module in its
frame. -/
theorem exists_frame_of_renderRoot {r : Resolved} (sized : Sized m)
    (written : (renderRoot style c r m).1 = .ok d) :
    ∃ listed around, (listRoot c .full m).1 = .ok listed ∧
      (rootFrame style c r.handle m).1 = .ok around ∧ d.title = r.title ∧
      d.markdown = around.markdown r.title (partsText (memberParts listed)) := by
  obtain ⟨docs, hdocs, written⟩ := exists_of_bind written
  obtain ⟨members, hmembers, written⟩ := exists_of_bind written
  cases written
  obtain ⟨listed, hlisted, hmembers⟩ := exists_of_bind hmembers
  cases hmembers
  have alike : Alike m.state.snapshot m (docsPart style r.handle m).2 :=
    (stepwise_docsPart (stepwise_undisturbed m) r.handle _ (undisturbed_self sized)).alike
  rw [← (stepwise_listRoot (stepwise_steady _) trivial .full alike).1] at hlisted
  refine ⟨listed, ⟨[kindPart .nameSpace c.publicAlias, docs], []⟩, hlisted, ?_, rfl, ?_⟩
  · rw [rootFrame, bind_of_ok hdocs]
    rfl
  · have laid := Frame.markdown_ofParts ⟨[kindPart .nameSpace c.publicAlias, docs], []⟩ r.title
      (memberParts listed)
    rwa [List.append_nil] at laid

/-- A document has the member sections of its listing in its frame. -/
theorem exists_frame_of_render {r : Resolved} (sized : Sized m)
    (written : (render style c r m).1 = .ok (some d)) :
    ∃ listed around,
      ((if r.isRoot then listRoot c .full else listChildren c r.handle .full) m).1 = .ok listed ∧
      (frame style c r m).1 = .ok (some around) ∧ d.title = r.title ∧
      d.markdown = around.markdown r.title (partsText (memberParts listed)) := by
  cases root : r.isRoot with
  | true =>
    rw [render, root, if_pos rfl] at written
    obtain ⟨d', written, same⟩ := exists_of_bind written
    cases same
    obtain ⟨listed, around, hlisted, haround, laid⟩ := exists_frame_of_renderRoot sized written
    refine ⟨listed, around, hlisted, ?_, laid⟩
    rw [frame, root, if_pos rfl, bind_of_ok haround]
    rfl
  | false =>
    rw [render_run style root] at written
    rw [if_neg Bool.false_ne_true, listChildren_run, frame, root, if_neg Bool.false_ne_true,
      bind_unwind fun way => stepwise_frameFound (stepwise_steady _) way.concrete?]
    cases unwound : (unwind r.handle m).1 with
    | error f =>
      rw [unwound] at written
      cases written
    | ok way =>
      rw [unwound] at written
      cases way with
      | dangling h => cases written
      | cycle h => cases written
      | concrete target category =>
        obtain ⟨d', written, same⟩ := exists_of_bind written
        cases same
        have again := unwind_concrete unwound
        obtain ⟨listed, around, hlisted, haround, laid⟩ :=
          exists_frame_of_renderDecl sized again written
        rw [listChildren_run, again] at hlisted
        refine ⟨listed, around, hlisted, ?_, laid⟩
        show (frameFound style (some (target, category)) m).1 = _
        rw [frameFound, bind_of_ok haround]
        rfl

end Index

namespace Session

/-- What stands around the members in the document for a name. -/
def frame {σ : Type} [Engine σ] (c : Config) (name : String) : Index σ (Option Frame) := do
  match ← Index.resolve c name with
  | none => return none
  | some r => Index.frame c.style c r

open Index Table

variable {m : Machine Table} {c : Config} {name : String} {d : Document}

theorem members_run {r : Resolved} {m' : Machine Table}
    (found : resolve c name m = (.ok (some r), m')) (filter : CategorySet) : members c name filter m =
      (if r.isRoot then listRoot c filter else listChildren c r.handle filter) m' := by
  rw [members, run_bind, found]

theorem document_run {r : Resolved} {m' : Machine Table}
    (found : resolve c name m = (.ok (some r), m')) :
    document c name m = render c.style c r m' := by
  rw [document, run_bind, found]

theorem frame_run {r : Resolved} {m' : Machine Table}
    (found : resolve c name m = (.ok (some r), m')) :
    frame c name m = Index.frame c.style c r m' := by
  rw [frame, run_bind, found]

theorem exists_resolved_of_document (written : (document c name m).1 = .ok (some d)) :
    ∃ r m', resolve c name m = (.ok (some r), m') := by
  rw [document, run_bind] at written
  rcases run : resolve c name m with ⟨e | found, m'⟩
  · rw [run] at written
    cases written
  · rw [run] at written
    cases found with
    | none => cases written
    | some r => exact ⟨r, m', rfl⟩

/-- What is listed for a name and what stands in its document come from one and the same listing. -/
theorem exists_frame (sized : Sized m) (written : (document c name m).1 = .ok (some d)) :
    ∃ r listed around, (resolve c name m).1 = .ok (some r) ∧
      (members c name .full m).1 = .ok listed ∧ (frame c name m).1 = .ok (some around) ∧
      d.title = r.title ∧ d.markdown = around.markdown r.title (partsText (memberParts listed)) := by
  obtain ⟨r, m', found⟩ := exists_resolved_of_document written
  have sized' : Sized m' := by
    have kept : Sized (resolve c name m).2 :=
      stepwise_resolve stepwise_sized (fun _ _ => trivial) m sized
    rwa [found] at kept
  rw [document_run found] at written
  obtain ⟨listed, around, hlisted, haround, laid⟩ := exists_frame_of_render sized' written
  refine ⟨r, listed, around, by rw [found], ?_, ?_, laid⟩
  · rwa [members_run found]
  · rwa [frame_run found]

theorem apart_of_frame {around : Frame} (framed : (frame c name m).1 = .ok (some around)) :
    around.Apart := by
  obtain ⟨found, -, framed⟩ := exists_of_bind framed
  cases found with
  | none => cases framed
  | some r => exact ensures_frame c r _ _ framed around rfl

theorem partsText_memberParts {listed : List Member} (described : ∀ x ∈ listed, x.Listed) :
    partsText (memberParts listed) =
      groupText "Types" (wanted .types listed) ++
        groupText "Namespaces" (wanted .namespaces listed) ++
        groupText "Functions" (wanted .functions listed) ++
        groupText "Values" (wanted .values listed) := by
  rw [partsText, text_memberParts described]
  simp [memberGroups, String.join]

/-- A declaration that is no scope has no members. -/
theorem members_of_leaf {r : Resolved} {t : Handle} {category : Category} {listed : List Member}
    (resolved : (resolve c name m).1 = .ok (some r)) (below : r.isRoot = false)
    (unwound : (unwind r.handle m).1 = .ok (.concrete t category))
    (leaf : category.hasMembers = false) (found : (members c name .full m).1 = .ok listed) :
    listed = [] := by
  have same : Alike m.state.snapshot m m := ⟨rfl, rfl, .inl ⟨rfl, rfl⟩⟩
  have kept : (resolve c name m).2.state.snapshot = m.state.snapshot :=
    (stepwise_resolve (stepwise_steady _) (fun _ _ => trivial) same).2.left
  rcases run : resolve c name m with ⟨o, m'⟩
  rw [run] at resolved kept
  obtain rfl := resolved
  have unwound' : (unwind r.handle m').1 = .ok (.concrete t category) := by
    rw [unwind_eq_iff] at unwound ⊢
    rwa [kept]
  rw [members_run run, below, if_neg Bool.false_ne_true, listChildren_run, unwound'] at found
  have found : (listFound c .full (some (t, category)) m').1 = .ok listed := found
  rw [listFound_of_leaf leaf] at found
  cases found
  rfl

end Session

end DocIndex
