import DocIndex.Proofs.Index.Stepwise
import DocIndex.Proofs.Session.Request

/-!
# Sessions step by step

What a session does is built from functions of the typed index, so a relation that is established
step by step (`Stepwise`) holds of listings, searches, the resolution of names and the parts of
documents, and so of every request (`stepwise_perform`), as far as it holds for the texts that are
looked up.
-/

namespace DocIndex

namespace Index

open Document

variable {σ τ : Type} [Engine σ] [Engine τ] {texts : Export → String → Prop}
  {J : ∀ ⦃α : Type⦄, Index σ α → Index τ α → Prop} {c : Config}

/-- The members of what aliases lead to. -/
def listFound (c : Config) (filter : CategorySet) :
    Option (Handle × Category) → Index σ (List Member)
  | none => return []
  | some (scope, category) => do
    if category = .typeFunction then
      describeAll c filter (← typeFunctionMembers scope c.includePrivate)
    else if category.hasMembers then
      describeAll c filter (← namespaceMembers scope c.includePrivate)
    else return []

theorem listChildren_eq (c : Config) (parent : Handle) (filter : CategorySet) :
    (listChildren c parent filter : Index σ (List Member)) =
      unwind parent >>= fun way => listFound c filter way.concrete? :=
  rfl

/-- The document of what aliases lead to. -/
def renderFound (style : Style) (c : Config) (title : String) :
    Option (Handle × Category) → Index σ (Option Document)
  | none => return none
  | some (target, category) => return some (← renderDecl style c title target category)

theorem render_eq (style : Style) (c : Config) {r : Resolved} (below : r.isRoot = false) :
    (render style c r : Index σ (Option Document)) =
      unwind r.handle >>= fun way => renderFound style c r.title way.concrete? := by
  unfold render
  rw [below]
  rfl

section Around

variable (style : Style) (c : Config) (target : Handle)

/-- The sections in front of those for members. -/
def leadParts : Category → Index σ (List Part)
  | .function | .typeFunction => do
    let signature ← signaturePart style target
    let params ← paramsPart target
    let errors ← errorParts style target
    let doctest ← examplePart style target
    return [signature, params] ++ errors ++ [doctest]
  | .errorSet => errorParts style target
  | _ => return []

/-- The sections for members of a declaration of the given category, which may have none. -/
def scopeParts (c : Config) (category : Category) : Index σ (List Part) :=
  if category.hasMembers then childParts c target else return []

/-- The sections behind those for members. -/
def trailParts : Category → Index σ (List Part)
  | .nameSpace | .container => do return [← fieldsPart target]
  | _ => sourceParts style target

theorem bodyParts_eq (category : Category) :
    (bodyParts style c target category : Index σ (List Part)) = (do
      let lead ← leadParts style target category
      let members ← scopeParts target c category
      let trail ← trailParts style target category
      return lead ++ members ++ trail) := by
  cases category <;> simp [bodyParts, leadParts, scopeParts, trailParts, Category.hasMembers]

end Around

variable (step : Stepwise texts J)

include step

/-! ## Members -/

theorem stepwise_describe (child : Handle) : J (describe c child) (describe c child) := by
  unfold describe
  refine step.bind (stepwise_callText step (by decide)) fun displayName => ?_
  refine step.bind (stepwise_unwind step child) fun way => ?_
  cases way.concrete? with
  | none => exact step.pure none
  | some target =>
    refine step.bind (stepwise_callText step (by decide)) fun html => ?_
    exact step.bind (stepwise_callText step (by decide)) fun fqn => step.pure _

theorem stepwise_describeAll (filter : CategorySet) (l : List Handle) :
    J (describeAll c filter l) (describeAll c filter l) := by
  induction l with
  | nil => exact step.pure []
  | cons child rest ih =>
    exact step.bind (stepwise_describe step child) fun _ => step.bind ih fun _ => step.pure _

theorem stepwise_listFound (filter : CategorySet) (found : Option (Handle × Category)) :
    J (listFound c filter found) (listFound c filter found) := by
  cases found with
  | none => exact step.pure []
  | some scope =>
    unfold listFound
    dsimp only
    split_ifs
    · exact step.bind (stepwise_typeFunctionMembers step _ _) fun l =>
        stepwise_describeAll step filter l
    · exact step.bind (stepwise_namespaceMembers step _ _) fun l =>
        stepwise_describeAll step filter l
    · exact step.pure []

theorem stepwise_listChildren (parent : Handle) (filter : CategorySet) :
    J (listChildren c parent filter) (listChildren c parent filter) := by
  rw [listChildren_eq, listChildren_eq]
  exact step.bind (stepwise_unwind step parent) fun way =>
    stepwise_listFound step filter way.concrete?

theorem stepwise_topLevel (seen : List String) (l : List Handle) :
    J (topLevel c seen l) (topLevel c seen l) := by
  induction l generalizing seen with
  | nil => exact step.pure []
  | cons h rest ih =>
    refine step.bind (stepwise_callText step (by decide)) fun fqn => ?_
    cases topLevelName? c fqn with
    | none => exact ih seen
    | some name =>
      dsimp only
      split_ifs
      · exact ih seen
      · exact step.bind (ih _) fun _ => step.pure _

theorem stepwise_listRoot (query : texts .queryExec c.publicAlias) (filter : CategorySet) :
    J (listRoot c filter) (listRoot c filter) := by
  have listed (l : List Handle) : J
      (do
        let members ← describeAll c filter l
        return members.mergeSort fun a b => a.displayName ≤ b.displayName)
      (do
        let members ← describeAll c filter l
        return members.mergeSort fun a b => a.displayName ≤ b.displayName) :=
    step.bind (stepwise_describeAll step filter l) fun _ => step.pure _
  unfold listRoot
  refine step.bind (step.runQuery query) fun hits => ?_
  refine step.bind (stepwise_topLevel step [] hits) fun found => ?_
  dsimp only
  split_ifs
  · refine step.bind (stepwise_moduleRootNamedFrom step _ 0) fun root => ?_
    cases root with
    | none => exact step.bind (step.pure []) listed
    | some root => exact step.bind (stepwise_namespaceMembers step _ _) listed
  · exact listed _

/-! ## Searches -/

theorem stepwise_describeHit (h : Handle) : J (describeHit c h) (describeHit c h) := by
  unfold describeHit
  refine step.bind (stepwise_unwind step h) fun way => ?_
  cases way.concrete? with
  | none => exact step.pure none
  | some target =>
    refine step.bind (stepwise_callText step (by decide)) fun name => ?_
    refine step.bind (stepwise_callText step (by decide)) fun fqn => ?_
    exact step.bind (stepwise_callText step (by decide)) fun html => step.pure _

theorem stepwise_describeHits (limit : Nat) (l : List Handle) :
    J (describeHits c limit l) (describeHits c limit l) := by
  induction l generalizing limit with
  | nil => cases limit <;> exact step.pure []
  | cons h rest ih =>
    cases limit with
    | zero => exact step.pure []
    | succ limit =>
      refine step.bind (stepwise_describeHit step h) fun hit => ?_
      cases hit with
      | some hit => exact step.bind (ih limit) fun _ => step.pure _
      | none => exact ih (limit + 1)

theorem stepwise_search {query : String} (asked : texts .queryExec (trimmed query)) :
    J (search c query) (search c query) := by
  unfold search
  dsimp only
  split_ifs
  · exact step.pure []
  · exact step.bind (step.runQuery asked) fun l => stepwise_describeHits step _ l

/-! ## Resolution -/

theorem stepwise_probe {l : List (Strategy × String)} (known : ∀ p ∈ l, texts .findDecl p.2) :
    J (probe l) (probe l) := by
  induction l with
  | nil => exact step.pure none
  | cons candidate rest ih =>
    rw [List.forall_mem_cons] at known
    refine step.bind (step.findDeclaration known.1) fun found => ?_
    cases found with
    | some h => exact step.pure _
    | none => exact ih known.2

theorem stepwise_resolveRoot : J (resolveRoot c) (resolveRoot c) := by
  unfold resolveRoot
  refine step.bind (stepwise_moduleRootNamedFrom step _ 0) fun root => ?_
  cases root with
  | some h => exact step.bind (step.pure _) fun _ => step.pure _
  | none => exact step.bind (stepwise_moduleRootNamedFrom step _ 0) fun _ => step.pure _

theorem stepwise_resolvePath {name : String}
    (known : ∀ p ∈ c.candidates name, texts .findDecl p.2) :
    J (resolvePath c name) (resolvePath c name) := by
  unfold resolvePath
  refine step.bind (stepwise_probe step known) fun found => ?_
  cases found with
  | none => exact step.pure none
  | some found =>
    dsimp only
    cases c.shortTitle? name found.2.2 with
    | some title => exact step.bind (step.pure _) fun _ => step.pure _
    | none =>
      exact step.bind (stepwise_map step (stepwise_callText step (by decide)) _) fun _ =>
        step.pure _

theorem stepwise_resolveFile {name : String} (file : texts .fileRoot name) :
    J (resolveFile c name) (resolveFile c name) := by
  unfold resolveFile
  split_ifs
  · refine step.bind (step.fileRoot file) fun found => ?_
    cases found with
    | none => exact step.pure none
    | some h => exact step.bind (stepwise_callText step (by decide)) fun _ => step.pure _
  · exact step.pure none

theorem stepwise_resolve {input : String} (known : ∀ p ∈ c.lookups input, texts p.1 p.2) :
    J (resolve c input) (resolve c input) := by
  rw [Config.lookups, List.forall_mem_cons, List.forall_mem_map] at known
  unfold resolve
  dsimp only
  split_ifs
  · exact stepwise_resolveRoot step
  · refine step.bind (stepwise_resolveFile step known.1) fun found => ?_
    cases found with
    | some r => exact step.pure _
    | none => exact stepwise_resolvePath step known.2

/-! ## Documents -/

variable {style : Style} {target : Handle}

theorem stepwise_childParts : J (childParts c target) (childParts c target) :=
  step.bind (stepwise_listChildren step target .full) fun _ => step.pure _

theorem stepwise_rootParts (query : texts .queryExec c.publicAlias) :
    J (rootParts c) (rootParts c) :=
  step.bind (stepwise_listRoot step query .full) fun _ => step.pure _

theorem stepwise_fieldsPart : J (fieldsPart target) (fieldsPart target) := by
  refine step.bind (stepwise_fields step target) fun l => ?_
  refine step.bind (stepwise_mapM step (fun f => ?_) l) fun _ => step.pure _
  exact step.bind (stepwise_callText step (by decide)) fun _ => step.pure _

theorem stepwise_signaturePart : J (signaturePart style target) (signaturePart style target) :=
  step.bind (stepwise_callText step (by decide)) fun _ => step.pure _

theorem stepwise_paramsPart : J (paramsPart target) (paramsPart target) := by
  refine step.bind (stepwise_params step target) fun l => ?_
  refine step.bind (stepwise_mapM step (fun p => ?_) l) fun _ => step.pure _
  exact step.bind (stepwise_callText step (by decide)) fun _ => step.pure _

theorem stepwise_errorParts : J (errorParts style target) (errorParts style target) := by
  refine step.bind (stepwise_errorSet step target) fun set => ?_
  cases set with
  | none => exact step.pure []
  | some set =>
    refine step.bind (stepwise_callHandle step (by decide)) fun owner => ?_
    refine step.bind (stepwise_errorSetEntries step target set) fun l => ?_
    refine step.bind (stepwise_mapM step (fun e => ?_) l) fun _ => step.pure _
    exact step.bind (stepwise_callText step (by decide)) fun _ => step.pure _

theorem stepwise_examplePart : J (examplePart style target) (examplePart style target) :=
  step.bind (stepwise_callText step (by decide)) fun _ => step.pure _

theorem stepwise_sourceParts : J (sourceParts style target) (sourceParts style target) := by
  unfold sourceParts
  split_ifs
  · exact step.bind (stepwise_callText step (by decide)) fun _ => step.pure _
  · exact step.pure []

theorem stepwise_leadParts (category : Category) :
    J (leadParts style target category) (leadParts style target category) := by
  unfold leadParts
  cases category with
  | function | typeFunction =>
    refine step.bind (stepwise_signaturePart step) fun _ => ?_
    refine step.bind (stepwise_paramsPart step) fun _ => ?_
    refine step.bind (stepwise_errorParts step) fun _ => ?_
    exact step.bind (stepwise_examplePart step) fun _ => step.pure _
  | errorSet => exact stepwise_errorParts step
  | _ => exact step.pure []

theorem stepwise_scopeParts (category : Category) :
    J (scopeParts target c category) (scopeParts target c category) := by
  unfold scopeParts
  split_ifs
  · exact stepwise_childParts step
  · exact step.pure []

theorem stepwise_trailParts (category : Category) :
    J (trailParts style target category) (trailParts style target category) := by
  unfold trailParts
  cases category with
  | nameSpace | container => exact step.bind (stepwise_fieldsPart step) fun _ => step.pure _
  | _ => exact stepwise_sourceParts step

theorem stepwise_docsPart (h : Handle) : J (docsPart style h) (docsPart style h) :=
  step.bind (stepwise_callText step (by decide)) fun _ => step.pure _

theorem stepwise_renderRoot (query : texts .queryExec c.publicAlias) (r : Resolved) :
    J (renderRoot style c r) (renderRoot style c r) :=
  step.bind (stepwise_docsPart step r.handle) fun _ =>
    step.bind (stepwise_rootParts step query) fun _ => step.pure _

theorem stepwise_renderDecl (title : String) (category : Category) :
    J (renderDecl style c title target category) (renderDecl style c title target category) := by
  unfold renderDecl
  rw [bodyParts_eq, bodyParts_eq]
  refine step.bind (stepwise_callText step (by decide)) fun name => ?_
  refine step.bind (stepwise_docsPart step target) fun docs => step.bind ?_ fun _ => step.pure _
  refine step.bind (stepwise_leadParts step category) fun _ => ?_
  refine step.bind (stepwise_scopeParts step category) fun _ => ?_
  exact step.bind (stepwise_trailParts step category) fun _ => step.pure _

theorem stepwise_renderFound (title : String) (found : Option (Handle × Category)) :
    J (renderFound style c title found) (renderFound style c title found) := by
  cases found with
  | none => exact step.pure none
  | some found => exact step.bind (stepwise_renderDecl step title found.2) fun _ => step.pure _

theorem stepwise_render (query : texts .queryExec c.publicAlias) (r : Resolved) :
    J (render style c r) (render style c r) := by
  cases root : r.isRoot with
  | true =>
    unfold render
    rw [root, if_pos rfl, if_pos rfl]
    exact step.bind (stepwise_renderRoot step query r) fun _ => step.pure _
  | false =>
    rw [render_eq style c root, render_eq style c root]
    exact step.bind (stepwise_unwind step r.handle) fun way =>
      stepwise_renderFound step r.title way.concrete?

end Index

namespace Session

open Index

variable {σ τ α : Type} [Engine σ] [Engine τ] {texts : Export → String → Prop}
  {J : ∀ ⦃α : Type⦄, Index σ α → Index τ α → Prop} {c : Config} (step : Stepwise texts J)

include step

theorem stepwise_document {name : String} (query : texts .queryExec c.publicAlias)
    (known : ∀ p ∈ c.lookups name, texts p.1 p.2) : J (document c name) (document c name) := by
  unfold document
  refine step.bind (stepwise_resolve step known) fun found => ?_
  cases found with
  | none => exact step.pure none
  | some r => exact stepwise_render step query r

theorem stepwise_members {name : String} (query : texts .queryExec c.publicAlias)
    (known : ∀ p ∈ c.lookups name, texts p.1 p.2) (filter : CategorySet) :
    J (members c name filter) (members c name filter) := by
  unfold members
  refine step.bind (stepwise_resolve step known) fun found => ?_
  cases found with
  | none => exact step.pure []
  | some r =>
    dsimp only
    split_ifs
    · exact stepwise_listRoot step query filter
    · exact stepwise_listChildren step r.handle filter

/-- A relation that is established step by step holds of every request whose texts may be looked
up. -/
theorem stepwise_perform (r : Request α) (known : ∀ p ∈ r.lookups c, texts p.1 p.2) :
    J (r.perform c) (r.perform c) := by
  cases r <;> dsimp only [Request.perform]
  case resolve name => exact stepwise_resolve step known
  case document name =>
    rw [Request.lookups, List.forall_mem_cons] at known
    exact stepwise_document step known.1 known.2
  case members name filter =>
    rw [Request.lookups, List.forall_mem_cons] at known
    exact stepwise_members step known.1 known.2 filter
  case search query => exact stepwise_search step (known _ (List.mem_singleton_self _))
  case modules => exact stepwise_modulesFrom step 0
  case render style r => exact stepwise_render step (known _ (List.mem_singleton_self _)) r
  case listChildren scope filter => exact stepwise_listChildren step scope filter
  case listRoot filter => exact stepwise_listRoot step (known _ (List.mem_singleton_self _)) filter
  case unwind h => exact stepwise_unwind step h
  case classify h => exact step.classify h
  case findDeclaration path => exact step.findDeclaration (known _ (List.mem_singleton_self _))
  case namespaceMembers h includePrivate => exact stepwise_namespaceMembers step h includePrivate
  case typeFunctionMembers h includePrivate =>
    exact stepwise_typeFunctionMembers step h includePrivate
  case fields h => exact stepwise_fields step h
  case params h => exact stepwise_params step h
  case parent h => exact stepwise_callHandle? step (by decide)
  case errorSet h => exact stepwise_errorSet step h
  case errorSetOwner h set => exact stepwise_callHandle step (by decide)
  case errorSetEntries h set => exact stepwise_errorSetEntries step h set
  case moduleName i => exact stepwise_moduleName step i
  case moduleRoot i => exact stepwise_callHandle step (by decide)
  case moduleRootNamed name => exact stepwise_moduleRootNamedFrom step name 0
  case fileRoot path => exact step.fileRoot (known _ (List.mem_singleton_self _))
  case runQuery text ignoreCase => exact step.runQuery (known _ (List.mem_singleton_self _))
  all_goals exact stepwise_callText step (by decide)

end Session

end DocIndex
