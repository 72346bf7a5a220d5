import DocIndex.Proofs.Document.Groups
import DocIndex.Proofs.Session.Protocol

/-!
# Nothing shown is an alias

With every engine, even one that answers otherwise each time, following aliases ends: the
declarations whose categories are asked for are distinct and were not visited before, so there are
at most as many as handles are left (`length_le_unvisited`), and each of them takes at most two
calls (`frugal_unwindFrom`). What it ends at is no alias (`ensures_unwind`). So it does not matter
what would be done for one in a document (`renderOr_eq`), and no member and no hit stands for one
(`ensures_perform`).
-/

namespace DocIndex

namespace Index

open Recorded

variable {σ α β : Type}

/-! ## Handles that are left -/

/-- Distinct handles that were not visited are no more than there are left. -/
theorem length_le_unvisited {visited new : List Handle} (distinct : new.Nodup)
    (fresh : ∀ h ∈ new, h ∉ visited) : new.length ≤ unvisited visited := by
  have numbers : (new.map fun h => h.index.toNat).Nodup :=
    distinct.map fun a b same => congrArg Handle.mk (UInt32.toNat_inj.1 same)
  have left : new.map (fun h => h.index.toNat) ⊆
      (List.range UInt32.size).filter fun n => !visited.contains ⟨UInt32.ofNat n⟩ := by
    intro n hn
    obtain ⟨h, hh, rfl⟩ := List.mem_map.1 hn
    rw [List.mem_filter, List.mem_range, UInt32.ofNat_toNat]
    exact ⟨h.index.toNat_lt, by simpa using fresh h hh⟩
  rw [unvisited, List.countP_eq_length_filter, ← List.length_map fun h : Handle => h.index.toNat]
  exact (List.subperm_of_subset numbers left).length_le

theorem unvisited_nil : unvisited [] = 2 ^ 32 := by
  have all : ∀ n ∈ List.range UInt32.size, (!([] : List Handle).contains ⟨UInt32.ofNat n⟩) :=
    fun _ _ => rfl
  rw [unvisited, List.countP_eq_length.2 all, List.length_range]
  rfl

/-- What is done with values of a kind that never comes up does not matter. -/
theorem Ensures.bind_congr {x : Index σ α} {P : α → Prop} {f g : α → Index σ β} (hx : Ensures x P)
    (same : ∀ a, P a → f a = g a) : x >>= f = x >>= g := by
  funext m
  rw [run_bind, run_bind]
  rcases run : x m with ⟨e | a, m'⟩
  · rfl
  · dsimp only
    rw [same a (hx m a (by rw [run]))]

/-! ## Calls of unwinding -/

/-- Whether a computation makes at most two calls for each category that it asks for. -/
def Frugal (x : Index (Recorded σ) α) : Prop :=
  ∀ m, (log (x m).2).length + 2 * (asked .categorize m).length ≤
    (log m).length + 2 * (asked .categorize (x m).2).length

theorem frugal_pure (a : α) : Frugal (pure a : Index (Recorded σ) α) :=
  fun _ => Nat.le_refl _

theorem Frugal.bind {x : Index (Recorded σ) α} {f : α → Index (Recorded σ) β} (hx : Frugal x)
    (hf : ∀ a, Frugal (f a)) : Frugal (x >>= f) := by
  intro m
  have first := hx m
  rw [run_bind]
  rcases run : x m with ⟨e | a, m'⟩ <;> rw [run] at first
  · exact first
  · have second := hf a m'
    dsimp only at first ⊢
    omega

variable [Engine σ] {c : Config}

theorem frugal_classify (h : Handle) :
    Frugal (classify h : Index (Recorded σ) (Category × Option Handle)) := by
  intro m
  have once := congrArg List.length (asked_classify h m)
  obtain ⟨calls, added, way⟩ := asks_classify h m (classify h m).1 (classify h m).2 rfl
  have few : calls.length ≤ 2 := by
    rw [← List.length_map (fun a : Call => (a.symbol, a.args))]
    rcases List.mem_pair.1 way with short | long
    · rw [short]
      exact Nat.le_succ 1
    · rw [long]
      exact Nat.le_refl 2
  rw [added, once, List.length_append, List.length_append, List.length_singleton]
  omega

theorem frugal_unwindFrom (visited : List Handle) (current : Handle) :
    Frugal (unwindFrom visited current : Index (Recorded σ) Unwound) := by
  rw [unwindFrom]
  split
  · exact frugal_pure _
  · refine (frugal_classify current).bind fun p => ?_
    split
    · exact frugal_unwindFrom (current :: visited) _
    · exact frugal_pure _
    · exact frugal_pure _
termination_by unvisited visited
decreasing_by exact unvisited_cons_lt ‹_›

/-! ## What would be done for an alias -/

theorem ensures_unwind (h : Handle) : Ensures (unwind h : Index σ Unwound) fun way =>
    ∀ t category, way.concrete? = some (t, category) → category ≠ .redirect :=
  ensures_unwindFrom [] h

/-- The document for a resolved name, with `arm` done where aliases would lead to an alias. -/
def renderOr (arm : Handle → Index σ (Option Document)) (style : Style) (c : Config)
    (r : Resolved) : Index σ (Option Document) := do
  if r.isRoot then return some (← renderRoot style c r)
  else
    match (← unwind r.handle).concrete? with
    | none => return none
    | some (target, .redirect) => arm target
    | some (target, category) => return some (← renderDecl style c r.title target category)

theorem renderOr_eq (arm : Handle → Index σ (Option Document)) (style : Style) (c : Config)
    (r : Resolved) : renderOr arm style c r = render style c r := by
  unfold renderOr render
  split_ifs
  · rfl
  · refine (ensures_unwind r.handle).bind_congr fun way other => ?_
    rcases found : way.concrete? with _ | ⟨target, category⟩
    · rfl
    · have concrete := other target category found
      cases category with
      | redirect => exact absurd rfl concrete
      | _ => rfl

/-! ## Hits -/

theorem ensures_describeHit (h : Handle) :
    Ensures (describeHit c h : Index σ (Option SearchHit)) fun o =>
      ∀ hit ∈ o, hit.category ≠ .redirect := by
  refine (ensures_unwind h).bind fun way other => ?_
  rcases found : way.concrete? with _ | ⟨target, category⟩
  · exact ensures_pure (by simp)
  · refine ensures_bind _ fun name => ensures_bind _ fun fqn => ensures_bind _ fun html => ?_
    refine ensures_pure fun hit hhit => ?_
    cases hhit
    exact other target category found

theorem ensures_describeHits (limit : Nat) (l : List Handle) :
    Ensures (describeHits c limit l : Index σ (List SearchHit)) fun hits =>
      ∀ hit ∈ hits, hit.category ≠ .redirect := by
  induction l generalizing limit with
  | nil => cases limit <;> exact ensures_pure (by simp)
  | cons h rest ih =>
    cases limit with
    | zero => exact ensures_pure (by simp)
    | succ limit =>
      refine (ensures_describeHit h).bind fun found shown => ?_
      cases found with
      | none => exact ih (limit + 1)
      | some hit =>
        refine (ih limit).bind fun others later => ensures_pure ?_
        exact List.forall_mem_cons.2 ⟨shown hit rfl, later⟩

theorem ensures_search (query : String) :
    Ensures (search c query : Index σ (List SearchHit)) fun hits =>
      ∀ hit ∈ hits, hit.category ≠ .redirect := by
  unfold search
  dsimp only
  split_ifs
  · exact ensures_pure (by simp)
  · exact ensures_bind _ fun l => ensures_describeHits _ l

end Index

namespace Session

open Index Recorded

/-- The categories that an answer shows: those of the members and of the hits that it lists. -/
def Request.shown {α : Type} : Request α → α → List Category
  | members _ _, l | listChildren _ _, l | listRoot _, l => l.map (·.category)
  | search _, l => l.map (·.category)
  | _, _ => []

/-- Every member and every hit of an answer has a category that is not that of an alias. -/
theorem ensures_perform {σ α : Type} [Engine σ] (c : Config) (r : Request α) :
    Ensures (r.perform c : Index σ α) fun a => .redirect ∉ r.shown a := by
  have unlisted {l : List Member} (listed : ∀ m ∈ l, m.Listed) :
      .redirect ∉ l.map (·.category) := by
    rw [List.mem_map]
    rintro ⟨m, hm, redirects⟩
    exact (listed m hm).category redirects
  cases r
  case members name filter => exact fun m l run => unlisted (ensures_members c name filter m l run)
  case listChildren scope filter =>
    exact fun m l run => unlisted (ensures_listChildren scope filter m l run)
  case listRoot filter => exact fun m l run => unlisted (ensures_listRoot filter m l run)
  case search query =>
    intro m l run found
    obtain ⟨hit, hhit, redirects⟩ := List.mem_map.1 found
    exact ensures_search query m l run hit hhit redirects
  all_goals exact fun _ _ _ => List.not_mem_nil

/-- With every engine, whatever it answers and however its answers change, following aliases asks
for the categories of distinct declarations that were not visited before, of which there are no more
than handles are left, and never ends at an alias. What a document would hold for one is never
written, and no member and no hit stands for one. -/
theorem unwind_safe (σ : Type) [Engine σ] :
    (∀ (visited : List Handle) (h : Handle) (m : Machine σ), ∃ new : List Handle,
      new.Nodup ∧ (∀ h ∈ new, h ∉ visited) ∧ new.length ≤ unvisited visited ∧
      asked .categorize (unwindFrom visited h (start m)).2 = new.map (fun h => [h.word]) ∧
      (log (unwindFrom visited h (start m)).2).length ≤ 2 * new.length ∧
      (unwindFrom visited h (start m)).1 = (unwindFrom visited h m).1) ∧
    unvisited [] = 2 ^ 32 ∧
    (∀ (h t : Handle) (m : Machine σ), (unwind h m).1 ≠ .ok (.concrete t .redirect)) ∧
    (∀ (arm : Handle → Index σ (Option Document)) (style : Style) (c : Config) (r : Resolved),
      renderOr arm style c r = render style c r) ∧
    ∀ (α : Type) (c : Config) (r : Request α) (m : Machine σ) (a : α),
      (r.perform c m).1 = .ok a → .redirect ∉ r.shown a := by
  refine ⟨fun visited h m => ?_, unvisited_nil, fun h t m run => ?_, renderOr_eq,
    fun α c r => ensures_perform c r⟩
  · obtain ⟨new, distinct, fresh, categories⟩ := exists_asked_unwindFrom visited h (start m)
    have calls := frugal_unwindFrom visited h (start m)
    rw [asked_start, List.nil_append] at categories
    have unlogged : (log (start m)).length = 0 := rfl
    rw [categories, List.length_map, asked_start, List.length_nil, unlogged, Nat.mul_zero,
      Nat.add_zero, Nat.zero_add] at calls
    exact ⟨new, distinct, fresh, length_le_unvisited distinct fresh, categories, calls,
      (mirrors_unwindFrom visited h rfl).1⟩
  · exact ensures_unwind h m _ run t .redirect rfl rfl

end Session

end DocIndex
