import DocIndex.Proofs.Snapshot.Lookup
import DocIndex.Unwind

/-!
# Chains of aliases

The chain of aliases from a declaration goes on while it is at an alias that has a target. `Leads`
says what there is to tell of it: it ends at a declaration that is no alias or at an alias without
target, it leaves the table, or it comes back to itself. Each chain stops at one place, so just one
of these is the case (`leads_iff`). Paths follow the same chain with a limit on the number of
redirections, which no chain reaches that ends (`follow_eq_some_iff`).
-/

namespace DocIndex.Snapshot

/-- The target that an alias names. -/
def aliasee? (s : Snapshot) (i : UInt32) : Option UInt32 :=
  (s.decl? i).bind fun d => if d.category = .redirect then d.aliasee else none

/-- The target of an alias. The absent value is none. -/
def target? (s : Snapshot) (i : UInt32) : Option UInt32 :=
  (s.aliasee? i).filter fun t => t.toUInt64 ≠ absent

/-- Whether the declaration is one of the table and no alias. -/
def IsConcrete (s : Snapshot) (i : UInt32) : Prop :=
  ∃ d, s.decl? i = some d ∧ d.category ≠ .redirect

/-- Where the chain of aliases from the declaration `i` leads. -/
inductive Leads (s : Snapshot) (i : UInt32) : Except Fault Unwound → Prop where
  /-- The first declaration on the chain that is no alias. -/
  | concrete {n : Nat} {j : UInt32} {d : Decl} (reached : link s.target? n i = some j)
      (declared : s.decl? j = some d) (other : d.category ≠ .redirect) :
      Leads s i (.ok (.concrete ⟨j⟩ d.category))
  /-- The first alias on the chain that has no target. -/
  | dangling {n : Nat} {j : UInt32} (reached : link s.target? n i = some j)
      (redirects : s.IsAlias j) (ended : s.target? j = none) : Leads s i (.ok (.dangling ⟨j⟩))
  /-- The first declaration that stands on the chain a second time. -/
  | cycle {n : Nat} {j : UInt32} (reached : link s.target? n i = some j)
      (distinct : (chain s.target? n i).Nodup) (again : j ∈ chain s.target? n i) :
      Leads s i (.ok (.cycle ⟨j⟩))
  /-- A position on the chain that the table does not have. -/
  | unknown {n : Nat} {j : UInt32} (reached : link s.target? n i = some j)
      (outside : ¬ s.Declares j) : Leads s i (.error (.unknownDecl j.toUInt64))

variable {s : Snapshot} {i j t : UInt32} {d : Decl} {n : Nat} {r : Except Fault Unwound}

theorem aliasee?_eq (hd : s.decl? i = some d) :
    s.aliasee? i = if d.category = .redirect then d.aliasee else none := by
  rw [aliasee?, hd, Option.bind_some]

theorem target?_eq_some_iff :
    s.target? i = some t ↔ s.aliasee? i = some t ∧ t.toUInt64 ≠ absent := by
  rw [target?, Option.filter_eq_some_iff, decide_eq_true_eq]

theorem target?_eq_none (h : s.aliasee? i = none) : s.target? i = none := by
  rw [target?, h, Option.filter_none]

theorem isAlias_of_aliasee? (h : s.aliasee? i = some t) : s.IsAlias i := by
  obtain ⟨d, hd, h⟩ := Option.bind_eq_some_iff.1 h
  by_cases redirects : d.category = .redirect
  · exact ⟨d, hd, redirects⟩
  · rw [if_neg redirects] at h
    cases h

theorem IsAlias.declares (h : s.IsAlias i) : s.Declares i :=
  h.elim fun _ h => declares_of_decl? h.1

theorem IsConcrete.declares (h : s.IsConcrete i) : s.Declares i :=
  h.elim fun _ h => declares_of_decl? h.1

theorem IsConcrete.aliasee? (h : s.IsConcrete i) : s.aliasee? i = none := by
  obtain ⟨d, hd, other⟩ := h
  rw [aliasee?_eq hd, if_neg other]

theorem aliasee?_of_not_declares (h : ¬ s.Declares i) : s.aliasee? i = none := by
  rw [← isSome_decl?_iff, Option.not_isSome_iff_eq_none] at h
  rw [Snapshot.aliasee?, h, Option.bind_none]

/-! ## Where a chain stops -/

/-- What there is to tell of a chain whose last element is `j`. -/
def ending (s : Snapshot) (j : UInt32) : Except Fault Unwound :=
  match s.decl? j with
  | none => .error (.unknownDecl j.toUInt64)
  | some d => .ok (if d.category = .redirect then .dangling ⟨j⟩ else .concrete ⟨j⟩ d.category)

/-- What there is to tell of a chain that stops at `j`. -/
def outcome (s : Snapshot) (j : UInt32) : Except Fault Unwound :=
  if s.target? j = none then s.ending j else .ok (.cycle ⟨j⟩)

theorem Leads.exists_stops (h : s.Leads i r) :
    ∃ n j, Stops s.target? n i j ∧ r = s.outcome j := by
  cases h with
  | @concrete n j d reached declared other =>
    have ended : s.target? j = none := target?_eq_none (IsConcrete.aliasee? ⟨d, declared, other⟩)
    refine ⟨n, j, stops_of_link reached ended, ?_⟩
    rw [outcome, if_pos ended, ending, declared]
    simp only [if_neg other]
  | @dangling n j reached redirects ended =>
    obtain ⟨d, hd, redirects⟩ := redirects
    refine ⟨n, j, stops_of_link reached ended, ?_⟩
    rw [outcome, if_pos ended, ending, hd]
    simp only [if_pos redirects]
  | @cycle n j reached distinct again =>
    have goes : s.target? j ≠ none := fun ended => not_mem_chain_of_link reached ended again
    exact ⟨n, j, ⟨reached, distinct, .inr again⟩, by rw [outcome, if_neg goes]⟩
  | @unknown n j reached outside =>
    have ended : s.target? j = none := target?_eq_none (aliasee?_of_not_declares outside)
    rw [← isSome_decl?_iff, Option.not_isSome_iff_eq_none] at outside
    refine ⟨n, j, stops_of_link reached ended, ?_⟩
    rw [outcome, if_pos ended, ending, outside]

theorem leads_outcome (h : Stops s.target? n i j) : s.Leads i (s.outcome j) := by
  rw [outcome]
  split_ifs with ended
  · rw [ending]
    cases hd : s.decl? j with
    | none =>
      refine .unknown h.link ?_
      rw [← isSome_decl?_iff, hd]
      exact Bool.false_ne_true
    | some d =>
      by_cases redirects : d.category = .redirect
      · simp only [if_pos redirects]
        exact .dangling h.link ⟨d, hd, redirects⟩ ended
      · simp only [if_neg redirects]
        exact .concrete h.link hd redirects
  · exact .cycle h.link h.nodup (h.stops.resolve_left ended)

/-- What there is to tell of a chain is decided by where it stops. -/
theorem leads_iff (h : Stops s.target? n i j) : s.Leads i r ↔ r = s.outcome j := by
  constructor
  · intro leads
    obtain ⟨n', j', h', rfl⟩ := leads.exists_stops
    rw [(h.unique h').2]
  · rintro rfl
    exact leads_outcome h

theorem Leads.concrete_self {category : Category}
    (h : s.Leads i (.ok (.concrete ⟨t⟩ category))) : s.Leads t (.ok (.concrete ⟨t⟩ category)) := by
  cases h with
  | concrete _ declared other =>
    have reached : link s.target? 0 t = some t := rfl
    exact .concrete reached declared other

/-! ## Following -/

theorem followFor_of_isConcrete (h : s.IsConcrete i) (hops : Nat) :
    s.followFor (hops + 1) i = some i := by
  obtain ⟨d, hd, other⟩ := h
  rw [followFor, hd]
  exact if_neg other

theorem followFor_of_not_isConcrete (h : ¬ s.IsConcrete i) (hops : Nat) :
    s.followFor (hops + 1) i = (s.aliasee? i).bind (s.followFor hops) := by
  rw [followFor, aliasee?]
  cases hd : s.decl? i with
  | none => rfl
  | some d =>
    have redirects : d.category = .redirect := by
      by_contra other
      exact h ⟨d, hd, other⟩
    rw [Option.bind_some, if_pos redirects]
    exact if_pos redirects

theorem followFor_eq_some_iff {hops : Nat} : s.followFor hops i = some t ↔
    ∃ n < hops, link s.aliasee? n i = some t ∧ s.IsConcrete t := by
  induction hops generalizing i with
  | zero => simp [followFor]
  | succ hops ih =>
    by_cases concrete : s.IsConcrete i
    · rw [followFor_of_isConcrete concrete]
      constructor
      · intro h
        obtain rfl := Option.some.inj h
        exact ⟨0, Nat.succ_pos hops, rfl, concrete⟩
      · rintro ⟨_ | n, -, reached, -⟩
        · exact reached
        · rw [link, concrete.aliasee?] at reached
          cases reached
    · rw [followFor_of_not_isConcrete concrete, Option.bind_eq_some_iff]
      constructor
      · rintro ⟨c, hc, h⟩
        obtain ⟨n, lt, reached, ht⟩ := ih.1 h
        exact ⟨n + 1, Nat.succ_lt_succ lt, by rwa [link, hc], ht⟩
      · rintro ⟨_ | n, lt, reached, ht⟩
        · obtain rfl : i = t := Option.some.inj reached
          exact absurd ht concrete
        · obtain ⟨c, hc, reached⟩ := Option.bind_eq_some_iff.1 reached
          exact ⟨c, hc, ih.2 ⟨n, Nat.lt_of_succ_lt_succ lt, reached, ht⟩⟩

/-- All that stands on a chain in front of a declaration is declared. -/
theorem declares_of_link {k : Nat} (hk : link s.aliasee? k i = some j) (le : k ≤ n)
    (reached : link s.aliasee? n i = some t) (ht : s.Declares t) : s.Declares j := by
  rcases Nat.lt_or_eq_of_le le with lt | rfl
  · obtain ⟨c, hc⟩ := exists_link_of_le reached lt
    rw [link_succ, hk] at hc
    exact (isAlias_of_aliasee? hc).declares
  · rw [hk] at reached
    rwa [Option.some.inj reached]

/-- A chain that ends at a declaration which is no alias is within the limit on redirections. -/
theorem lt_of_link (reached : link s.aliasee? n i = some t) (ht : s.IsConcrete t) :
    n < s.decls.size + 1 := by
  have acyclic := acc_of_link reached ht.aliasee?
  have within : ∀ j ∈ chain s.aliasee? n i, s.Declares j := by
    intro j hj
    obtain ⟨k, lt, hk⟩ := mem_chain_iff.1 hj
    exact declares_of_link hk lt.le reached ht.declares
  have short := length_chain_le_size acyclic within
  rw [length_chain_of_link reached] at short
  exact Nat.lt_succ_of_le short

theorem follow_eq_some_iff : s.follow i = some t ↔
    ∃ n, link s.aliasee? n i = some t ∧ s.IsConcrete t := by
  rw [follow, followFor_eq_some_iff]
  constructor
  · rintro ⟨n, -, h⟩
    exact ⟨n, h⟩
  · rintro ⟨n, reached, ht⟩
    exact ⟨n, lt_of_link reached ht, reached, ht⟩

-- A chain through the whole table takes as many redirections as the limit allows.
example : ({ decls := #[
    { name := "a", category := .redirect, aliasee := some 1 },
    { name := "b", category := .redirect, aliasee := some 2 },
    { name := "c", category := .container }] } : Snapshot).follow 0 = some 2 := by decide

/-! ## Paths through aliases -/

theorem follow_follow (h : s.follow i = some t) : s.follow t = some t := by
  obtain ⟨n, -, concrete⟩ := follow_eq_some_iff.1 h
  exact follow_eq_some_iff.2 ⟨0, rfl, concrete⟩

/-- A path steps from a declaration as it does from what the declaration stands for. -/
theorem member?_eq_bind_follow (s : Snapshot) (i : UInt32) (name : String) :
    s.member? i name = (s.follow i).bind fun t => s.member? t name := by
  rw [member?]
  cases h : s.follow i with
  | none => rfl
  | some t =>
    rw [Option.bind_some, member?, follow_follow h]

theorem lookup_below (s : Snapshot) (path rest : String) :
    s.lookup (path ++ "." ++ rest) = ((s.lookup path).bind s.follow).bind fun t =>
      (Dotted.segments rest).foldlM s.member? t := by
  obtain ⟨first, names, hrest⟩ := List.exists_cons_of_ne_nil (Dotted.segments_ne_nil rest)
  rw [lookup_append, Option.bind_assoc]
  congr 1
  funext i
  rw [hrest, List.foldlM_cons, member?_eq_bind_follow]
  cases s.follow i with
  | none => rfl
  | some t =>
    rw [Option.bind_some, Option.bind_some, List.foldlM_cons]

/-! ## Both kinds of following -/

theorem link_target? (size : s.decls.size < 2 ^ 32) (reached : link s.aliasee? n i = some t)
    (ht : s.Declares t) : link s.target? n i = some t := by
  induction n generalizing i with
  | zero => exact reached
  | succ n ih =>
    obtain ⟨c, hc, reached⟩ := Option.bind_eq_some_iff.1 reached
    have hdecl : s.Declares c := declares_of_link rfl (Nat.zero_le n) reached ht
    rw [link, target?_eq_some_iff.2 ⟨hc, toUInt64_ne_absent size hdecl⟩]
    exact ih reached

theorem follow_of_leads {category : Category} (h : s.Leads i (.ok (.concrete ⟨t⟩ category))) :
    s.follow i = some t := by
  cases h with
  | @concrete n j d reached declared other =>
    have reached' := link_mono (fun _ _ h => (target?_eq_some_iff.1 h).1) reached
    exact follow_eq_some_iff.2 ⟨n, reached', d, declared, other⟩

theorem exists_leads_of_follow (size : s.decls.size < 2 ^ 32) (h : s.follow i = some t) :
    ∃ category, s.Leads i (.ok (.concrete ⟨t⟩ category)) := by
  obtain ⟨n, reached, d, declared, other⟩ := follow_eq_some_iff.1 h
  have reached' := link_target? size reached (declares_of_decl? declared)
  exact ⟨d.category, .concrete reached' declared other⟩

end DocIndex.Snapshot
