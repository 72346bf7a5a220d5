import DocIndex.Proofs.Index.Steady
import DocIndex.Proofs.Session.Stepwise

/-!
# Aliases are transparent

Paths follow aliases with a limit on the number of redirections, listings and documents unwind them
through the engine. Both get to the same declaration (`follow_iff_unwind`), so an alias and what it
leads to have the same paths below them, the same members and the same document
(`unwind_transparent`).
-/

namespace DocIndex.Index

open Snapshot Table

variable {α : Type} {m : Machine Table} {s : Snapshot} {c : Config} {h : Handle} {i t : UInt32}
  {category : Category} {r : Resolved}

/-! ## Behind unwinding -/

/-- What is done behind unwinding is done as on the machine in front of it. -/
theorem bind_unwind {k : Unwound → Index Table α}
    (steady : ∀ way, Steady m.state.snapshot (k way)) :
    ((unwind h >>= k) m).1 = (unwind h m).1.bind fun way => (k way m).1 := by
  obtain ⟨r, target, -, run⟩ := unwind_run m h.index
  have alike : Alike m.state.snapshot m (retarget target m) := ⟨rfl, rfl, .inl ⟨rfl, rfl⟩⟩
  rw [run_bind, show unwind h m = _ from run]
  cases r with
  | error f => rfl
  | ok way => exact (steady way alike).1.symm

theorem listChildren_run (parent : Handle) (filter : CategorySet) :
    (listChildren c parent filter m).1 =
      (unwind parent m).1.bind fun way => (listFound c filter way.concrete? m).1 := by
  rw [listChildren_eq]
  exact bind_unwind fun way => stepwise_listFound (stepwise_steady _) filter way.concrete?

theorem render_run (style : Style) (below : r.isRoot = false) : (render style c r m).1 =
    (unwind r.handle m).1.bind fun way => (renderFound style c r.title way.concrete? m).1 := by
  rw [render_eq style c below]
  exact bind_unwind fun way => stepwise_renderFound (stepwise_steady _) r.title way.concrete?

/-! ## Both ways to follow aliases -/

theorem follow_of_unwind (run : (unwind ⟨i⟩ m).1 = .ok (.concrete ⟨t⟩ category)) :
    m.state.snapshot.follow i = some t :=
  follow_of_leads (unwind_eq_iff.1 run)

theorem follow_eq_some_iff_unwind (size : m.state.snapshot.decls.size < 2 ^ 32) :
    m.state.snapshot.follow i = some t ↔
      ∃ category, (unwind ⟨i⟩ m).1 = .ok (.concrete ⟨t⟩ category) := by
  constructor
  · intro followed
    obtain ⟨category, leads⟩ := exists_leads_of_follow size followed
    exact ⟨category, unwind_eq_iff.2 leads⟩
  · rintro ⟨category, run⟩
    exact follow_of_unwind run

theorem follow_eq_none_iff_unwind (size : m.state.snapshot.decls.size < 2 ^ 32) :
    m.state.snapshot.follow i = none ↔
      (∃ h, (unwind ⟨i⟩ m).1 = .ok (.dangling h)) ∨ (∃ h, (unwind ⟨i⟩ m).1 = .ok (.cycle h)) ∨
        ∃ f, (unwind ⟨i⟩ m).1 = .error f := by
  cases followed : m.state.snapshot.follow i with
  | some t =>
    obtain ⟨category, run⟩ := (follow_eq_some_iff_unwind size).1 followed
    simp [run]
  | none =>
    simp only [true_iff]
    rcases run : (unwind ⟨i⟩ m).1 with f | ⟨t, category⟩ | h | h
    · exact .inr (.inr ⟨f, rfl⟩)
    · rw [follow_of_unwind run] at followed
      cases followed
    · exact .inl ⟨h, rfl⟩
    · exact .inr (.inl ⟨h, rfl⟩)

theorem followFor_le_follow {hops : Nat} (followed : s.followFor hops i = some t) :
    s.follow i = some t := by
  obtain ⟨n, -, reached⟩ := followFor_eq_some_iff.1 followed
  exact follow_eq_some_iff.2 ⟨n, reached⟩

theorem render_of_follow (size : m.state.snapshot.decls.size < 2 ^ 32)
    (followed : m.state.snapshot.follow i = some t) (style : Style) (hr : r.handle = ⟨i⟩)
    (below : r.isRoot = false) : ∃ category, (render style c r m).1 =
      ((some <$> renderDecl style c r.title ⟨t⟩ category : Index Table _) m).1 := by
  obtain ⟨category, run⟩ := (follow_eq_some_iff_unwind size).1 followed
  refine ⟨category, ?_⟩
  rw [render_run style below, hr, run]
  rfl

theorem render_ne_of_follow (size : m.state.snapshot.decls.size < 2 ^ 32)
    (lost : m.state.snapshot.follow i = none) (style : Style) (hr : r.handle = ⟨i⟩)
    (below : r.isRoot = false) (document : Document) :
    (render style c r m).1 ≠ .ok (some document) := by
  rw [render_run style below, hr]
  obtain ⟨h, run⟩ | ⟨h, run⟩ | ⟨f, run⟩ := (follow_eq_none_iff_unwind size).1 lost <;> rw [run] <;>
    intro equal <;> cases equal

/-- Paths and unwinding follow aliases to the same declaration: what a path goes on from is what
unwinding finds, and a path goes no further exactly where unwinding ends at no declaration. No
greater limit on the redirections leads a path any further, and what has no way on for a path has
no document. -/
theorem follow_iff_unwind (m : Machine Table) (size : m.state.snapshot.decls.size < 2 ^ 32)
    (i : UInt32) :
    (∀ t, m.state.snapshot.follow i = some t ↔
      ∃ category, (unwind ⟨i⟩ m).1 = .ok (.concrete ⟨t⟩ category)) ∧
    (m.state.snapshot.follow i = none ↔
      (∃ h, (unwind ⟨i⟩ m).1 = .ok (.dangling h)) ∨ (∃ h, (unwind ⟨i⟩ m).1 = .ok (.cycle h)) ∨
        ∃ f, (unwind ⟨i⟩ m).1 = .error f) ∧
    (∀ hops t, m.state.snapshot.followFor hops i = some t → m.state.snapshot.follow i = some t) ∧
    (∀ path rest, m.state.snapshot.lookup path = some i →
      m.state.snapshot.lookup (path ++ "." ++ rest) = (m.state.snapshot.follow i).bind fun t =>
        (Dotted.segments rest).foldlM m.state.snapshot.member? t) ∧
    ∀ style c r, r.handle = ⟨i⟩ → r.isRoot = false →
      (∀ t, m.state.snapshot.follow i = some t → ∃ category, (render style c r m).1 =
        ((some <$> renderDecl style c r.title ⟨t⟩ category : Index Table _) m).1) ∧
      (m.state.snapshot.follow i = none →
        ∀ document, (render style c r m).1 ≠ .ok (some document)) := by
  refine ⟨fun t => follow_eq_some_iff_unwind size, follow_eq_none_iff_unwind size,
    fun _ _ => followFor_le_follow, fun path rest found => ?_, fun style c r hr below => ?_⟩
  · rw [lookup_below, found, Option.bind_some]
  · exact ⟨fun t followed => render_of_follow size followed style hr below,
      fun lost => render_ne_of_follow size lost style hr below⟩

theorem follow_iff_unwind_sample : sample.decls.size < 2 ^ 32 ∧ sample.follow 7 = some 1 ∧
    ∃ category, (unwind ⟨7⟩ (start sample)).1 = .ok (.concrete ⟨1⟩ category) := by
  have size : sample.decls.size < 2 ^ 32 := by decide
  have followed : sample.follow 7 = some 1 := by decide +kernel
  exact ⟨size, followed, ((follow_iff_unwind (start sample) size 7).1 1).1 followed⟩

/-! ## The same paths, members and documents -/

theorem unwind_concrete {t : Handle} (run : (unwind h m).1 = .ok (.concrete t category)) :
    (unwind t m).1 = .ok (.concrete t category) :=
  unwind_eq_iff.2 (unwind_eq_iff.1 run).concrete_self

theorem lookup_of_findDeclaration {path rest : String}
    (counted : Utf8.Counted (path ++ "." ++ rest))
    (found : (findDeclaration path m).1 = .ok (some ⟨i⟩)) :
    m.state.snapshot.lookup path = some i := by
  have counted : Utf8.Counted path := by
    rw [String.append_assoc] at counted
    exact counted.of_append
  rw [findDeclaration_run counted] at found
  obtain ⟨j, hj, same⟩ := Option.map_eq_some_iff.1 (Except.ok.inj found)
  cases same
  exact (Option.filter_eq_some_iff.1 hj).1

/-- Below a path to an alias stands what stands below the paths to what it leads to. -/
theorem findDeclaration_below {p q rest : String} (followed : m.state.snapshot.follow i = some t)
    (hp : Utf8.Counted (p ++ "." ++ rest)) (hq : Utf8.Counted (q ++ "." ++ rest))
    (foundp : (findDeclaration p m).1 = .ok (some ⟨i⟩))
    (foundq : (findDeclaration q m).1 = .ok (some ⟨t⟩)) :
    (findDeclaration (p ++ "." ++ rest) m).1 = (findDeclaration (q ++ "." ++ rest) m).1 := by
  have below : m.state.snapshot.lookup (p ++ "." ++ rest) =
      m.state.snapshot.lookup (q ++ "." ++ rest) := by
    rw [lookup_below, lookup_below, lookup_of_findDeclaration hp foundp,
      lookup_of_findDeclaration hq foundq, Option.bind_some, Option.bind_some, followed,
      follow_follow followed]
  rw [findDeclaration_run hp, findDeclaration_run hq, below]

theorem findDeclaration_below_none {p rest : String} (lost : m.state.snapshot.follow i = none)
    (hp : Utf8.Counted (p ++ "." ++ rest)) (foundp : (findDeclaration p m).1 = .ok (some ⟨i⟩)) :
    (findDeclaration (p ++ "." ++ rest) m).1 = .ok none := by
  have below : m.state.snapshot.lookup (p ++ "." ++ rest) = none := by
    rw [lookup_below, lookup_of_findDeclaration hp foundp, Option.bind_some, lost, Option.bind_none]
  rw [findDeclaration_run hp, below]
  rfl

/-- An alias has the same paths below it, the same members and the same document as what it leads
to. Below one that leads nowhere there is nothing, and it has no document. -/
theorem unwind_transparent (m : Machine Table) (c : Config) (h : Handle) :
    (∀ t category, (unwind h m).1 = .ok (.concrete t category) →
      (∀ p q rest, Utf8.Counted (p ++ "." ++ rest) → Utf8.Counted (q ++ "." ++ rest) →
        (findDeclaration p m).1 = .ok (some h) → (findDeclaration q m).1 = .ok (some t) →
        (findDeclaration (p ++ "." ++ rest) m).1 = (findDeclaration (q ++ "." ++ rest) m).1) ∧
      (∀ filter, (listChildren c h filter m).1 = (listChildren c t filter m).1) ∧
      ∀ style r r', r.handle = h → r'.handle = t → r.title = r'.title →
        r.isRoot = false → r'.isRoot = false →
        (render style c r m).1 = (render style c r' m).1) ∧
    ∀ h', (unwind h m).1 = .ok (.dangling h') ∨ (unwind h m).1 = .ok (.cycle h') →
      (m.state.snapshot.decls.size < 2 ^ 32 → ∀ p rest, Utf8.Counted (p ++ "." ++ rest) →
        (findDeclaration p m).1 = .ok (some h) →
        (findDeclaration (p ++ "." ++ rest) m).1 = .ok none) ∧
      (∀ filter, (listChildren c h filter m).1 = .ok []) ∧
      ∀ style r, r.handle = h → r.isRoot = false → (render style c r m).1 = .ok none := by
  constructor
  · intro t category run
    have same := unwind_concrete run
    refine ⟨fun p q rest => findDeclaration_below (follow_of_unwind run), fun filter => ?_,
      fun style r r' hr hr' title below below' => ?_⟩
    · rw [listChildren_run, listChildren_run, run, same]
    · rw [render_run style below, render_run style below', hr, hr', run, same, title]
  · intro h' run
    refine ⟨fun size p rest => findDeclaration_below_none ?_, fun filter => ?_,
      fun style r hr below => ?_⟩
    · apply (follow_eq_none_iff_unwind size).2
      exact run.elim (fun run => .inl ⟨h', run⟩) fun run => .inr (.inl ⟨h', run⟩)
    · rw [listChildren_run]
      rcases run with run | run <;> rw [run] <;> rfl
    · rw [render_run style below, hr]
      rcases run with run | run <;> rw [run] <;> rfl

/-- An alias of itself below the root. -/
def looping : Snapshot where
  modules := [⟨"root", 0⟩]
  decls := #[
    { name := "root", category := .nameSpace, members := [1] },
    { name := "loop", parent := some 0, category := .redirect, aliasee := some 1 }]

theorem unwind_transparent_sample :
    (unwind ⟨7⟩ (start sample)).1 = .ok (.concrete ⟨1⟩ .nameSpace) ∧
      (findDeclaration ("builtin.mem" ++ "." ++ "eql") (start sample)).1 =
        (findDeclaration ("root.mem" ++ "." ++ "eql") (start sample)).1 ∧
      (listChildren {} ⟨7⟩ .full (start sample)).1 = (listChildren {} ⟨1⟩ .full (start sample)).1 ∧
      (unwind ⟨1⟩ (start looping)).1 = .ok (.cycle ⟨1⟩) ∧
      (findDeclaration ("root.loop" ++ "." ++ "x") (start looping)).1 = .ok none := by
  have run : (unwind ⟨7⟩ (start sample)).1 = .ok (.concrete ⟨1⟩ .nameSpace) := by
    have reached : link sample.target? 1 7 = some 1 := by decide +kernel
    exact unwind_eq_iff.2 (.concrete reached rfl (by decide))
  have back : (unwind ⟨1⟩ (start looping)).1 = .ok (.cycle ⟨1⟩) := by
    have reached : link looping.target? 1 1 = some 1 := by decide +kernel
    exact unwind_eq_iff.2 (.cycle reached (by decide +kernel) (by decide +kernel))
  have known {s : Snapshot} {path : String} {i : UInt32} (counted : Utf8.Counted path)
      (found : s.lookup path = some i) (present : i.toUInt64 ≠ absent) :
      (findDeclaration path (start s)).1 = .ok (some ⟨i⟩) := by
    have found : (start s).state.snapshot.lookup path = some i := found
    rw [findDeclaration_run counted, found]
    simp [Option.filter, present]
  obtain ⟨paths, members, -⟩ := (unwind_transparent (start sample) {} ⟨7⟩).1 _ _ run
  obtain ⟨lost, -, -⟩ := (unwind_transparent (start looping) {} ⟨1⟩).2 _ (.inr back)
  refine ⟨run, ?_, members .full, back, ?_⟩
  · apply paths _ _ _ (by decide) (by decide)
    · exact known (by decide) (by decide +kernel) (by decide)
    · exact known (by decide) (by decide +kernel) (by decide)
  · apply lost (by decide) _ _ (by decide)
    exact known (by decide) (by decide +kernel) (by decide)

end DocIndex.Index
