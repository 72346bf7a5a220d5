import Mathlib.Data.List.Basic
import DocIndex.Markup.Pattern

/-!
# Texts that are rewritten piece by piece

`Rewrites f s t` says that `f` writes `t` for `s`, whatever stands behind it, and goes on with the
rest. Rewritten texts can be put side by side (`Rewrites.append`), and one rewriting after the other
is a rewriting again (`Rewrites.comp`). A pattern rewrites what it reads off the front
(`rewrites_scan_found`) and keeps that in which no match starts (`keeps_of_forall`).
-/

namespace DocIndex

variable {α β γ : Type}

/-- Whether `f` writes `t` for `s` and goes on with whatever stands behind it. -/
def Rewrites (f : List α → List β) (s : List α) (t : List β) : Prop :=
  ∀ rest, f (s ++ rest) = t ++ f rest

namespace Rewrites

variable {f : List α → List β} {g : List β → List γ} {s s' : List α} {t t' : List β} {u : List γ}

theorem nil : Rewrites f [] [] :=
  fun _ => rfl

theorem append (h : Rewrites f s t) (h' : Rewrites f s' t') : Rewrites f (s ++ s') (t ++ t') := by
  intro rest
  rw [List.append_assoc, h, h', List.append_assoc]

theorem comp (h : Rewrites f s t) (h' : Rewrites g t u) : Rewrites (fun s => g (f s)) s u := by
  intro rest
  dsimp only
  rw [h, h']

theorem flatMap {ι : Type} {l : List ι} {a : ι → List α} {b : ι → List β}
    (h : ∀ i ∈ l, Rewrites f (a i) (b i)) : Rewrites f (l.flatMap a) (l.flatMap b) := by
  induction l with
  | nil => exact nil
  | cons i l ih =>
    rw [List.forall_mem_cons] at h
    rw [List.flatMap_cons, List.flatMap_cons]
    exact h.1.append (ih h.2)

theorem eq (h : Rewrites f s t) (empty : f [] = []) : f s = t := by
  simpa [empty] using h []

end Rewrites

namespace Pattern

variable {p : Pattern α} {write : α → List Char} {s t : List Char} {c : Char} {a : α}

/-! ## Scanning -/

@[simp]
theorem scan_nil : p.scan [] = [] := by
  rw [scan]

theorem scan_of_some {rest : List Char} (h : p.read? s = some (a, rest)) :
    p.scan s = .found a :: p.scan rest := by
  cases s with
  | nil => exact absurd (p.shorter h) (Nat.not_lt_zero _)
  | cons c r =>
    rw [scan]
    split
    · next b rest' h' =>
      cases h.symm.trans h'
      rfl
    · next none =>
      rw [none] at h
      cases h

theorem scan_of_none (h : p.read? (c :: s) = none) : p.scan (c :: s) = .plain c :: p.scan s := by
  rw [scan]
  split
  · next b rest some =>
    rw [h] at some
    cases some
  · rfl

@[simp]
theorem replace_nil : p.replace write [] = [] := by
  rw [replace, scan_nil, List.flatMap_nil]

theorem flatMap_text_map_plain (s : List Char) :
    (s.map Piece.plain).flatMap (Piece.text write) = s := by
  simp [List.flatMap_map, Piece.text, List.flatMap_singleton']

theorem filterMap_found?_map_plain (s : List Char) :
    (s.map Piece.plain).filterMap (Piece.found? (α := α)) = [] := by
  rw [List.filterMap_map, List.filterMap_eq_nil_iff]
  exact fun _ _ => rfl

/-- Whether no match starts in a text, whatever stands behind it. -/
def Keeps (p : Pattern α) (s : List Char) : Prop :=
  Rewrites p.scan s (s.map Piece.plain)

theorem keeps_nil : p.Keeps [] :=
  .nil

theorem Keeps.append (hs : p.Keeps s) (ht : p.Keeps t) : p.Keeps (s ++ t) := by
  rw [Keeps, List.map_append]
  exact Rewrites.append hs ht

theorem Keeps.cons (here : ∀ rest, p.read? (c :: (s ++ rest)) = none) (hs : p.Keeps s) :
    p.Keeps (c :: s) := by
  intro rest
  rw [List.cons_append, scan_of_none (here rest), hs rest]
  rfl

/-- A text in which no match starts is kept. -/
theorem keeps_of_forall (h : ∀ c ∈ s, ∀ rest, p.read? (c :: rest) = none) : p.Keeps s := by
  induction s with
  | nil => exact keeps_nil
  | cons c s ih =>
    rw [List.forall_mem_cons] at h
    exact (ih h.2).cons fun rest => h.1 _

theorem Keeps.replace (h : p.Keeps s) : Rewrites (p.replace write) s s := by
  intro rest
  rw [Pattern.replace, h rest, List.flatMap_append, flatMap_text_map_plain, Pattern.replace]

theorem rewrites_scan (h : ∀ rest, p.read? (s ++ rest) = some (a, rest)) :
    Rewrites p.scan s [.found a] :=
  fun rest => scan_of_some (h rest)

theorem rewrites_replace (h : ∀ rest, p.read? (s ++ rest) = some (a, rest)) :
    Rewrites (p.replace write) s (write a) := by
  intro rest
  rw [replace, rewrites_scan h rest, List.flatMap_append, List.flatMap_singleton]
  rfl

/-! ## Texts that no match reaches across -/

/-- If what stands behind a text does not change how matches are read in it, the two are scanned on
their own. -/
theorem scan_append {t : List Char}
    (h : ∀ c r, p.read? (c :: (r ++ t)) = (p.read? (c :: r)).map (Prod.map id (· ++ t)))
    (s : List Char) : p.scan (s ++ t) = p.scan s ++ p.scan t := by
  induction s using scan.induct p with
  | case1 => simp
  | case2 c r a rest read ih =>
    have here := h c r
    rw [read] at here
    rw [scan_of_some read, List.cons_append, scan_of_some here, ih]
    rfl
  | case3 c r none ih =>
    have here := h c r
    rw [none] at here
    rw [scan_of_none none, List.cons_append, scan_of_none here, ih]
    rfl

/-- A text holds no match if none starts anywhere in it. -/
theorem scan_eq_map_plain_iff :
    p.scan s = s.map Piece.plain ↔ ∀ c r, c :: r <:+ s → p.read? (c :: r) = none := by
  induction s with
  | nil => simp
  | cons x s ih =>
    constructor
    · intro plain c r suffix
      cases hx : p.read? (x :: s) with
      | some found =>
        obtain ⟨a, rest⟩ := found
        rw [scan_of_some hx] at plain
        cases plain
      | none =>
        rw [scan_of_none hx, List.map_cons, List.cons.injEq] at plain
        rcases List.suffix_cons_iff.1 suffix with same | inner
        · rwa [same]
        · exact ih.1 plain.2 c r inner
    · intro nowhere
      rw [scan_of_none (nowhere x s (List.suffix_refl _)), List.map_cons,
        ih.2 fun c r inner => nowhere c r (inner.trans (List.suffix_cons x s))]

end Pattern

end DocIndex
