import DocIndex.Proofs.Text.Blank
import DocIndex.Text.Dotted

/-!
# Dotted paths of plain names

Cutting a path and joining its segments are inverse (`join_segments`, `segments_join`), and what
stands behind a front and a dot is pinned by `below?_eq_some_iff`. A `Plain` name is one that a
declaration of a tidy table may have; a `Clean` path has plain segments only, so nothing can be
trimmed from its ends (`Clean.ne_at_start`, `Clean.ne_at_end`) and no file has it as its path
(`Clean.slash_not_mem`).
-/

namespace DocIndex

namespace Text

theorem stripWhile_eq_self {α : Type} {p : α → Bool} {s : List α}
    (start : ∀ c r, s = c :: r → p c = false) (stop : ∀ c r, s = r ++ [c] → p c = false) :
    stripWhile p s = s := by
  have front : s.dropWhile p = s := by
    cases s with
    | nil => rfl
    | cons c r => rw [List.dropWhile_cons_of_neg (by simp [start c r rfl])]
  rw [stripWhile, front]
  apply dropEndWhile_eq_self
  intro c hc
  obtain ⟨r, hs⟩ := List.getLast?_eq_some_iff.1 hc
  exact stop c r hs

end Text

namespace Dotted

/-! ## Segments -/

theorem toList_dotted (a b : String) : (a ++ "." ++ b).toList = a.toList ++ '.' :: b.toList := by
  simp

theorem segments_ne_nil (p : String) : segments p ≠ [] := by
  simp [segments, List.splitOn_ne_nil]

theorem join_segments (p : String) : join (segments p) = p := by
  rw [← String.toList_inj, join, String.toList_intercalate, segments, List.map_map]
  simp [Function.comp_def]

theorem segments_append (a b : String) :
    segments (a ++ "." ++ b) = segments a ++ segments b := by
  rw [segments, toList_dotted, List.splitOn_append_cons_self, List.map_append]
  rfl

theorem segments_eq_singleton {a : String} (h : '.' ∉ a.toList) : segments a = [a] := by
  rw [segments, List.splitOn_eq_singleton h]
  simp

theorem segments_join {l : List String} (undotted : ∀ x ∈ l, '.' ∉ x.toList) (ne : l ≠ []) :
    segments (join l) = l := by
  have pieces : ∀ x ∈ l.map String.toList, '.' ∉ x := by
    simpa using undotted
  rw [segments, join, String.toList_intercalate]
  change (List.splitOn '.' (['.'].intercalate (l.map String.toList))).map String.ofList = l
  rw [List.splitOn_intercalate '.' pieces (by simpa using ne), List.map_map]
  simp [Function.comp_def]

theorem join_append {l m : List String} (hl : l ≠ []) (hm : m ≠ []) :
    join (l ++ m) = join l ++ "." ++ join m :=
  String.intercalate_append_of_ne_nil hl hm

theorem join_singleton (a : String) : join [a] = a :=
  String.intercalate_singleton

theorem join_cons (a : String) {l : List String} (hl : l ≠ []) : join (a :: l) = a ++ "." ++ join l :=
  String.intercalate_cons_of_ne_nil hl

theorem mem_join {c : Char} {l : List String} (h : c ∈ (join l).toList) :
    c = '.' ∨ ∃ x ∈ l, c ∈ x.toList := by
  induction l with
  | nil => simp [join] at h
  | cons a l ih =>
    by_cases hl : l = []
    · subst hl
      rw [join_singleton] at h
      exact .inr ⟨a, List.mem_singleton_self a, h⟩
    · rw [join_cons a hl, toList_dotted, List.mem_append, List.mem_cons] at h
      rcases h with h | rfl | h
      · exact .inr ⟨a, List.mem_cons_self, h⟩
      · exact .inl rfl
      · exact (ih h).imp id fun ⟨x, hx, hc⟩ => ⟨x, List.mem_cons_of_mem a hx, hc⟩

theorem isSingle_iff {a : String} : isSingle a = true ↔ '.' ∉ a.toList := by
  simp [isSingle]

theorem below?_eq_some_iff {front name rest : String} :
    below? front name = some rest ↔ name = front ++ "." ++ rest := by
  rw [below?, Option.map_eq_some_iff]
  constructor
  · rintro ⟨r, hr, rfl⟩
    rw [← String.toList_inj, Text.stripFront_eq_some_iff.1 hr]
    simp
  · rintro rfl
    exact ⟨rest.toList, Text.stripFront_eq_some_iff.2 (by simp), String.ofList_toList⟩

theorem below?_append (front rest : String) : below? front (front ++ "." ++ rest) = some rest :=
  below?_eq_some_iff.2 rfl

/-! ## Plain names -/

/-- A name that is a whole segment and no part of a file path: it has characters, and none of them
is a dot, a slash or white space. -/
def Plain (name : String) : Prop :=
  name ≠ "" ∧ ∀ c ∈ name.toList, c ≠ '.' ∧ c ≠ '/' ∧ Text.isBlank c = false

instance (name : String) : Decidable (Plain name) :=
  @instDecidableAnd _ _ _ (List.decidableBAll _ name.toList)

theorem Plain.dot_not_mem {name : String} (h : Plain name) : '.' ∉ name.toList :=
  fun m => (h.2 _ m).1 rfl

theorem Plain.segments_eq {name : String} (h : Plain name) : segments name = [name] :=
  segments_eq_singleton h.dot_not_mem

theorem Plain.ne_append {name front rest : String} (h : Plain name) : name ≠ front ++ "." ++ rest := by
  rintro rfl
  exact h.dot_not_mem (by simp)

/-- Of two paths below plain fronts, equal ones have equal fronts. -/
theorem Plain.eq_of_append_eq {a b p q : String} (ha : Plain a) (hb : Plain b)
    (h : a ++ "." ++ p = b ++ "." ++ q) : a = b := by
  have := congrArg segments h
  rw [segments_append, segments_append, ha.segments_eq, hb.segments_eq] at this
  exact (List.cons.inj this).1

/-! ## Clean paths -/

/-- A path whose segments are plain names. -/
def Clean (path : String) : Prop :=
  ∀ x ∈ segments path, Plain x

theorem clean_append {a b : String} : Clean (a ++ "." ++ b) ↔ Clean a ∧ Clean b := by
  simp only [Clean, segments_append, List.mem_append]
  exact ⟨fun h => ⟨fun x hx => h x (.inl hx), fun x hx => h x (.inr hx)⟩,
    fun h x hx => hx.elim (h.1 x) (h.2 x)⟩

theorem Plain.clean {name : String} (h : Plain name) : Clean name := by
  simpa [Clean, h.segments_eq] using h

theorem not_clean_empty : ¬ Clean "" := fun h =>
  (h "" (by rw [segments_eq_singleton (by simp)]; exact List.mem_singleton_self _)).1 rfl

theorem Clean.not_mem_of_plain {path : String} (h : Clean path) {c : Char} (dot : c ≠ '.')
    (bad : ∀ x, Plain x → c ∉ x.toList) : c ∉ path.toList := by
  intro hc
  rw [← join_segments path] at hc
  obtain rfl | ⟨x, hx, hc⟩ := mem_join hc
  · exact dot rfl
  · exact bad x (h x hx) hc

theorem Clean.slash_not_mem {path : String} (h : Clean path) : '/' ∉ path.toList :=
  h.not_mem_of_plain (by decide) fun _ hx m => (hx.2 _ m).2.1 rfl

theorem Clean.isBlank_eq_false {path : String} (h : Clean path) {c : Char} (hc : c ∈ path.toList) :
    Text.isBlank c = false := by
  refine Bool.eq_false_iff.2 fun blank => ?_
  refine h.not_mem_of_plain ?_ (fun x hx m => ?_) hc
  · rintro rfl
    exact absurd blank (by decide)
  · exact Bool.eq_false_iff.1 (hx.2 _ m).2.2 blank

theorem Clean.ne_at_start {path : String} (h : Clean path) {c : Char} {r : List Char}
    (hp : path.toList = c :: r) : c ≠ '.' := by
  rintro rfl
  have hpath : path = "" ++ "." ++ String.ofList r := by
    rw [← String.toList_inj, hp]; simp
  rw [hpath] at h
  exact not_clean_empty (clean_append.1 h).1

theorem Clean.ne_at_end {path : String} (h : Clean path) {c : Char} {r : List Char}
    (hp : path.toList = r ++ [c]) : c ≠ '.' := by
  rintro rfl
  have hpath : path = String.ofList r ++ "." ++ "" := by
    rw [← String.toList_inj, hp]; simp
  rw [hpath] at h
  exact not_clean_empty (clean_append.1 h).2

end Dotted

end DocIndex
