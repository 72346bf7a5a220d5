import DocIndex.Proofs.Markup.Blocks
import DocIndex.Proofs.Markup.Conversion
import DocIndex.Proofs.Markup.Woven

/-!
# Placeholders

While the text around them is converted, `pre` blocks are held by numbered placeholders. A
placeholder is read as its number (`read?_placeholder`), and none reaches across a line end, so that
lines are released one by one (`releaseBlocks_intercalate`).
-/

namespace DocIndex.Markup

open Text

variable {s t rest language : List Char} {blocks : List (List Char)} {n : Nat} {c : Char}

/-! ## Reading -/

/-- What is taken for a placeholder: digits between two marks. -/
theorem held_read?_iff : held.read? s = some (n, rest) ↔ ∃ digits,
    s = '\x01' :: (digits ++ '\x01' :: rest) ∧ digits ≠ [] ∧ (∀ c ∈ digits, isDecimal c = true) ∧
      number 10 digits = n := by
  constructor
  · intro h
    unfold held at h
    dsimp only at h
    split at h
    · next r =>
      split at h
      · cases h
      · next back more =>
        cases h
        refine ⟨_, ?_, more, fun c hc => List.mem_takeWhile_imp hc, rfl⟩
        rw [← back, List.takeWhile_append_dropWhile]
      · cases h
    · cases h
  · rintro ⟨digits, rfl, ne, decimal, rfl⟩
    have front : (digits ++ '\x01' :: rest).takeWhile isDecimal = digits := by
      rw [List.takeWhile_append_of_pos decimal, List.takeWhile_cons_of_neg (by decide),
        List.append_nil]
    have back : (digits ++ '\x01' :: rest).dropWhile isDecimal = '\x01' :: rest := by
      rw [List.dropWhile_append_of_pos decimal, List.dropWhile_cons_of_neg (by decide)]
    unfold held
    dsimp only
    split
    · next r same =>
      cases same
      rw [front, back]
      cases digits with
      | nil => exact absurd rfl ne
      | cons d ds => rfl
    · next other => exact absurd rfl (other _)

theorem number_eq_ofDigitChars (decimal : ∀ c ∈ s, isDecimal c = true) :
    number 10 s = Nat.ofDigitChars 10 s 0 := by
  refine List.foldl_ext _ _ _ fun n c hc => ?_
  have digit : c.isDigit = true := decimal c hc
  rw [digitValue, if_pos digit, Nat.mul_comm]

theorem placeholder_eq (n : Nat) : placeholder n = '\x01' :: (Nat.toDigits 10 n ++ ['\x01']) := by
  rw [placeholder, Nat.toString_eq_ofList_toDigits, String.toList_ofList]
  rfl

theorem isDecimal_of_mem_toDigits (hc : c ∈ Nat.toDigits 10 n) : isDecimal c = true :=
  Nat.isDigit_of_mem_toDigits (by decide) (by decide) hc

theorem read?_placeholder (n : Nat) (rest : List Char) :
    held.read? (placeholder n ++ rest) = some (n, rest) := by
  have decimal : ∀ c ∈ Nat.toDigits 10 n, isDecimal c = true :=
    fun c hc => isDecimal_of_mem_toDigits hc
  rw [held_read?_iff, placeholder_eq]
  refine ⟨Nat.toDigits 10 n, by simp, Nat.toDigits_ne_nil, decimal, ?_⟩
  rw [number_eq_ofDigitChars decimal, Nat.ofDigitChars_toDigits (by decide) (by decide)]

theorem isBlank_of_isDecimal (decimal : isDecimal c = true) : isBlank c = false := by
  have bounds : 48 ≤ c.toNat ∧ c.toNat ≤ 57 := by
    simp only [isDecimal, Char.isDigit, Bool.and_eq_true, decide_eq_true_eq] at decimal
    exact decimal
  rw [← Bool.not_eq_true, isBlank]
  simp only [Bool.or_eq_true, Bool.and_eq_true, decide_eq_true_eq, beq_iff_eq]
  omega

/-- What is neither a mark nor a digit does not stand in a placeholder. -/
theorem forall_mem_placeholder {P : Char → Prop} (mark : P '\x01')
    (digit : ∀ c, isDecimal c = true → P c) (n : Nat) : ∀ c ∈ placeholder n, P c := by
  rw [placeholder_eq]
  rw [List.forall_mem_cons, List.forall_mem_append, List.forall_mem_singleton]
  exact ⟨mark, fun c hc => digit c (isDecimal_of_mem_toDigits hc), mark⟩

/-- A placeholder is a word, and collapsing keeps it. -/
theorem collapse_placeholder (n : Nat) : collapse (placeholder n) = placeholder n := by
  have solid : ∀ c ∈ placeholder n, isBlank c = false := by
    exact forall_mem_placeholder (by decide) (fun c decimal => isBlank_of_isDecimal decimal) n
  have single : words (placeholder n) = [placeholder n] :=
    words_eq_singleton (by simp [placeholder]) solid
  rw [collapse_line (fun c hc blank => by simp [solid c hc] at blank) (by simp [single]), oneLine,
    single, List.intercalate_singleton]

theorem converts_placeholder (n : Nat) : Converts (placeholder n) (placeholder n) := by
  have plain : ∀ c ∈ placeholder n, c ≠ '<' ∧ c ≠ '&' := by
    refine forall_mem_placeholder (by decide) (fun c decimal => ?_) n
    constructor <;> rintro rfl <;> exact absurd decimal (by decide)
  exact .text (fun lt => (plain _ lt).1 rfl)
    (rewrites_decode_of_plain fun amp => (plain _ amp).2 rfl)

/-! ## Releasing -/

@[simp]
theorem releaseBlocks_nil : releaseBlocks language blocks [] = [] :=
  Pattern.replace_nil

/-- No placeholder reaches across a line end. -/
theorem read?_append_newline (c : Char) (r t : List Char) :
    held.read? (c :: (r ++ '\n' :: t)) =
      (held.read? (c :: r)).map (Prod.map id (· ++ '\n' :: t)) := by
  refine Option.ext fun ⟨n, rest⟩ => ?_
  rw [Option.map_eq_some_iff]
  constructor
  · intro read
    obtain ⟨digits, whole, ne, decimal, value⟩ := held_read?_iff.1 read
    obtain ⟨rfl, same⟩ := List.cons.inj whole
    rcases List.append_eq_append_iff.1 same with ⟨a, rfl, tail⟩ | ⟨a, rfl, tail⟩
    · cases a with
      | nil => cases tail
      | cons d a =>
        cases tail
        exact absurd (decimal '\n' (by simp)) (by decide)
    · cases a with
      | nil => cases tail
      | cons d a =>
        cases tail
        exact ⟨(n, a), held_read?_iff.2 ⟨digits, rfl, ne, decimal, value⟩, rfl⟩
  · rintro ⟨⟨n', rest'⟩, read, same⟩
    obtain ⟨digits, whole, ne, decimal, value⟩ := held_read?_iff.1 read
    cases same
    refine held_read?_iff.2 ⟨digits, ?_, ne, decimal, value⟩
    rw [← List.cons_append, whole]
    simp

theorem releaseBlocks_append_newline (s t : List Char) :
    releaseBlocks language blocks (s ++ '\n' :: t) =
      releaseBlocks language blocks s ++ '\n' :: releaseBlocks language blocks t := by
  have newline : held.read? ('\n' :: t) = none := rfl
  rw [releaseBlocks, Pattern.replace, Pattern.scan_append fun c r => read?_append_newline c r t,
    Pattern.scan_of_none newline, List.flatMap_append]
  rfl

theorem releaseBlocks_intercalate (l : List (List Char)) :
    releaseBlocks language blocks (['\n', '\n'].intercalate l) =
      ['\n', '\n'].intercalate (l.map (releaseBlocks language blocks)) := by
  induction l with
  | nil => exact releaseBlocks_nil
  | cons s l ih =>
    cases l with
    | nil => simp
    | cons t l =>
      have shape : ['\n', '\n'].intercalate (s :: t :: l) =
          s ++ '\n' :: ([] ++ '\n' :: ['\n', '\n'].intercalate (t :: l)) := by
        simp [List.intercalate_cons_cons]
      rw [shape, releaseBlocks_append_newline, releaseBlocks_append_newline, ih,
        releaseBlocks_nil]
      simp [List.intercalate_cons_cons]

theorem releaseBlocks_joinBlocks (l : List (List Char)) :
    releaseBlocks language blocks (joinBlocks l) =
      ['\n', '\n'].intercalate
        ((l.filter fun b => !b.isEmpty).map (releaseBlocks language blocks)) :=
  releaseBlocks_intercalate _

theorem releaseBlocks_placeholder (n : Nat) : releaseBlocks language blocks (placeholder n) =
    (blocks[n]?.map (fence language)).getD [] :=
  (Pattern.rewrites_replace (read?_placeholder n)).eq releaseBlocks_nil

theorem releaseBlocks_of_unmarked (unmarked : '\x01' ∉ s) :
    releaseBlocks language blocks s = s := by
  refine (Pattern.Keeps.replace (Pattern.keeps_of_forall fun c hc rest => ?_)).eq
    Pattern.replace_nil
  by_contra read
  obtain ⟨⟨n, r⟩, read⟩ := Option.ne_none_iff_exists'.1 read
  obtain ⟨digits, same, -⟩ := held_read?_iff.1 read
  cases same
  exact unmarked hc

end DocIndex.Markup
