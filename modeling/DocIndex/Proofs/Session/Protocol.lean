import Mathlib.Data.List.Chain
import DocIndex.Proofs.Index.Recorded
import DocIndex.Proofs.Session.Stepwise

/-!
# How engines are called

With every engine, whatever it answers, the calls of a request keep to one protocol (`Proper`,
`proper_perform`): a text that is looked up was staged by the call in front, and nowhere else than
in the room that this call made; the target of an alias is asked for right behind its category; and
behind a call that failed, or that made too little room, nothing is called any more. The calls of
parts of a request are proper, so what is put together from them is (`Proper.append`). A lookup and
the question for a category call the engine for nothing else (`Asks`).
-/

namespace DocIndex

/-- The export that makes room for what an export looks up. -/
def Export.room? : Export → Option Export
  | findDecl | fileRoot => some setInput
  | queryExec => some queryBegin
  | _ => none

theorem Export.of_room? {e room : Export} (h : e.room? = some room) :
    e.ReadsInput ∧ room.MakesRoom := by
  cases e <;> cases h <;> decide

/-- An export that needs no call in front of it. -/
def Export.Opens (e : Export) : Prop :=
  ¬ e.ReadsInput ∧ e ≠ .aliasee

instance (e : Export) : Decidable e.Opens :=
  inferInstanceAs (Decidable (_ ∧ _))

theorem Export.MakesRoom.opens {e : Export} (makes : e.MakesRoom) : e.Opens := by
  revert makes
  cases e <;> decide

theorem Export.ReadsInput.looks {e : Export} (reads : e.ReadsInput) :
    ¬ e.MakesRoom ∧ e ≠ .aliasee := by
  revert reads
  cases e <;> decide

theorem Export.Yields.opens {e : Export} {width : Nat} (yields : e.Yields width) : e.Opens := by
  refine ⟨yields.2.1, ?_⟩
  rintro rfl
  exact yields.1 (by decide)

/-- The memory `now` is the memory `before` with the bytes written into it. -/
structure Memory.Written (bytes : List UInt8) (offset : Nat) (before now : Memory) : Prop where
  fits : offset + bytes.length ≤ before.length
  /-- The bytes stand at the offset. -/
  holds : (now.drop offset).take bytes.length = bytes
  /-- Everywhere else is what was there before. -/
  keeps : ∀ i, i < offset ∨ offset + bytes.length ≤ i → now[i]? = before[i]?

theorem Memory.written_overwrite {bytes : List UInt8} {offset : Nat} {before : Memory}
    (fits : offset + bytes.length ≤ before.length) :
    Written bytes offset before (before.overwrite offset bytes) := by
  have front : (before.take offset).length = offset := List.length_take_of_le (by omega)
  refine ⟨fits, ?_, fun i outside => ?_⟩
  · rw [overwrite, List.append_assoc, List.drop_left' front, List.take_left' rfl]
  · rcases outside with below | above
    · rw [overwrite, List.append_assoc, List.getElem?_append_left (front.symm ▸ below),
        List.getElem?_take_of_lt below]
    · rw [overwrite, List.getElem?_append_right (by rw [List.length_append, front]; exact above),
        List.length_append, front, List.getElem?_drop, Nat.add_sub_cancel' above]

/-! ## Proper calls -/

/-- What a request, or a part of one, did: the memory it found, its calls in their order, the fault
it failed with and the memory it left. -/
structure Transcript where
  found : Memory
  calls : List Call
  fault : Option Fault
  left : Memory

/-- The call `a` made room for the text, which was written there before `b` looks it up. -/
structure Call.Staged (text : String) (offset : UInt64) (a b : Call) : Prop where
  room : b.symbol.room? = some a.symbol
  args : a.args = [UInt64.ofNat (Utf8.encode text).length]
  result : a.result = .ok offset
  written : Memory.Written (Utf8.encode text) offset.toNat a.left b.memory

/-- A call that found a declaration to be an alias. -/
structure Call.FoundAlias (a : Call) : Prop where
  symbol : a.symbol = .categorize
  args : ∃ h : Handle, a.args = [h.word]
  result : ∃ code, a.result = .ok code ∧ Category.ofCode? code.toNat = some .redirect

/-- What is true of a call `a` and the call `b` right behind it. -/
structure Call.Follows (texts : Export → String → Prop) (a b : Call) : Prop where
  /-- Nothing is called behind a call that failed. -/
  result : ∃ word, a.result = .ok word
  reads : b.symbol.ReadsInput → ∃ text offset, texts b.symbol text ∧ Staged text offset a b
  made : a.symbol.MakesRoom → ∃ text offset, texts b.symbol text ∧ Staged text offset a b
  aliasee : b.symbol = .aliasee → a.FoundAlias
  /-- Nothing is written but what was staged. -/
  memory : ¬ a.symbol.MakesRoom → b.memory = a.left

/-- What is true of the last call of something that ended with the fault, if any, and left the
memory. -/
structure Call.Closes (texts : Export → String → Prop) (fault : Option Fault) (left : Memory)
    (a : Call) : Prop where
  memory : left = a.left
  failed : ∀ f, a.result = .error f → fault = some f
  /-- Where room was made and nothing is looked up, the text did not fit. -/
  refused : a.symbol.MakesRoom → ∀ offset, a.result = .ok offset → ∃ e text,
    e.room? = some a.symbol ∧ texts e text ∧
    a.args = [UInt64.ofNat (Utf8.encode text).length] ∧
    a.left.length < offset.toNat + (Utf8.encode text).length ∧
    fault = some (.outOfBounds offset.toNat (Utf8.encode text).length a.left.length)

/-- Whether calls keep to the protocol, with the texts that may be looked up. -/
structure Proper (texts : Export → String → Prop) (t : Transcript) : Prop where
  opens : ∀ b ∈ t.calls.head?, b.symbol.Opens ∧ b.memory = t.found
  follows : t.calls.IsChain (Call.Follows texts)
  closes : ∀ a ∈ t.calls.getLast?, a.Closes texts t.fault t.left
  silent : t.calls = [] → t.left = t.found

section Proper

variable {texts : Export → String → Prop} {a b : Call} {found left : Memory} {fault : Option Fault}
  {t t' : Transcript}

theorem proper_nil : Proper texts ⟨left, [], fault, left⟩ :=
  ⟨fun b hb => absurd hb (Option.not_mem_none b), .nil,
    fun a ha => absurd ha (Option.not_mem_none a), fun _ => rfl⟩

theorem proper_single (opens : a.symbol.Opens) (closes : a.Closes texts fault left) :
    Proper texts ⟨a.memory, [a], fault, left⟩ := by
  refine ⟨?_, .singleton a, ?_, fun nothing => absurd nothing (List.cons_ne_nil a [])⟩
  · rintro _ ⟨⟩
    exact ⟨opens, rfl⟩
  · rintro _ ⟨⟩
    exact closes

theorem proper_pair (opens : a.symbol.Opens) (follows : a.Follows texts b)
    (closes : b.Closes texts fault left) : Proper texts ⟨a.memory, [a, b], fault, left⟩ := by
  refine ⟨?_, .cons_cons follows (.singleton b), ?_,
    fun nothing => absurd nothing (List.cons_ne_nil a [b])⟩
  · rintro _ ⟨⟩
    exact ⟨opens, rfl⟩
  · rintro _ ⟨⟩
    exact closes

/-- What is looked up may be staged right in front. -/
theorem Call.Staged.follows {text : String} {offset : UInt64} (staged : a.Staged text offset b)
    (known : texts b.symbol text) : a.Follows texts b where
  result := ⟨offset, staged.result⟩
  reads _ := ⟨text, offset, known, staged⟩
  made _ := ⟨text, offset, known, staged⟩
  aliasee target := absurd target (Export.of_room? staged.room).1.looks.2
  memory noRoom := absurd (Export.of_room? staged.room).2 noRoom

/-- The target may be asked for right behind a call that found an alias. -/
theorem Call.FoundAlias.follows (found : a.FoundAlias) (target : b.symbol = .aliasee)
    (same : b.memory = a.left) : a.Follows texts b where
  result := by
    obtain ⟨code, result, -⟩ := found.result
    exact ⟨code, result⟩
  reads reads := absurd reads (by rw [target]; decide)
  made makes := absurd makes (by rw [found.symbol]; decide)
  aliasee _ := found
  memory _ := same

/-- Behind a last call that ended well anything may be called that needs no call in front of it. -/
theorem Call.Closes.follows (closes : a.Closes texts none left) (opens : b.symbol.Opens)
    (memory : b.memory = left) : a.Follows texts b where
  result := by
    cases ha : a.result with
    | ok word => exact ⟨word, rfl⟩
    | error f => cases closes.failed f ha
  reads reads := absurd reads opens.1
  made makes := by
    cases ha : a.result with
    | ok offset =>
      obtain ⟨_, _, _, _, _, _, ⟨⟩⟩ := closes.refused makes offset ha
    | error f => cases closes.failed f ha
  aliasee target := absurd target opens.2
  memory _ := memory.trans closes.memory

/-- A last call that ended well is followed by nothing wrong if no call is. -/
theorem Call.Closes.idle (closes : a.Closes texts none left) : a.Closes texts fault left where
  memory := closes.memory
  failed f ha := nomatch closes.failed f ha
  refused makes offset ha := by
    obtain ⟨_, _, _, _, _, _, ⟨⟩⟩ := closes.refused makes offset ha

/-- What is done behind something that ended well. -/
theorem Proper.append (h : Proper texts t) (h' : Proper texts t') (fine : t.fault = none)
    (same : t'.found = t.left) :
    Proper texts ⟨t.found, t.calls ++ t'.calls, t'.fault, t'.left⟩ := by
  have ends : ∀ a ∈ t.calls.getLast?, a.Closes texts none t.left := fine ▸ h.closes
  refine ⟨?_, ?_, ?_, ?_⟩
  · intro b hb
    cases calls : t.calls with
    | nil =>
      rw [calls, List.nil_append] at hb
      obtain ⟨opens, memory⟩ := h'.opens b hb
      exact ⟨opens, memory.trans (same.trans (h.silent calls))⟩
    | cons a l =>
      rw [calls] at hb
      exact h.opens b (by rw [calls]; exact hb)
  · refine List.isChain_append.2 ⟨h.follows, h'.follows, fun a ha b hb => ?_⟩
    obtain ⟨opens, memory⟩ := h'.opens b hb
    exact (ends a ha).follows opens (memory.trans same)
  · intro a ha
    cases calls : t'.calls with
    | nil =>
      rw [calls, List.append_nil] at ha
      have closes := ends a ha
      rw [← same, ← h'.silent calls] at closes
      exact closes.idle
    | cons b l =>
      rw [List.getLast?_append_of_ne_nil _ (calls ▸ List.cons_ne_nil b l)] at ha
      exact h'.closes a ha
  · intro nothing
    obtain ⟨none, none'⟩ := List.append_eq_nil_iff.1 nothing
    exact (h'.silent none').trans (same.trans (h.silent none))

end Proper

namespace Index

open Recorded

/-! ## Proper computations -/

/-- The fault of a result that is one. -/
def fault? {α : Type} : Except Fault α → Option Fault
  | .ok _ => none
  | .error f => some f

variable {σ α β : Type} {texts : Export → String → Prop} {e : Export} {args : List UInt64}
  {x : Index (Recorded σ) α} {m m' m'' : Machine (Recorded σ)}

/-- Whether the calls of all runs of a computation are proper. -/
def Obeys (texts : Export → String → Prop) (x : Index (Recorded σ) α) : Prop :=
  ∀ m r m', x m = (r, m') →
    ∃ calls, log m' = log m ++ calls ∧ Proper texts ⟨m.memory, calls, fault? r, m'.memory⟩

/-- Whether each run of a computation calls the engine in one of the ways. -/
def Asks (ways : List (List (Export × List UInt64))) (x : Index (Recorded σ) α) : Prop :=
  ∀ m r m', x m = (r, m') →
    ∃ calls, log m' = log m ++ calls ∧ calls.map (fun a => (a.symbol, a.args)) ∈ ways

/-- How a declaration is classified: its category is asked for, and its target if it is an alias. -/
def classifying (h : Handle) : List (List (Export × List UInt64)) :=
  [[(.categorize, [h.word])], [(.categorize, [h.word]), (.aliasee, [])]]

/-- How a text is looked up: room is made for it, and it is read there if it fits. -/
def lookingUp (room : Export) (text : String) (e : Export) (args : List UInt64) :
    List (List (Export × List UInt64)) :=
  let asked := (room, [UInt64.ofNat (Utf8.encode text).length])
  [[asked], [asked, (e, args)]]

theorem obeys_of_silent (silent : ∀ m, (x m).2 = m) : Obeys texts x := by
  intro m r m' run
  obtain rfl : m' = m := by rw [← silent m, run]
  exact ⟨[], (List.append_nil _).symm, proper_nil⟩

theorem Obeys.bind {f : α → Index (Recorded σ) β} (hx : Obeys texts x)
    (hf : ∀ a, Obeys texts (f a)) : Obeys texts (x >>= f) := by
  intro m r m'' run
  rw [run_bind] at run
  rcases hm : x m with ⟨g | a, m'⟩ <;> rw [hm] at run <;>
    obtain ⟨calls, added, proper⟩ := hx m _ m' hm
  · cases run
    exact ⟨calls, added, proper⟩
  · obtain ⟨calls', added', proper'⟩ := hf a m' r m'' run
    refine ⟨calls ++ calls', ?_, proper.append proper' rfl rfl⟩
    rw [added', added, List.append_assoc]

/-- What is done behind calls without calling the engine again. -/
theorem Obeys.silent {f : α → Index (Recorded σ) β} (hx : Obeys texts x)
    (silent : ∀ a m, (f a m).2 = m) : Obeys texts (x >>= f) :=
  hx.bind fun a => obeys_of_silent (silent a)

theorem Asks.silent {ways : List (List (Export × List UInt64))} {f : α → Index (Recorded σ) β}
    (hx : Asks ways x) (silent : ∀ a m, (f a m).2 = m) : Asks ways (x >>= f) := by
  intro m r m'' run
  rw [run_bind] at run
  rcases hm : x m with ⟨g | a, m'⟩ <;> rw [hm] at run
  · cases run
    exact hx m _ m'' hm
  · have same : (f a m').2 = m'' := congrArg Prod.snd run
    rw [silent] at same
    exact hx m _ m'' (same ▸ hm)

theorem run_read (read : Memory → Except Fault α) (m : Machine (Recorded σ)) :
    (do ofExcept (read (← get).memory) : Index (Recorded σ) α) m = (read m.memory, m) := by
  rw [run_bind]
  exact ofExcept_run (read m.memory) m

variable [Engine σ]

theorem log_call {r : Except Fault UInt64} (run : call e args m = (r, m')) :
    log m' = log m ++ [⟨e, args, m.memory, r, m'.memory⟩] := by
  cases run
  exact List.reverse_cons

/-- The last call of something, if it makes no room for a text. -/
theorem closes_call {r : Except Fault UInt64} {fault : Option Fault} {memory left : Memory}
    (noRoom : ¬ e.MakesRoom) (failed : ∀ f, r = .error f → fault = some f) :
    (Call.mk e args memory r left).Closes texts fault left :=
  ⟨rfl, failed, fun makes => absurd makes noRoom⟩

theorem closes_ok {word : UInt64} {fault : Option Fault} {memory left : Memory}
    (noRoom : ¬ e.MakesRoom) : (Call.mk e args memory (.ok word) left).Closes texts fault left :=
  closes_call noRoom fun _ failed => nomatch failed

theorem fault?_of_error {f : Fault} {r : Except Fault α} (h : r = .error f) :
    fault? r = some f := by
  rw [h, fault?]

theorem obeys_call (opens : e.Opens) (noRoom : ¬ e.MakesRoom) :
    Obeys texts (call e args : Index (Recorded σ) UInt64) := by
  intro m r m' run
  exact ⟨[⟨e, args, m.memory, r, m'.memory⟩], log_call run,
    proper_single opens (closes_call noRoom fun _ => fault?_of_error)⟩

/-! ## Lookups -/

/-- What is looked up was staged right in front of the call that looks it up. -/
theorem exists_calls_staged (texts : Export → String → Prop) {room : Export} {text : String}
    {r : Except Fault UInt64} (made : e.room? = some room) (known : texts e text)
    (run : (do stage room text; call e args : Index (Recorded σ) UInt64) m = (r, m'')) :
    ∃ calls, log m'' = log m ++ calls ∧ Proper texts ⟨m.memory, calls, fault? r, m''.memory⟩ ∧
      calls.map (fun a => (a.symbol, a.args)) ∈ lookingUp room text e args := by
  obtain ⟨reads, makes⟩ := Export.of_room? made
  rw [run_bind, run_stage] at run
  rcases first : call room [UInt64.ofNat (Utf8.encode text).length] m with ⟨f | offset, m'⟩ <;>
    rw [first] at run <;> have added := log_call first
  -- no room was made, so nothing is staged
  · cases run
    let a : Call := ⟨room, [.ofNat (Utf8.encode text).length], m.memory, .error f, m''.memory⟩
    have closes : a.Closes texts (some f) m''.memory :=
      ⟨rfl, fun _ failed => congrArg some (Except.error.inj failed), fun _ _ word => nomatch word⟩
    exact ⟨[a], added, proper_single makes.opens closes, by simp [a, lookingUp]⟩
  · dsimp only at run
    let a : Call :=
      ⟨room, [.ofNat (Utf8.encode text).length], m.memory, .ok offset, m'.memory⟩
    split_ifs at run with fits
    · let b : Call := ⟨e, args, m'.memory.overwrite offset.toNat (Utf8.encode text), r, m''.memory⟩
      have staged : a.Staged text offset b := ⟨made, rfl, rfl, Memory.written_overwrite fits⟩
      have closes : b.Closes texts (fault? r) m''.memory :=
        closes_call reads.looks.1 fun _ => fault?_of_error
      refine ⟨[a, b], ?_, proper_pair makes.opens (staged.follows known) closes,
        by simp [a, b, lookingUp]⟩
      -- writing the text changes the memory, but not the log
      rw [log_call run]
      exact (congrArg (· ++ [b]) added).trans (List.append_assoc ..)
    · cases run
      let f := Fault.outOfBounds offset.toNat (Utf8.encode text).length m''.memory.length
      have closes : a.Closes texts (some f) m''.memory := by
        refine ⟨rfl, fun _ failed => (nomatch failed), ?_⟩
        rintro _ _ ⟨⟩
        exact ⟨e, text, made, known, rfl, not_le.1 fits, rfl⟩
      exact ⟨[a], added, proper_single makes.opens closes, by simp [a, lookingUp]⟩

theorem obeys_staged {room : Export} {text : String} (made : e.room? = some room)
    (known : texts e text) :
    Obeys texts (do stage room text; call e args : Index (Recorded σ) UInt64) := by
  intro m r m' run
  obtain ⟨calls, added, proper, -⟩ := exists_calls_staged texts made known run
  exact ⟨calls, added, proper⟩

theorem asks_staged {room : Export} {text : String} (made : e.room? = some room) :
    Asks (lookingUp room text e args)
      (do stage room text; call e args : Index (Recorded σ) UInt64) := by
  intro m r m' run
  obtain ⟨calls, added, -, asked⟩ := exists_calls_staged (fun _ _ => True) made trivial run
  exact ⟨calls, added, asked⟩

theorem findDeclaration_eq (path : String) :
    (findDeclaration path : Index (Recorded σ) (Option Handle)) =
      (do stage .setInput path; call .findDecl []) >>= fun word =>
        ofExcept (Handle.ofWord? word) :=
  (bind_assoc ..).symm

theorem fileRoot_eq (path : String) :
    (fileRoot path : Index (Recorded σ) (Option Handle)) =
      (do stage .setInput path; call .fileRoot []) >>= fun word =>
        ofExcept (Handle.ofWord? word) :=
  (bind_assoc ..).symm

theorem runQuery_eq (text : String) (ignoreCase : Bool) :
    (runQuery text ignoreCase : Index (Recorded σ) (List Handle)) =
      ((do stage .queryBegin text; call .queryExec [flag ignoreCase]) >>= fun word => do
        ofExcept (Slice.words (.unpack word) (← get).memory)) >>= fun l =>
          return l.map Handle.mk := by
  unfold runQuery callHandles callWords callSlice
  rw [← bind_assoc, ← bind_assoc]

theorem asks_findDeclaration (path : String) : Asks (lookingUp .setInput path .findDecl [])
    (findDeclaration path : Index (Recorded σ) (Option Handle)) := by
  rw [findDeclaration_eq]
  exact (asks_staged rfl).silent fun word m => by rw [ofExcept_run]

theorem asks_fileRoot (path : String) : Asks (lookingUp .setInput path .fileRoot [])
    (fileRoot path : Index (Recorded σ) (Option Handle)) := by
  rw [fileRoot_eq]
  exact (asks_staged rfl).silent fun word m => by rw [ofExcept_run]

theorem asks_runQuery (text : String) (ignoreCase : Bool) :
    Asks (lookingUp .queryBegin text .queryExec [flag ignoreCase])
      (runQuery text ignoreCase : Index (Recorded σ) (List Handle)) := by
  rw [runQuery_eq]
  exact ((asks_staged rfl).silent fun word m => by rw [run_read]).silent fun _ _ => rfl

/-! ## Categories -/

theorem exists_log_callHandle? {r : Except Fault (Option Handle)}
    (run : callHandle? e args m = (r, m')) :
    ∃ result, log m' = log m ++ [⟨e, args, m.memory, result, m'.memory⟩] ∧
      ∀ f, result = .error f → fault? r = some f := by
  rw [callHandle?, run_bind] at run
  rcases first : call e args m with ⟨f | word, m₁⟩ <;> rw [first] at run <;>
    have added := log_call first
  · cases run
    exact ⟨_, added, fun _ failed => congrArg some (Except.error.inj failed)⟩
  · dsimp only at run
    rw [ofExcept_run] at run
    cases run
    refine ⟨_, added, ?_⟩
    rintro _ ⟨⟩

/-- The category of a declaration is asked for, and its target right behind that if it is an
alias. -/
theorem exists_calls_classify (texts : Export → String → Prop) {h : Handle}
    {r : Except Fault (Category × Option Handle)} (run : classify h m = (r, m')) :
    ∃ calls, log m' = log m ++ calls ∧ Proper texts ⟨m.memory, calls, fault? r, m'.memory⟩ ∧
      calls.map (fun a => (a.symbol, a.args)) ∈ classifying h := by
  have opens : Export.categorize.Opens := by decide
  have noRoom : ¬ Export.categorize.MakesRoom := by decide
  rw [classify, run_bind] at run
  rcases first : call .categorize [h.word] m with ⟨f | code, m₁⟩ <;>
    rw [first] at run <;> have added := log_call first
  · cases run
    exact ⟨_, added, proper_single opens (closes_call noRoom fun _ => fault?_of_error),
      by simp [classifying]⟩
  · let a : Call := ⟨.categorize, [h.word], m.memory, .ok code, m₁.memory⟩
    have alone {fault : Option Fault} : Proper texts ⟨m.memory, [a], fault, m₁.memory⟩ :=
      proper_single opens (closes_ok noRoom)
    dsimp only at run
    cases category : Category.ofCode? code.toNat with
    | none =>
      rw [category] at run
      cases run
      exact ⟨[a], added, alone, by simp [a, classifying]⟩
    | some k =>
      rw [category] at run
      cases k with
      | redirect =>
        have found : a.FoundAlias := ⟨rfl, ⟨h, rfl⟩, code, rfl, category⟩
        dsimp only at run
        rw [run_bind] at run
        rcases second : callHandle? .aliasee [] m₁ with ⟨r', m₂⟩
        rw [second] at run
        obtain ⟨result, added', failed⟩ := exists_log_callHandle? second
        rw [added, List.append_assoc] at added'
        let b : Call := ⟨.aliasee, [], m₁.memory, result, m₂.memory⟩
        have closes : b.Closes texts (fault? r') m₂.memory := closes_call (by decide) failed
        have pair := proper_pair opens (found.follows rfl rfl) closes
        cases r' <;> cases run <;> exact ⟨[a, b], added', pair, by simp [a, b, classifying]⟩
      | _ =>
        cases run
        exact ⟨[a], added, alone, by simp [a, classifying]⟩

theorem asks_classify (h : Handle) :
    Asks (classifying h) (classify h : Index (Recorded σ) (Category × Option Handle)) := by
  intro m r m' run
  obtain ⟨calls, added, -, asked⟩ := exists_calls_classify (fun _ _ => False) run
  exact ⟨calls, added, asked⟩

theorem obeys_classify (h : Handle) :
    Obeys texts (classify h : Index (Recorded σ) (Category × Option Handle)) := by
  intro m r m' run
  obtain ⟨calls, added, proper, -⟩ := exists_calls_classify texts run
  exact ⟨calls, added, proper⟩

/-! ## Everything that is done -/

/-- Everything that is done keeps to the protocol, if the texts may be looked up. -/
theorem stepwise_obeys (texts : Export → String → Prop) :
    Stepwise texts fun _ (x _ : Index (Recorded σ) _) => Obeys texts x where
  pure a := obeys_of_silent fun _ => rfl
  bind := Obeys.bind
  ofExcept r := obeys_of_silent fun m => by rw [ofExcept_run]
  call yields := obeys_call yields.opens yields.noRoom
  callSlice yields _ _ := (obeys_call yields.opens yields.noRoom).silent fun word m => by
    rw [run_read]
  classify := obeys_classify
  findDeclaration known := by
    rw [findDeclaration_eq]
    exact (obeys_staged rfl known).silent fun word m => by rw [ofExcept_run]
  fileRoot known := by
    rw [fileRoot_eq]
    exact (obeys_staged rfl known).silent fun word m => by rw [ofExcept_run]
  runQuery known := by
    rw [runQuery_eq]
    exact ((obeys_staged rfl known).silent fun word m => by rw [run_read]).silent fun _ _ => rfl

end Index

namespace Session

open Index Recorded

variable {σ α : Type} [Engine σ] {c : Config}

theorem plain_after (n : Machine (Recorded σ)) (history : List (Sigma Request)) :
    plain (after c n history) = after c (plain n) history := by
  induction history generalizing n with
  | nil => rfl
  | cons r rest ih =>
    have same : plain (r.2.perform c n).2 = (r.2.perform c (plain n)).2 :=
      (stepwise_perform stepwise_mirrors r.2 (fun _ _ => trivial) rfl).2
    exact (ih _).trans (congrArg (after c · rest) same)

/-- With every engine, whatever it answers, and after every history of requests, the calls of a
request are proper: they look up the texts of the request only, and each of these was staged right
in front. Recording them changes nothing of the answer. Looking something up calls the engine for
just that, and so does classifying a declaration. -/
theorem proper_perform (c : Config) (m : Machine σ) (history : List (Sigma Request))
    (r : Request α) :
    let n := after c (start m) history
    (r.perform c n).1 = (r.perform c (after c m history)).1 ∧
      (∃ calls, log (r.perform c n).2 = log n ++ calls ∧
        Proper (fun e text => (e, text) ∈ r.lookups c)
          ⟨n.memory, calls, fault? (r.perform c n).1, (r.perform c n).2.memory⟩) ∧
      (∀ path, Asks (lookingUp .setInput path .findDecl [])
        (findDeclaration path : Index (Recorded σ) _)) ∧
      (∀ path, Asks (lookingUp .setInput path .fileRoot [])
        (fileRoot path : Index (Recorded σ) _)) ∧
      (∀ text ignoreCase, Asks (lookingUp .queryBegin text .queryExec [flag ignoreCase])
        (runQuery text ignoreCase : Index (Recorded σ) _)) ∧
      ∀ h, Asks (classifying h) (classify h : Index (Recorded σ) _) := by
  intro n
  have same : plain n = after c m history := plain_after (start m) history
  have obeys : Obeys (fun e text => (e, text) ∈ r.lookups c)
      (r.perform c : Index (Recorded σ) α) :=
    stepwise_perform (stepwise_obeys _) r fun _ known => known
  exact ⟨(stepwise_perform stepwise_mirrors r (fun _ _ => trivial) same).1, obeys n _ _ rfl,
    asks_findDeclaration, asks_fileRoot, asks_runQuery, asks_classify⟩

/-- Room is made for two bytes at the second place, and the path is looked up there. -/
example :
    let m : Machine Script := ⟨⟨[.word 1, .word 7]⟩, [1, 2, 3, 4]⟩
    let calls := log ((Request.findDeclaration "ab").perform {} (start m)).2
    calls.map (fun a => (a.symbol, a.args, a.memory)) =
      [(.setInput, [2], [1, 2, 3, 4]), (.findDecl, [], [1, 97, 98, 4])] := by
  decide

end Session

end DocIndex
