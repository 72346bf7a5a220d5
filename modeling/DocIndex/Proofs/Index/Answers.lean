import DocIndex.Index
import DocIndex.Proofs.Engine.Elements
import DocIndex.Proofs.Snapshot.Lookup

/-!
# What a snapshot answers

A computation over a snapshot `Answers` with a result if it gives that result on every machine that
serves the snapshot, and leaves one behind. So what a computation answers does not depend on the
calls in front of it, and answers compose (`Answers.bind`). `Gives` says the same of a property that
every result has which is no fault.
-/

namespace DocIndex.Index

open Table

variable {α β : Type}

theorem run_bind {σ : Type} (x : Index σ α) (f : α → Index σ β) (m : Machine σ) :
    (x >>= f) m =
      match x m with
      | (.ok a, m') => f a m'
      | (.error e, m') => (.error e, m') := by
  show StateT.bind x (ExceptT.bindCont f) m = _
  simp only [StateT.bind]
  rcases x m with ⟨_ | a, m'⟩ <;> rfl

theorem exists_of_bind {σ : Type} {x : Index σ α} {f : α → Index σ β} {m : Machine σ} {b : β}
    (h : ((x >>= f) m).1 = .ok b) : ∃ a, (x m).1 = .ok a ∧ (f a (x m).2).1 = .ok b := by
  rw [run_bind] at h
  rcases run : x m with ⟨e | a, m'⟩
  · rw [run] at h
    cases h
  · rw [run] at h
    exact ⟨a, rfl, h⟩

theorem bind_of_ok {σ : Type} {x : Index σ α} {f : α → Index σ β} {m : Machine σ} {a : α}
    (h : (x m).1 = .ok a) : ((x >>= f) m).1 = (f a (x m).2).1 := by
  rw [run_bind]
  rcases run : x m with ⟨e | b, m'⟩
  · rw [run] at h
    cases h
  · rw [run] at h
    cases h
    rfl

theorem run_map {σ : Type} (g : α → β) (x : Index σ α) (m : Machine σ) :
    ((g <$> x) m).1 = (x m).1.map g := by
  rw [map_eq_pure_bind, run_bind]
  rcases x m with ⟨e | a, m'⟩ <;> rfl

/-- Whether a computation has a result with the property on every machine that serves the snapshot,
and leaves such a machine behind. -/
def Meets (s : Snapshot) (x : Index Table α) (Q : Except Fault α → Prop) : Prop :=
  ∀ m, Serves s m → Q (x m).1 ∧ Serves s (x m).2

/-- Whether a computation has the result on every machine that serves the snapshot. -/
def Answers (s : Snapshot) (x : Index Table α) (r : Except Fault α) : Prop :=
  Meets s x (· = r)

/-- Whether every value that a computation returns on a machine that serves the snapshot has the
property. -/
def Gives (s : Snapshot) (x : Index Table α) (P : α → Prop) : Prop :=
  Meets s x fun r => ∀ a, r = .ok a → P a

variable {s : Snapshot} {x : Index Table α} {f : α → Index Table β} {a : α} {r : Except Fault β}

/-! ## Composition -/

theorem Meets.bind {Q : Except Fault α → Prop} {R : Except Fault β → Prop} (hx : Meets s x Q)
    (hf : ∀ a, Q (.ok a) → Meets s (f a) R) (fault : ∀ e, Q (.error e) → R (.error e)) :
    Meets s (x >>= f) R := by
  intro m h
  obtain ⟨q, h'⟩ := hx m h
  rw [run_bind]
  rcases hxm : x m with ⟨e | a, m'⟩
  · rw [hxm] at q h'
    exact ⟨fault e q, h'⟩
  · rw [hxm] at q h'
    exact hf a q m' h'

theorem answers_pure (s : Snapshot) (a : α) : Answers s (pure a) (.ok a) :=
  fun _ h => ⟨rfl, h⟩

/-- What is done behind a run that has a result. -/
theorem Answers.bind_run {m : Machine Table} (hf : Answers s (f a) r)
    (hx : (x m).1 = .ok a ∧ Serves s (x m).2) :
    ((x >>= f) m).1 = r ∧ Serves s ((x >>= f) m).2 := by
  obtain ⟨result, serves⟩ := hx
  rw [run_bind]
  rcases run : x m with ⟨result', m'⟩
  rw [run] at result serves
  cases result
  exact hf m' serves

theorem Answers.bind (hx : Answers s x (.ok a)) (hf : Answers s (f a) r) :
    Answers s (x >>= f) r :=
  fun m h => hf.bind_run (hx m h)

theorem Answers.fault {e : Fault} (hx : Answers s x (.error e)) : Answers s (x >>= f) (.error e) :=
  Meets.bind hx (fun a ha => by cases ha) fun e' he => by cases he; rfl

theorem Answers.map (hx : Answers s x (.ok a)) (g : α → β) : Answers s (g <$> x) (.ok (g a)) := by
  rw [map_eq_pure_bind]
  exact hx.bind (answers_pure s (g a))

theorem Answers.gives (hx : Answers s x (.ok a)) : Gives s x (· = a) := by
  intro m h
  refine ⟨fun b hb => ?_, (hx m h).2⟩
  rw [(hx m h).1] at hb
  exact (Except.ok.inj hb).symm

theorem Answers.gives_of_error {e : Fault} (hx : Answers s x (.error e)) {P : α → Prop} :
    Gives s x P := by
  intro m h
  refine ⟨fun b hb => ?_, (hx m h).2⟩
  rw [(hx m h).1] at hb
  cases hb

theorem Gives.bind {P : α → Prop} {Q : β → Prop} (hx : Gives s x P)
    (hf : ∀ a, P a → Gives s (f a) Q) : Gives s (x >>= f) Q :=
  Meets.bind hx (fun a h => hf a (h a rfl)) fun _ _ _ h => by cases h

theorem Gives.mono {P Q : α → Prop} (hx : Gives s x P) (h : ∀ a, P a → Q a) : Gives s x Q :=
  fun m hm => ⟨fun a ha => h a ((hx m hm).1 a ha), (hx m hm).2⟩

theorem gives_pure (s : Snapshot) {P : α → Prop} (h : P a) : Gives s (pure a) P :=
  (answers_pure s a).gives.mono fun _ hb => hb ▸ h

/-! ## Calls -/

variable {e : Export} {args : List UInt64} {t path : String} {i : UInt32} {d : Decl}

theorem call_eq_answer (stateless : e.Stateless) (args : List UInt64) (m : Machine Table) :
    call e args m = answer e args m :=
  invoke_stateless stateless args m

theorem gives_call (noRoom : ¬ e.MakesRoom) : Gives s (call e args) fun _ => True :=
  fun _ h => ⟨fun _ _ => trivial, h.invoke noRoom⟩

theorem answers_call_error (stateless : e.Stateless) {f : Fault}
    (h : ∀ input, s.reply input e args = .error f) : Answers s (call e args) (.error f) := by
  intro m hm
  have call_run : call e args m = (.error f, m) :=
    (call_eq_answer stateless args m).trans (answer_eq_error hm.snapshot (h _))
  rw [call_run]
  exact ⟨rfl, hm⟩

theorem answers_call_word (stateless : e.Stateless) {word : UInt64}
    (h : ∀ input, s.reply input e args = .ok (.word word)) : Answers s (call e args) (.ok word) := by
  intro m hm
  have call_run : call e args m = (.ok word, m) :=
    (call_eq_answer stateless args m).trans (answer_eq_ok hm.snapshot (h _))
  rw [call_run]
  exact ⟨rfl, hm⟩

theorem answers_ofExcept (s : Snapshot) (r : Except Fault α) : Answers s (ofExcept r) r := by
  intro m hm
  cases r with
  | ok a => exact ⟨rfl, hm⟩
  | error f => exact ⟨rfl, hm⟩

theorem callSlice_of_reply {read : Slice → Memory → Except Fault α} {reply : Reply}
    {m : Machine Table} (stateless : e.Stateless) (hm : Serves s m)
    (h : s.reply (input m) e args = .ok reply) (reads : ReadsBack read reply a) :
    (callSlice read e args m).1 = .ok a ∧ Serves s (callSlice read e args m).2 := by
  obtain ⟨word, m', hemit⟩ : ∃ word m', emit reply m = (word, m') := ⟨_, _, rfl⟩
  have read_eq := reads hm
  have kept := hm.emit reply
  have call_run : call e args m = (.ok word, m') := by
    refine (call_eq_answer stateless args m).trans ?_
    rw [answer_eq_ok hm.snapshot h, hemit]
  rw [hemit] at read_eq kept
  have run : callSlice read e args m = (.ok a, m') := by
    rw [callSlice, run_bind, call_run]
    show (ofExcept (read (.unpack word) m'.memory) : Index Table α) m' = _
    rw [read_eq]
    rfl
  rw [run]
  exact ⟨rfl, kept⟩

theorem answers_callSlice {read : Slice → Memory → Except Fault α} {reply : Reply}
    (stateless : e.Stateless) (h : ∀ input, s.reply input e args = .ok reply)
    (reads : ReadsBack read reply a) : Answers s (callSlice read e args) (.ok a) :=
  fun _ hm => callSlice_of_reply stateless hm (h _) reads

theorem answers_callText (stateless : e.Stateless)
    (h : ∀ input, s.reply input e args = .ok (.text t)) (short : Utf8.Short t) :
    Answers s (callText e args) (.ok t) :=
  answers_callSlice stateless h (readsBack_text short)

theorem answers_callWords {l : List UInt32} (stateless : e.Stateless)
    (h : ∀ input, s.reply input e args = .ok (.words l)) :
    Answers s (callWords e args) (.ok (Slice.kept l)) :=
  answers_callSlice stateless h (readsBack_words l)

theorem answers_callHandles {l : List UInt32} (stateless : e.Stateless)
    (h : ∀ input, s.reply input e args = .ok (.words l)) :
    Answers s (callHandles e args) (.ok ((Slice.kept l).map Handle.mk)) :=
  (answers_callWords stateless h).bind (answers_pure s _)

/-- Staging makes room for a text and writes it there if it fits. -/
theorem stage_eq (makes : e.MakesRoom) (t : String) (m : Machine Table) :
    stage e t m =
      let room := Table.stage (.ofNat (Utf8.encode t).length) m
      if 0 + (Utf8.encode t).length ≤ room.memory.length then
        (.ok (), { room with memory := room.memory.overwrite 0 (Utf8.encode t) })
      else (.error (.outOfBounds 0 (Utf8.encode t).length room.memory.length), room) := by
  have call_run : call e [.ofNat (Utf8.encode t).length] m =
      (.ok 0, Table.stage (.ofNat (Utf8.encode t).length) m) := invoke_makesRoom makes _ m
  rw [stage, run_bind, call_run]
  show (if 0 + _ ≤ _ then _ else _ : Index Table Unit) _ = _
  dsimp only
  split_ifs <;> rfl

theorem stage_run (makes : e.MakesRoom) (counted : Utf8.Counted t) (m : Machine Table) :
    stage e t m = (.ok (), holding t m) := by
  rw [stage_eq makes, stage_encode counted]
  simp [Memory.overwrite, holding]

theorem ofWord_toUInt64 (present : i.toUInt64 ≠ absent) : Handle.ofWord i.toUInt64 = .ok ⟨i⟩ := by
  have bound : i.toNat < 2 ^ 32 := i.toNat_lt
  have lt : i.toUInt64 < absent := by
    have other : i.toNat ≠ 0xFFFFFFFF := by
      intro h
      exact present (UInt64.toNat_inj.1 (i.toNat_toUInt64.trans h))
    rw [UInt64.lt_iff_toNat_lt, UInt32.toNat_toUInt64]
    show i.toNat < 0xFFFFFFFF
    omega
  rw [Handle.ofWord, if_pos lt, UInt32.toUInt32_toUInt64]

/-- A declaration is read back from its word, but for the one with the absent value. -/
theorem ofWord?_ofDecl (o : Option UInt32) : Handle.ofWord? ((o.map (·.toUInt64)).getD absent) =
    .ok ((o.filter fun i => i.toUInt64 ≠ absent).map Handle.mk) := by
  cases o with
  | none => rfl
  | some i =>
    rw [Option.map_some, Option.getD_some, Handle.ofWord?]
    by_cases present : i.toUInt64 = absent
    · simp [Option.filter, present]
    · rw [if_neg present, ofWord_toUInt64 present]
      simp [Option.filter, present, Except.map]

theorem answers_callHandle (size : s.decls.size < 2 ^ 32) (stateless : e.Stateless)
    (h : ∀ input, s.reply input e args = .ok (.word i.toUInt64)) (hi : s.Declares i) :
    Answers s (callHandle e args) (.ok ⟨i⟩) := by
  refine (answers_call_word stateless h).bind ?_
  rw [ofWord_toUInt64 (Snapshot.toUInt64_ne_absent size hi)]
  exact answers_ofExcept s (.ok (Handle.mk i))

/-- What is looked up by a text is found, but for the declaration with the absent value. -/
theorem staged_run (stateless : e.Stateless) {o : Option UInt32} (counted : Utf8.Counted t)
    (m : Machine Table) (h : m.state.snapshot.reply t e [] = .ok (.ofDecl? o)) :
    (do stage .setInput t; callHandle? e [] : Index Table _) m =
      (.ok ((o.filter fun i => i.toUInt64 ≠ absent).map Handle.mk), holding t m) := by
  have call_run : call e [] (holding t m) =
      (.ok ((o.map (·.toUInt64)).getD absent), holding t m) := by
    rw [← input_holding t m] at h
    exact (call_eq_answer stateless [] _).trans (answer_eq_ok rfl h)
  rw [run_bind, stage_run (by decide) counted, callHandle?]
  simp only
  rw [run_bind, call_run]
  simp only
  rw [ofWord?_ofDecl]
  rfl

/-- What is looked up by a text is found, if there is something to find. -/
theorem answers_staged (closed : s.RootsClosed) (stateless : e.Stateless) {o : Option UInt32}
    (h : s.reply t e [] = .ok (.ofDecl? o)) (short : Utf8.Short t) (declared : ∀ i ∈ o, s.Declares i) :
    Answers s (do stage .setInput t; callHandle? e []) (.ok (o.map Handle.mk)) := by
  intro m hm
  rw [← hm.snapshot] at h
  rw [staged_run stateless short.counted m h, Snapshot.filter_present closed.size_lt declared]
  exact ⟨rfl, hm.holding short⟩

/-! ## Declarations -/

theorem declAt_eq (hd : s.decl? i = some d) : s.declAt i.toUInt64 = .ok d := by
  rw [Snapshot.decl?] at hd
  rw [Snapshot.declAt, UInt32.toNat_toUInt64, hd]

theorem declAt_eq_error (hd : s.decl? i = none) :
    s.declAt i.toUInt64 = .error (.unknownDecl i.toUInt64) := by
  rw [Snapshot.decl?] at hd
  rw [Snapshot.declAt, UInt32.toNat_toUInt64, hd]

theorem answers_fullyQualifiedName (hi : s.Declares i) (short : Utf8.Short (s.fqn i)) :
    Answers s (fullyQualifiedName ⟨i⟩) (.ok (s.fqn i)) := by
  obtain ⟨d, hd⟩ := Snapshot.exists_decl?_iff.2 hi
  refine answers_callText (by decide) (fun input => ?_) short
  show (do let _ ← s.declAt i.toUInt64; Except.ok (Reply.text (s.fqn i.toUInt64.toUInt32))) = _
  rw [declAt_eq hd, UInt32.toUInt32_toUInt64]
  rfl

theorem gives_fullyQualifiedName (short : s.Declares i → Utf8.Short (s.fqn i)) :
    Gives s (fullyQualifiedName ⟨i⟩) (· = s.fqn i) := by
  by_cases hi : s.Declares i
  · exact (answers_fullyQualifiedName hi (short hi)).gives
  · have hd : s.decl? i = none := by
      rwa [← Snapshot.isSome_decl?_iff, Option.not_isSome_iff_eq_none] at hi
    have failed : Answers s (fullyQualifiedName ⟨i⟩) (.error (.unknownDecl i.toUInt64)) := by
      refine Answers.fault (answers_call_error (by decide) fun input => ?_)
      show (do let _ ← s.declAt i.toUInt64; Except.ok (Reply.text (s.fqn i.toUInt64.toUInt32))) = _
      rw [declAt_eq_error hd]
      rfl
    exact failed.gives_of_error

theorem findDeclaration_run (counted : Utf8.Counted path) (m : Machine Table) :
    findDeclaration path m =
      (.ok (((m.state.snapshot.lookup path).filter fun i => i.toUInt64 ≠ absent).map Handle.mk),
        holding path m) :=
  staged_run (by decide) counted m rfl

/-- An index finds what the snapshot looks up. -/
theorem answers_findDeclaration (closed : s.RootsClosed) (short : Utf8.Short path) :
    Answers s (findDeclaration path) (.ok ((s.lookup path).map Handle.mk)) :=
  answers_staged closed (by decide) rfl short fun _ h => closed.declares_of_lookup h

theorem answers_fileRoot (closed : s.RootsClosed) (short : Utf8.Short path) :
    Answers s (fileRoot path) (.ok ((s.fileRoot? path).map Handle.mk)) :=
  answers_staged closed (by decide) rfl short fun _ h => closed.declares_of_fileRoot? h

/-! ## Modules -/

theorem toNat_ofNat_toUInt64 {n : Nat} (lt : n < 2 ^ 32) :
    (UInt32.ofNat n).toUInt64.toNat = n := by
  rw [UInt32.toNat_toUInt64, UInt32.toNat_ofNat', Nat.mod_eq_of_lt lt]

theorem answers_moduleName {n : Nat} (lt : n < 2 ^ 32)
    (short : ∀ m ∈ s.modules, Utf8.Short m.name) :
    Answers s (moduleName (.ofNat n)) (.ok ((s.modules[n]?.map (·.name)).filter (· ≠ ""))) := by
  have name_short : Utf8.Short ((s.modules[n]?.map (·.name)).getD "") := by
    cases hm : s.modules[n]? with
    | none => exact (by decide : Utf8.Short "")
    | some m => exact short m (List.mem_of_getElem? hm)
  have reply (input : String) : s.reply input .moduleName [(UInt32.ofNat n).toUInt64] =
      .ok (.text ((s.modules[n]?.map (·.name)).getD "")) := by
    show Except.ok (Reply.text ((s.modules[(UInt32.ofNat n).toUInt64.toNat]?.map _).getD "")) = _
    rw [toNat_ofNat_toUInt64 lt]
  refine (answers_callText (by decide) reply name_short).bind ?_
  have named : (s.modules[n]?.map (·.name)).filter (· ≠ "") =
      if (s.modules[n]?.map (·.name)).getD "" = "" then none
      else some ((s.modules[n]?.map (·.name)).getD "") := by
    cases s.modules[n]?.map (·.name) with
    | none => rfl
    | some name => by_cases h : name = "" <;> simp [h]
  rw [named]
  exact answers_pure s _

theorem answers_moduleRoot (closed : s.ModulesClosed) {n : Nat} {m : ModuleEntry} (lt : n < 2 ^ 32)
    (hm : s.modules[n]? = some m) : Answers s (moduleRoot (.ofNat n)) (.ok ⟨m.root⟩) := by
  refine answers_callHandle closed.size_lt (by decide) (fun input => ?_)
    (closed.moduleRoot m (List.mem_of_getElem? hm))
  rw [← toNat_ofNat_toUInt64 lt] at hm
  exact Snapshot.reply_moduleRoot hm input

/-- What is asked for at a position is the next module of an enumeration. -/
theorem answers_moduleName_listed (short : ∀ m ∈ s.modules, Utf8.Short m.name) {n : Nat}
    (lt : n < 2 ^ 32) {l : List ModuleEntry} (hl : s.listedFrom n = l) :
    Answers s (moduleName (.ofNat n)) (.ok (l.head?.map (·.name))) := by
  have same : l.head?.map (·.name) = (s.modules[n]?.map (·.name)).filter (· ≠ "") := by
    rw [← hl, Snapshot.head?_listedFrom, Option.filter_map]
    rfl
  rw [same]
  exact answers_moduleName lt short

section

variable (few : s.modules.length < 2 ^ 32) (short : ∀ m ∈ s.modules, Utf8.Short m.name)

include few short

/-- Modules are enumerated up to the first one without a name. There are few enough of them for the
count not to break off. -/
theorem answers_modulesFrom {l : List ModuleEntry} {n : Nat} (within : n ≤ s.modules.length)
    (hl : s.listedFrom n = l) : Answers s (modulesFrom n) (.ok (l.map (·.name))) := by
  induction l generalizing n with
  | nil =>
    rw [modulesFrom, if_pos (show n < UInt32.size from within.trans_lt few)]
    exact (answers_moduleName_listed short (within.trans_lt few) hl).bind (answers_pure s [])
  | cons m l ih =>
    obtain ⟨hm, next⟩ := Snapshot.listedFrom_eq_cons hl
    have lt : n < s.modules.length := (List.getElem?_eq_some_iff.1 hm).1
    rw [modulesFrom, if_pos (show n < UInt32.size from lt.trans few)]
    refine (answers_moduleName_listed short (lt.trans few) hl).bind ?_
    exact (ih lt next).bind (answers_pure s _)

/-- The root of a module is looked for among those that are enumerated. -/
theorem answers_moduleRootNamedFrom (closed : s.ModulesClosed) (name : String)
    {l : List ModuleEntry} {n : Nat} (within : n ≤ s.modules.length) (hl : s.listedFrom n = l) :
    Answers s (moduleRootNamedFrom name n)
      (.ok ((l.find? (·.name = name)).map (⟨·.root⟩))) := by
  induction l generalizing n with
  | nil =>
    rw [moduleRootNamedFrom, if_pos (show n < UInt32.size from within.trans_lt few)]
    exact (answers_moduleName_listed short (within.trans_lt few) hl).bind (answers_pure s none)
  | cons m l ih =>
    obtain ⟨hm, next⟩ := Snapshot.listedFrom_eq_cons hl
    have lt : n < s.modules.length := (List.getElem?_eq_some_iff.1 hm).1
    rw [moduleRootNamedFrom, if_pos (show n < UInt32.size from lt.trans few)]
    refine (answers_moduleName_listed short (lt.trans few) hl).bind ?_
    by_cases found : m.name = name
    · simp only [List.head?_cons, Option.map_some, if_pos found]
      rw [List.find?_cons_of_pos (by simpa using found)]
      exact (answers_moduleRoot closed (lt.trans few) hm).map some
    · simp only [List.head?_cons, Option.map_some, if_neg found]
      rw [List.find?_cons_of_neg (by simpa using found)]
      exact ih lt next

theorem answers_modules :
    Answers s modules (.ok ((s.modules.takeWhile (·.name ≠ "")).map (·.name))) :=
  answers_modulesFrom few short (Nat.zero_le _) rfl

theorem answers_moduleRootNamed (closed : s.ModulesClosed) (name : String) :
    Answers s (moduleRootNamed name) (.ok ((s.namedModule? name).map (⟨·.root⟩))) :=
  answers_moduleRootNamedFrom few short closed name (Nat.zero_le _) rfl

end

end DocIndex.Index
