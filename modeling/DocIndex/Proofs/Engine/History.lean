import DocIndex.Proofs.Engine.Elements
import DocIndex.Proofs.Index.Keeps
import DocIndex.Proofs.Snapshot.Tidy

/-!
# Calls and writes in any order

What a call of the engine over a snapshot can do is one of five things (`Does`, `does_invoke`). From
it follows what is true after any history of calls and of writes into the memory, however they come
one behind the other (`History`): the staged input lies within the memory, nothing but staging
touches it, a fault leaves everything as it was, a slice that comes back stands right behind the
staged input, and the target in reach is that of the alias that was categorized last
(`invoke_of_history`).
-/

namespace DocIndex

/-- The target that categorizing a declaration leaves in reach. -/
def Decl.reach? (d : Decl) : Option UInt64 :=
  if d.category = .redirect then some ((d.aliasee.map (·.toUInt64)).getD absent) else none

theorem Export.stateless_of_width {e : Export} (slice : e.width ≠ 0) : e.Stateless := by
  revert slice
  cases e <;> decide

theorem Export.Stateless.other {e : Export} (stateless : e.Stateless) :
    ¬ e.MakesRoom ∧ e ≠ .categorize ∧ e ≠ .aliasee := by
  revert stateless
  cases e <;> decide

theorem Export.MakesRoom.other {e : Export} (makes : e.MakesRoom) :
    e.width = 0 ∧ e ≠ .categorize ∧ e ≠ .aliasee := by
  revert makes
  cases e <;> decide

namespace Table

variable {s : Snapshot} {m : Machine Table} {e : Export} {args : List UInt64}

/-! ## What a call can do -/

/-- What a call can do: what it returns, and the machine that it leaves behind. -/
inductive Does (e : Export) (args : List UInt64) (m : Machine Table) :
    Except Fault UInt64 → Machine Table → Prop
  /-- It fails and changes nothing. -/
  | fault (f : Fault) : Does e args m (.error f) m
  /-- It answers with a reply. -/
  | reply {r : Reply} (stateless : e.Stateless)
      (found : m.state.snapshot.reply (input m) e args = .ok r) :
      Does e args m (.ok (emit r m).1) (emit r m).2
  /-- It makes room for an input. -/
  | room {length : UInt64} (makes : e.MakesRoom) (asked : args = [length]) :
      Does e args m (.ok 0) (stage length m)
  /-- It categorizes a declaration. -/
  | categorized {h : UInt64} {d : Decl} (asked : e = .categorize ∧ args = [h])
      (found : m.state.snapshot.declAt h = .ok d) :
      Does e args m (.ok (UInt64.ofNat d.category.code)) (retarget d.reach? m)
  /-- It hands out the target in reach. -/
  | target (asked : e = .aliasee ∧ args = []) :
      Does e args m (.ok (m.state.target.getD absent)) (retarget none m)

theorem does_of_eq {r : Except Fault UInt64} {m' : Machine Table} (run : invoke e args m = (r, m'))
    (does : Does e args m r m') : Does e args m (invoke e args m).1 (invoke e args m).2 := by
  rw [run]
  exact does

theorem does_invoke (e : Export) (args : List UInt64) (m : Machine Table) :
    Does e args m (invoke e args m).1 (invoke e args m).2 := by
  by_cases stateless : e.Stateless
  · rw [invoke_stateless stateless]
    cases hr : m.state.snapshot.reply (input m) e args with
    | error f =>
      rw [answer_eq_error rfl hr]
      exact .fault f
    | ok r =>
      rw [answer_eq_ok rfl hr]
      exact .reply stateless hr
  by_cases makes : e.MakesRoom
  · rcases args with _ | ⟨length, _ | ⟨other, rest⟩⟩
    · obtain rfl | rfl : e = .setInput ∨ e = .queryBegin := by simpa [Export.MakesRoom] using makes
      all_goals exact .fault _
    · exact does_of_eq (invoke_makesRoom makes length m) (.room makes rfl)
    · obtain rfl | rfl : e = .setInput ∨ e = .queryBegin := by simpa [Export.MakesRoom] using makes
      all_goals exact .fault _
  · obtain rfl | rfl : e = .categorize ∨ e = .aliasee := by
      revert makes stateless
      cases e <;> decide
    · rcases args with _ | ⟨h, _ | ⟨other, rest⟩⟩
      · exact .fault _
      · have run : invoke .categorize [h] m = categorize h m := rfl
        rw [run, categorize]
        cases hd : m.state.snapshot.declAt h with
        | error f => exact .fault f
        | ok d => exact .categorized ⟨rfl, rfl⟩ hd
      · exact .fault _
    · cases args with
      | nil => exact .target ⟨rfl, rfl⟩
      | cons _ _ => exact .fault _

section Does

variable {r : Except Fault UInt64} {m' : Machine Table}

theorem Does.eq_of_error {f : Fault} (does : Does e args m (.error f) m') : m' = m := by
  cases does
  rfl

theorem Does.snapshot_eq (does : Does e args m r m') :
    m'.state.snapshot = m.state.snapshot := by
  cases does with
  | reply _ _ => rw [state_emit]
  | _ => rfl

theorem Does.sized (does : Does e args m r m') (sized : Sized m) : Sized m' := by
  cases does with
  | fault f => exact sized
  | reply _ _ => exact sized.emit _
  | room _ _ => exact sized_stage _ m
  | categorized _ _ => exact sized
  | target _ => exact sized

/-- Nothing but making room for an input touches the staged one. -/
theorem Does.undisturbed (does : Does e args m r m') (sized : Sized m) (noRoom : ¬ e.MakesRoom) :
    Undisturbed m m' := by
  cases does with
  | fault f => exact undisturbed_self sized
  | reply _ _ => exact (undisturbed_self sized).emit _
  | room makes _ => exact absurd makes noRoom
  | categorized _ _ => exact ⟨rfl, sized, rfl, rfl⟩
  | target _ => exact ⟨rfl, sized, rfl, rfl⟩

end Does

/-! ## Slices that come back -/

/-- The elements of the reply stand in the memory right behind the staged input, where the word says
that they do, and are read back from there. -/
structure Emitted (r : Reply) (staged : Nat) (word : UInt64) (memory : Memory) : Prop where
  slice : Slice.unpack word = ⟨staged, r.elements.1⟩
  /-- The slice ends where the memory ends. -/
  within : staged + r.elements.1 * r.width = memory.length
  bytes : (Slice.unpack word).bytes r.width memory = .ok r.elements.2
  read : match r with
    | .word _ => True
    | .text t => (Slice.unpack word).text memory = .ok t
    | .words l => (Slice.unpack word).words memory = .ok l
    | .longWords l => (Slice.unpack word).longWords memory = .ok l

theorem emit_of_slice {r : Reply} (slice : r.width ≠ 0) (m : Machine Table) :
    emit r m = (Slice.pack ⟨(m.memory.take m.state.staged).length, r.elements.1⟩,
      { m with memory := m.memory.take m.state.staged ++ r.elements.2 }) := by
  cases r with
  | word value => exact absurd rfl slice
  | _ => rfl

theorem Serves.emitted {r : Reply} (h : Serves s m) (slice : r.width ≠ 0)
    (few : r.elements.1 < 2 ^ 32) :
    Emitted r m.state.staged (Table.emit r m).1 (Table.emit r m).2.memory := by
  have whole := bytes_emit h.staged_lt slice
  rw [Nat.mod_eq_of_lt few, r.length_elements, List.take_length] at whole
  refine ⟨?_, ?_, whole, ?_⟩
  · rw [emit_of_slice slice, h.length_front, Slice.unpack_pack h.staged_lt, Nat.mod_eq_of_lt few]
  · rw [emit_of_slice slice, Reply.length_elements, List.length_append, h.length_front]
  · cases r with
    | word value => trivial
    | text t => exact readsBack_text few h
    | words l =>
      have read := readsBack_words l h
      rwa [Slice.kept_eq_self few] at read
    | longWords l =>
      have read := readsBack_longWords l h
      rwa [Slice.kept_eq_self few] at read

/-! ## Histories -/

/-- Something that was done to an engine. -/
inductive Event where
  | called (e : Export) (args : List UInt64) (result : Except Fault UInt64)
  | wrote (offset : Nat) (bytes : List UInt8)

/-- The machines that the engine over the snapshot comes to by calls and by writing within its
memory, with what was done to it, the latest first. -/
inductive History (s : Snapshot) : List Event → Machine Table → Prop
  | start : History s [] (start s)
  | call {events : List Event} {m : Machine Table} (e : Export) (args : List UInt64) :
      History s events m →
        History s (.called e args (invoke e args m).1 :: events) (invoke e args m).2
  | write {events : List Event} {m : Machine Table} {offset : Nat} {bytes : List UInt8} :
      History s events m → offset + bytes.length ≤ m.memory.length →
        History s (.wrote offset bytes :: events)
          { m with memory := m.memory.overwrite offset bytes }

/-- An event that sets the target in reach: a call that categorized a declaration or handed the
target out. -/
def Event.Retargets : Event → Prop
  | .called e _ (.ok _) => e = .categorize ∨ e = .aliasee
  | _ => False

/-- Whether the target is in reach behind the events: the declaration that was categorized last is
an alias with that target, and the target was not handed out since. -/
def InReach (s : Snapshot) (events : List Event) (target : UInt64) : Prop :=
  ∃ since h code before d, events = since ++ .called .categorize [h] (.ok code) :: before ∧
    (∀ event ∈ since, ¬ event.Retargets) ∧ s.declAt h = .ok d ∧ d.reach? = some target

section InReach

variable {events : List Event} {event : Event} {target : UInt64}

theorem not_inReach_nil : ¬ InReach s [] target := by
  rintro ⟨since, h, code, before, d, same, -⟩
  exact absurd same (by simp)

theorem inReach_cons_iff (quiet : ¬ event.Retargets) :
    InReach s (event :: events) target ↔ InReach s events target := by
  constructor
  · rintro ⟨since, h, code, before, d, same, later, found⟩
    cases since with
    | nil =>
      cases same
      exact absurd (.inl rfl) quiet
    | cons event' since =>
      cases same
      exact ⟨since, h, code, before, d, rfl, (List.forall_mem_cons.1 later).2, found⟩
  · rintro ⟨since, h, code, before, d, rfl, later, found⟩
    exact ⟨event :: since, h, code, before, d, rfl, List.forall_mem_cons.2 ⟨quiet, later⟩, found⟩

theorem inReach_categorized_iff {h code : UInt64} {d : Decl} (found : s.declAt h = .ok d) :
    InReach s (.called .categorize [h] (.ok code) :: events) target ↔ d.reach? = some target := by
  constructor
  · rintro ⟨since, h', code', before, d', same, later, found', reach⟩
    cases since with
    | nil =>
      cases same
      cases found.symm.trans found'
      exact reach
    | cons event since =>
      cases same
      exact absurd (.inl rfl) (List.forall_mem_cons.1 later).1
  · intro reach
    exact ⟨[], h, code, events, d, rfl, by simp, found, reach⟩

theorem not_inReach_handed {word : UInt64} :
    ¬ InReach s (.called .aliasee args (.ok word) :: events) target := by
  rintro ⟨since, h, code, before, d, same, later, -⟩
  cases since with
  | nil => cases same
  | cons event since =>
    cases same
    exact (List.forall_mem_cons.1 later).1 (.inr rfl)

end InReach

/-! ## What holds behind every history -/

/-- The machine serves the snapshot, its staged input lies within the memory, and the events say
which target is in reach. -/
structure Coherent (s : Snapshot) (events : List Event) (m : Machine Table) : Prop where
  snapshot : m.state.snapshot = s
  sized : Sized m
  target : ∀ target, m.state.target = some target ↔ InReach s events target

variable {events : List Event}

theorem coherent_start (s : Snapshot) : Coherent s [] (start s) := by
  refine ⟨rfl, Nat.zero_le 0, fun target => ?_⟩
  exact iff_of_false (Option.some_ne_none target).symm not_inReach_nil

theorem Coherent.write (h : Coherent s events m) {offset : Nat} {bytes : List UInt8}
    (fits : offset + bytes.length ≤ m.memory.length) :
    Coherent s (.wrote offset bytes :: events)
      { m with memory := m.memory.overwrite offset bytes } := by
  refine ⟨h.snapshot, ?_, fun target => ?_⟩
  · rw [Sized, Index.length_overwrite fits]
    exact h.sized
  · rw [inReach_cons_iff id]
    exact h.target target

/-- A call sets the target in reach only where the events say so. -/
theorem Coherent.does {r : Except Fault UInt64} {m' : Machine Table} (h : Coherent s events m)
    (does : Does e args m r m') : Coherent s (.called e args r :: events) m' := by
  refine ⟨does.snapshot_eq.trans h.snapshot, does.sized h.sized, fun target => ?_⟩
  cases does with
  | fault f =>
    rw [inReach_cons_iff id]
    exact h.target target
  | reply stateless _ =>
    rw [state_emit, inReach_cons_iff (by simp [Event.Retargets, stateless.other])]
    exact h.target target
  | room makes _ =>
    rw [inReach_cons_iff (by simp [Event.Retargets, makes.other])]
    exact h.target target
  | categorized asked found =>
    obtain ⟨rfl, rfl⟩ := asked
    rw [h.snapshot] at found
    rw [inReach_categorized_iff found]
    rfl
  | target asked =>
    obtain ⟨rfl, rfl⟩ := asked
    exact iff_of_false (Option.some_ne_none target).symm not_inReach_handed

theorem History.coherent (history : History s events m) : Coherent s events m := by
  induction history with
  | start => exact coherent_start s
  | call e args _ ih => exact ih.does (does_invoke e args _)
  | write _ fits ih => exact ih.write fits

/-- After any calls and any writes within the memory, the engine over a snapshot still has that
snapshot, its staged input lies within its memory, and the target in reach is that of the alias that
was categorized last, if it was not handed out since. The next call changes nothing if it is a
fault, touches neither the staged input nor its length unless it makes room for another one, and
puts the elements of a slice that it returns right behind the staged input. -/
theorem invoke_of_history (history : History s events m) :
    m.state.snapshot = s ∧ m.state.staged ≤ m.memory.length ∧
    (∀ target, m.state.target = some target ↔ InReach s events target) ∧
    ∀ (e : Export) (args : List UInt64),
      (∀ f, (invoke e args m).1 = .error f → (invoke e args m).2 = m) ∧
      (invoke e args m).2.state.snapshot = s ∧
      (¬ e.MakesRoom → (invoke e args m).2.state.staged = m.state.staged ∧
        (invoke e args m).2.memory.take m.state.staged = m.memory.take m.state.staged) ∧
      ∀ word, e.width ≠ 0 → (invoke e args m).1 = .ok word →
        ∃ r, s.reply (input m) e args = .ok r ∧ r.width = e.width ∧
          (m.state.staged < 2 ^ 32 → r.elements.1 < 2 ^ 32 →
            Emitted r m.state.staged word (invoke e args m).2.memory) := by
  obtain ⟨snapshot, sized, target⟩ := history.coherent
  refine ⟨snapshot, sized, target, fun e args => ⟨fun f failed => ?_, ?_, fun noRoom => ?_,
    fun word slice returned => ?_⟩⟩
  · have does := does_invoke e args m
    rw [failed] at does
    exact does.eq_of_error
  · exact (does_invoke e args m).snapshot_eq.trans snapshot
  · have same := ((does_invoke e args m).undisturbed sized noRoom).same
    refine ⟨same.staged, ?_⟩
    rw [← same.front, same.staged]
  · rw [invoke_stateless (Export.stateless_of_width slice)] at returned ⊢
    cases hr : s.reply (input m) e args with
    | error f =>
      rw [answer_eq_error snapshot hr] at returned
      cases returned
    | ok r =>
      have width := hasWidth_reply s (input m) e args r hr
      rw [answer_eq_ok snapshot hr] at returned ⊢
      cases returned
      refine ⟨r, rfl, width, fun small few => ?_⟩
      exact Serves.emitted ⟨snapshot, sized, small⟩ (width ▸ slice) few

/-- An input of three bytes is staged and an alias of `mem` is categorized; the name of what it
redirects to comes back behind the input. -/
theorem invoke_of_history_sample :
    let m : Machine Table := ⟨⟨Snapshot.sample, 3, some 1⟩, [101, 113, 108]⟩
    let word := Slice.pack ⟨3, 3⟩
    History Snapshot.sample [.called .categorize [7] (.ok 7), .wrote 0 [101, 113, 108],
        .called .setInput [3] (.ok 0)] m ∧
      InReach Snapshot.sample [.called .categorize [7] (.ok 7), .wrote 0 [101, 113, 108],
        .called .setInput [3] (.ok 0)] 1 ∧
      (invoke .declName [1] m).1 = .ok word ∧
      Emitted (.text "mem") 3 word (invoke .declName [1] m).2.memory ∧
      (invoke .declName [8] m).1 = .error (.unknownDecl 8) ∧ (invoke .declName [8] m).2 = m := by
  intro m word
  have staged : History Snapshot.sample [.called .setInput [3] (.ok 0)]
      ⟨⟨Snapshot.sample, 3, none⟩, [0, 0, 0]⟩ := .call .setInput [3] .start
  have written : History Snapshot.sample [.wrote 0 [101, 113, 108], .called .setInput [3] (.ok 0)]
      ⟨⟨Snapshot.sample, 3, none⟩, [101, 113, 108]⟩ := .write staged (Nat.le_refl 3)
  have history : History Snapshot.sample [.called .categorize [7] (.ok 7),
      .wrote 0 [101, 113, 108], .called .setInput [3] (.ok 0)] m := .call .categorize [7] written
  obtain ⟨-, -, target, next⟩ := invoke_of_history history
  have reply : m.state.snapshot.reply (input m) .declName [1] = .ok (.text "mem") := rfl
  have named : (invoke .declName [1] m).1 = .ok word := by
    rw [invoke_stateless (by decide), answer_eq_ok rfl reply]
    rfl
  have unknown : (invoke .declName [8] m).1 = .error (.unknownDecl 8) := rfl
  obtain ⟨r, found, -, emitted⟩ := (next .declName [1]).2.2.2 word (by decide) named
  cases reply.symm.trans found
  exact ⟨history, (target 1).1 rfl, named, emitted (by decide) (by decide), unknown,
    (next .declName [8]).1 _ unknown⟩

end Table

end DocIndex
