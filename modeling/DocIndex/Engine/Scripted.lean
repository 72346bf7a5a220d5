import DocIndex.Engine.Basic

/-!
# Scripted and recorded engines

A `Script` is an engine that gives prepared answers in turn, whatever it is asked. `Recorded` is any
engine with a log of its calls: what was called, on which memory, and what it returned.
-/

namespace DocIndex

/-- A prepared answer. -/
inductive Line where
  | word (value : UInt64)
  | missingExport
  | trap (reason : String)
  deriving DecidableEq, Repr

/-- The answers that an engine has yet to give. After the last one it returns zero. -/
structure Script where
  lines : List Line

/-- What a prepared answer gives to the call of an export. -/
def Line.result (e : Export) : Line → Except Fault UInt64
  | .word value => .ok value
  | .missingExport => .error (.missingExport e)
  | .trap reason => .error (.trap e reason)

instance : Engine Script where
  invoke e _ m :=
    match m.state.lines with
    | [] => (.ok 0, m)
    | line :: rest => (line.result e, { m with state := ⟨rest⟩ })

/-- A call of an engine. -/
structure Call where
  symbol : Export
  args : List UInt64
  /-- The memory when the engine was called. -/
  memory : Memory
  result : Except Fault UInt64
  /-- The memory that the call left behind. -/
  left : Memory

/-- The state of an engine with the calls so far, the latest first. -/
structure Recorded (σ : Type) where
  state : σ
  calls : List Call

namespace Recorded

/-- An engine whose calls are recorded from now on. -/
def start {σ : Type} (m : Machine σ) : Machine (Recorded σ) :=
  ⟨⟨m.state, []⟩, m.memory⟩

/-- The calls in the order in which they were made. -/
def log {σ : Type} (m : Machine (Recorded σ)) : List Call :=
  m.state.calls.reverse

instance {σ : Type} [Engine σ] : Engine (Recorded σ) where
  invoke e args m :=
    let (result, after) := Engine.invoke e args ⟨m.state.state, m.memory⟩
    let call := { symbol := e, args, memory := m.memory, result, left := after.memory }
    (result, ⟨⟨after.state, call :: m.state.calls⟩, after.memory⟩)

end Recorded

end DocIndex
