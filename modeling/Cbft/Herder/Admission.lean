import Cbft.Herder.Concurrent

/-!
# Admission decisions

What decides whether an indexing worker proceeds and whether a query is
admitted.  Both tests compare an `int64` `memUsed` with the quotas; the
`memUsed` the code computes is the mathematical sum of the memory readings
brought into `[-2^63, 2^63)` by two's-complement wrap-around
(`memUsedForIndexing_toInt`, `memUsedForQuery_toInt`), and the indexing escape
hatch tests a `uint64` sum of the engines' sizes.  So the decisions are the
natural ones whenever nothing wraps, and the wrapped ones otherwise: a reading of
`2^63` bytes or more lets through what it should hold back
(`onBatchExecuteStart_wrapped_exit`, `onQueryStart_admits_wrapped_size`).
-/

namespace Cbft.Herder

variable {T H S : Type}

/-! ## The indexing gate -/

section Indexing

variable [DecidableEq T] [DecidableEq H] (cfg : Config)

omit [DecidableEq H] in
/-- The loop test does not touch the registry. -/
theorem loopCheck_indexes (rd : Readings H S) (t : T) (w : World T H S) :
    (loopCheck cfg rd t w).herder.indexes = w.herder.indexes := by
  unfold loopCheck
  split_ifs <;> (try split) <;> rfl

end Indexing

/-- An index quota of 100 bytes, no app quota and no channel. -/
def gateConfig : Config := ⟨0, 100, 0, none⟩

/-- No engine memory and no process memory. -/
def zeroReadings : Readings ℕ Unit := ⟨0, 0, 0, fun _ _ => 0⟩

/-- Worker 0 is at `a.m.Lock()` of `onBatchExecuteStart` for index 0. -/
def lockRun : Option (World (Fin 1) ℕ Unit) :=
  run gateConfig World.init [.invoke 0 (.onBatchExecuteStart 0 ()), .run 0 zeroReadings]

/-- Worker 0 has passed the gate with index 0, and is at `a.m.Lock()` of its next
batch, for index 1. -/
def secondLockRun : Option (World (Fin 1) ℕ Unit) :=
  run gateConfig World.init
    [.invoke 0 (.onBatchExecuteStart 0 ()), .run 0 zeroReadings, .run 0 zeroReadings,
      .run 0 zeroReadings, .invoke 0 (.onBatchExecuteStart 1 ()), .run 0 zeroReadings]

/-- Two workers that the gate lets through although their index holds memory and
the process is over the index quota of 100 bytes.  With `CurMemoryUsed = 2^63`
and one byte in index 0, the `int64` `memUsed` wraps to `-2^63`, which is within
the quota.  With 1000 bytes in use and `2^63` bytes in each of indexes 0 and 1,
the `uint64` sum of the sizes wraps to `0`, the MB-29504 escape hatch. -/
theorem onBatchExecuteStart_wrapped_exit :
    (∃ w, lockRun = some w ∧ Reachable gateConfig w ∧ w.pc 0 = .batchLock 0 () ∧
      (step gateConfig w (.run 0 ⟨2 ^ 63, 0, 0, fun _ _ => 1⟩)).map
        (fun w' => (w'.pc 0, w'.herder.indexes.keys)) = some (.batchEnd, [0])) ∧
    (∃ w, secondLockRun = some w ∧ Reachable gateConfig w ∧ w.pc 0 = .batchLock 1 () ∧
      (step gateConfig w (.run 0 ⟨1000, 0, 0, fun _ _ => 2 ^ 63⟩)).map
        (fun w' => (w'.pc 0, w'.herder.indexes.keys)) = some (.batchEnd, [1, 0])) :=
  have e : lockRun = some (lockRun.getD World.init) := rfl
  have e₂ : secondLockRun = some (secondLockRun.getD World.init) := rfl
  ⟨⟨_, e, Reachable.init.run _ e, rfl, rfl⟩, ⟨_, e₂, Reachable.init.run _ e₂, rfl, rfl⟩⟩

/-! ## Query admission -/

/-- A top-level query of `2^63` bytes, with nothing else in use and a query of
10 bytes running, under a query quota of 50 bytes: `int64(size)` is `-2^63`, so
`onQueryStart` admits it and records it, where a query of 51 bytes is rejected. -/
theorem onQueryStart_admits_wrapped_size :
    let a : AppHerder ℕ Unit := ⟨0, ∅, 10, ⟨0, 0, 0, 0⟩⟩
    0 < a.runningQueryUsed ∧
      (onQueryStart ⟨100, 100, 50, none⟩ a 0 0 (2 ^ 63)).2 = none ∧
      (onQueryStart ⟨100, 100, 50, none⟩ a 0 0 (2 ^ 63)).1.runningQueryUsed = 10 + 2 ^ 63 ∧
      (onQueryStart ⟨100, 100, 50, none⟩ a 0 0 51).2 = some .errorSearchReqRejected := by
  decide

end Cbft.Herder
