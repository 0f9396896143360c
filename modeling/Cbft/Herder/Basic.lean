import Mathlib.Data.List.AList
import Mathlib.Data.UInt
import Mathlib.Algebra.Order.BigOperators.Group.List
import Mathlib.Algebra.Order.Group.Nat
import Mathlib.Algebra.Order.Ring.Nat

/-!
# The application herder: state and locked sections

`appHerder` is the admission controller of the cbft process.  Indexing workers
call `onBatchExecuteStart` and wait on a condition variable while memory is over
quota; queries call `onQueryStart` and are rejected, never blocked; progress
events broadcast to the waiting workers.

This file transcribes the herder's record and the code it runs while holding
`a.m`, one definition per locked section, as pure functions of the record.
Blocking, the mutex and the condition variable are the business of
`Cbft.Herder.Concurrent`; here a section is a function from the record before
it to the record after it.

## Representation

* Go `uint64` is `UInt64`, with its wrapping arithmetic.
* Go `int64` is `BitVec 64`: the conversion `int64(u)` reinterprets the bits of
  `u`, `+` wraps, and the signed comparisons are `BitVec.slt`.
* Go `int` is used for `waiting` (only incremented and decremented, bounded by
  the number of goroutines) and for a query's depth (only compared with `0`);
  both are `Int`.
* The registry `map[interface{}]sizeFunc` is an `AList` from handles `H` to size
  functions `S`.  What a size function returns depends on its engine at the
  moment it is called, so a section that calls them takes a `Readings`, which
  fixes those values together with the process counters it loads.
-/

namespace Cbft.Herder

/-- The immutable part of an `appHerder`: the three derived quotas (Go `int64`)
and, when an `overQuotaCh` was given, its capacity. -/
structure Config where
  /-- `appQuota`: positive means checked; negative makes subordinate quotas bypass. -/
  appQuota : BitVec 64
  /-- `indexQuota`: negative bypasses indexing admission; zero skips only this check. -/
  indexQuota : BitVec 64
  /-- `queryQuota`: negative bypasses query admission; zero skips only this check. -/
  queryQuota : BitVec 64
  /-- The capacity of `overQuotaCh`, or `none` when it is `nil`. -/
  overQuotaCh : Option Nat
  deriving DecidableEq, Repr

/-- `appHerderStats`: four counters updated with `atomic.AddUint64`. -/
structure AppHerderStats where
  totWaitingIn : UInt64
  totWaitingOut : UInt64
  totOnBatchExecuteStartBeg : UInt64
  totOnBatchExecuteStartEnd : UInt64
  deriving DecidableEq, Repr

/-- The values a section observes outside the herder: the atomics
`CurMemoryUsed`, `BatchBytesAdded`, `BatchBytesRemoved`, and what each size
function returns when called on its handle. -/
structure Readings (H S : Type) where
  curMemoryUsed : UInt64
  batchBytesAdded : UInt64
  batchBytesRemoved : UInt64
  size : S → H → UInt64

/-- The mutable fields of `appHerder`, those guarded by `a.m` and the stats. -/
structure AppHerder (H S : Type) where
  waiting : Int
  indexes : AList (fun _ : H => S)
  /-- Tracks estimated memory used by running queries. -/
  runningQueryUsed : UInt64
  stats : AppHerderStats

/-- The error `onQueryStart` returns, `rest.ErrorSearchReqRejected`. -/
inductive HerderError where
  | errorSearchReqRejected
  deriving DecidableEq, Repr

variable {H S : Type}

/-- The record `newAppHerder` builds: no index, nothing waiting, no query. -/
def AppHerder.init : AppHerder H S :=
  ⟨0, ∅, 0, ⟨0, 0, 0, 0⟩⟩

/-! ## Indexing sections -/

section Indexing

variable (cfg : Config) (rd : Readings H S) (a : AppHerder H S)

/-- `indexingMemoryLOCKED`: the `uint64` sum of every registered size function
applied to its handle.  Go iterates the map in no fixed order; the sum does not
depend on it. -/
def indexingMemoryLocked : UInt64 :=
  (a.indexes.entries.map fun e => rd.size e.2 e.1).sum

/-- `preIndexingMemoryLOCKED`: `BatchBytesAdded - BatchBytesRemoved`, wrapping. -/
def preIndexingMemoryLocked : UInt64 :=
  0 + (rd.batchBytesAdded - rd.batchBytesRemoved)

/-- The `int64` `memUsed` of `overMemQuotaForIndexingLOCKED`:
`int64(CurMemoryUsed) + int64(preIndexingMemory)`, wrapping. -/
def memUsedForIndexing : BitVec 64 :=
  rd.curMemoryUsed.toBitVec + (preIndexingMemoryLocked rd).toBitVec

/-- `overMemQuotaForIndexingLOCKED`: whether an indexing worker must wait.
Zero indexing memory lets it through (the MB-29504 workaround); otherwise the
positive quotas are checked in turn. -/
def overMemQuotaForIndexingLocked : Bool :=
  if indexingMemoryLocked rd a = 0 then false
  else if (0 : BitVec 64).slt cfg.indexQuota && cfg.indexQuota.slt (memUsedForIndexing rd) then
    true
  else (0 : BitVec 64).slt cfg.appQuota && cfg.appQuota.slt (memUsedForIndexing rd)

/-- `a.indexes[c] = s`, the registration at the top of `onBatchExecuteStart`. -/
def register [DecidableEq H] (c : H) (s : S) : AppHerder H S :=
  { a with indexes := a.indexes.insert c s }

/-- The body of `onClose` before it wakes the waiters: `delete(a.indexes, c)`. -/
def unregister [DecidableEq H] (c : H) : AppHerder H S :=
  { a with indexes := a.indexes.erase c }

end Indexing

/-! ## Query sections -/

section Query

variable (cfg : Config) (a : AppHerder H S)

/-- The `int64` `memUsed` of `onQueryStart`: `int64(CurMemoryUsed) + int64(size)`. -/
def memUsedForQuery (curMemoryUsed size : UInt64) : BitVec 64 :=
  curMemoryUsed.toBitVec + size.toBitVec

/-- `onQueryStart(depth, size)` with `CurMemoryUsed` reading `curMemoryUsed`:
the herder after the call and the error returned.  A negative `queryQuota`
returns before taking the lock; only a top-level query with some sized query
running is checked (the MB-30954 workaround); an admitted query is recorded. -/
def onQueryStart (curMemoryUsed : UInt64) (depth : Int) (size : UInt64) :
    AppHerder H S × Option HerderError :=
  let record := ({ a with runningQueryUsed := a.runningQueryUsed + size }, none)
  if cfg.queryQuota.slt 0 then (a, none)
  else if depth = 0 ∧ 0 < a.runningQueryUsed then
    let memUsed := memUsedForQuery curMemoryUsed size
    if (0 : BitVec 64).slt cfg.queryQuota && cfg.queryQuota.slt memUsed then
      (a, some .errorSearchReqRejected)
    else if (0 : BitVec 64).slt cfg.appQuota && cfg.appQuota.slt memUsed then
      (a, some .errorSearchReqRejected)
    else record
  else record

/-- `onQueryEnd(depth, size)` before it wakes the waiters: the size is taken
back unconditionally and `nil` is returned. -/
def onQueryEnd (size : UInt64) : AppHerder H S :=
  { a with runningQueryUsed := a.runningQueryUsed - size }

end Query

/-! ## Machine arithmetic

The sections compute in `uint64` and `int64`.  These lemmas say once what such a
computation is as a mathematical integer: a `uint64` sum is the sum modulo
`2^64`, and an `int64` built from `uint64`s is their integer combination brought
into `[-2^63, 2^63)` by `Int.bmod`. -/

section Arith

/-- `0 < q` as an `int64` comparison. -/
@[simp] theorem zero_slt_iff (q : BitVec 64) : (0 : BitVec 64).slt q = decide (0 < q.toInt) := rfl

@[simp] theorem slt_iff (q m : BitVec 64) : q.slt m = decide (q.toInt < m.toInt) := rfl

end Arith

/-! ## What the sections compute -/

section Decisions

variable (cfg : Config) (rd : Readings H S) (a : AppHerder H S)

/-- What `onQueryStart` does, in its three outcomes: a negative `queryQuota`
bypasses the herder; a top-level query with some sized query running whose
`memUsed` exceeds a positive query or app quota is rejected; any other query is
recorded. -/
theorem onQueryStart_cases (curMemoryUsed : UInt64) (depth : Int) (size : UInt64) :
    (cfg.queryQuota.toInt < 0 ∧ onQueryStart cfg a curMemoryUsed depth size = (a, none)) ∨
      (0 ≤ cfg.queryQuota.toInt ∧ depth = 0 ∧ 0 < a.runningQueryUsed ∧
        ((0 < cfg.queryQuota.toInt ∧
            cfg.queryQuota.toInt < (memUsedForQuery curMemoryUsed size).toInt) ∨
          (0 < cfg.appQuota.toInt ∧
            cfg.appQuota.toInt < (memUsedForQuery curMemoryUsed size).toInt)) ∧
        onQueryStart cfg a curMemoryUsed depth size = (a, some .errorSearchReqRejected)) ∨
      (0 ≤ cfg.queryQuota.toInt ∧
        ¬ (depth = 0 ∧ 0 < a.runningQueryUsed ∧
          ((0 < cfg.queryQuota.toInt ∧
              cfg.queryQuota.toInt < (memUsedForQuery curMemoryUsed size).toInt) ∨
            (0 < cfg.appQuota.toInt ∧
              cfg.appQuota.toInt < (memUsedForQuery curMemoryUsed size).toInt))) ∧
        onQueryStart cfg a curMemoryUsed depth size =
          ({ a with runningQueryUsed := a.runningQueryUsed + size }, none)) := by
  unfold onQueryStart
  simp only [slt_iff, zero_slt_iff, Bool.and_eq_true, decide_eq_true_eq]
  split_ifs with h₀ h₁ h₂ h₃
  · exact .inl ⟨h₀, rfl⟩
  · exact .inr (.inl ⟨not_lt.1 h₀, h₁.1, h₁.2, .inl h₂, rfl⟩)
  · exact .inr (.inl ⟨not_lt.1 h₀, h₁.1, h₁.2, .inr h₃, rfl⟩)
  · exact .inr (.inr ⟨not_lt.1 h₀, fun ⟨_, _, h⟩ => h.elim h₂ h₃, rfl⟩)
  · exact .inr (.inr ⟨not_lt.1 h₀, fun ⟨hd, hr, _⟩ => h₁ ⟨hd, hr⟩, rfl⟩)

/-- A rejected query leaves the herder as it was. -/
theorem onQueryStart_fst_of_rejected {curMemoryUsed : UInt64} {depth : Int} {size : UInt64}
    (h : (onQueryStart cfg a curMemoryUsed depth size).2 = some .errorSearchReqRejected) :
    (onQueryStart cfg a curMemoryUsed depth size).1 = a := by
  rcases onQueryStart_cases cfg a curMemoryUsed depth size with
    ⟨-, e⟩ | ⟨-, -, -, -, e⟩ | ⟨-, -, e⟩
  · rw [e] at h; cases h
  · rw [e]
  · rw [e] at h; cases h

/-- An admitted query is recorded in `runningQueryUsed`, unless a negative
`queryQuota` bypassed the herder. -/
theorem onQueryStart_fst_of_admitted {curMemoryUsed : UInt64} {depth : Int} {size : UInt64}
    (h : (onQueryStart cfg a curMemoryUsed depth size).2 = none) :
    (onQueryStart cfg a curMemoryUsed depth size).1 =
      if cfg.queryQuota.toInt < 0 then a
      else { a with runningQueryUsed := a.runningQueryUsed + size } := by
  rcases onQueryStart_cases cfg a curMemoryUsed depth size with
    ⟨h₀, e⟩ | ⟨-, -, -, -, e⟩ | ⟨h₀, -, e⟩ <;> rw [e] at h ⊢
  · exact (if_pos h₀).symm
  · cases h
  · exact (if_neg (not_lt.2 h₀)).symm

/-- `onQueryStart` changes nothing but `runningQueryUsed`. -/
theorem onQueryStart_fst_eq (curMemoryUsed : UInt64) (depth : Int) (size : UInt64) :
    (onQueryStart cfg a curMemoryUsed depth size).1 =
      { a with runningQueryUsed := (onQueryStart cfg a curMemoryUsed depth size).1.runningQueryUsed } := by
  rcases onQueryStart_cases cfg a curMemoryUsed depth size with
    ⟨-, e⟩ | ⟨-, -, -, -, e⟩ | ⟨-, -, e⟩ <;> rw [e]

end Decisions

end Cbft.Herder
