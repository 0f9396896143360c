import Cbft.Herder.Concurrent
import Mathlib.Tactic.Abel

/-!
# Query accounting

`runningQueryUsed` is the herder's estimate of the memory held by running
queries: `onQueryStart` adds a query's size when it admits it, and
`onQueryEnd` subtracts it.  Each call changes the herder in one section under
`a.m` (the `queryQuota < 0` test before the lock reads only the configuration,
which never changes), so the calls of any number of goroutines act on the
herder one after another, and a history of calls is a list.

We follow a history through `queryHerderOnEvent` together with a ghost list of
the starts that were admitted and have not ended.  With `queryQuota ≥ 0` the
`uint64` difference between `runningQueryUsed` and the outstanding sizes is the
same after every call.  With `queryQuota < 0` the starts bypass the herder and
record nothing, while the ends are still subtracted.

The last section checks the first paragraph against the concurrent model: a run
of any goroutines reaches the `runningQueryUsed` that the history of its
callbacks computes (`run_runningQueryUsed`).
-/

namespace Cbft.Herder

variable {H S : Type}

/-! ## Histories of query events -/

/-- The kinds of `cbft.QueryEvent` that `queryHerderOnEvent` tells apart. -/
inductive QueryEventKind where
  | eventQueryStart
  | eventQueryEnd
  /-- Any other kind, which the callback ignores. -/
  | other
  deriving DecidableEq, Repr

/-- `queryHerderOnEvent`: the callback the query engine calls at each event. -/
def queryHerderOnEvent (cfg : Config) (curMemoryUsed : UInt64) (a : AppHerder H S)
    (depth : Int) (kind : QueryEventKind) (size : UInt64) :
    AppHerder H S × Option HerderError :=
  match kind with
  | .eventQueryStart => onQueryStart cfg a curMemoryUsed depth size
  | .eventQueryEnd => (onQueryEnd a size, none)
  | .other => (a, none)

/-- One call of the callback, with the `CurMemoryUsed` that a start reads. -/
structure QueryCall where
  depth : Int
  kind : QueryEventKind
  size : UInt64
  curMemoryUsed : UInt64
  deriving DecidableEq, Repr

/-- The herder, with the ghost list of the starts it admitted that have not
ended yet. -/
structure QueryState (H S : Type) where
  herder : AppHerder H S
  /-- Admitted starts not yet ended, as `(depth, size)`. -/
  outstanding : List (Int × UInt64)

/-- The `uint64` sum of the outstanding sizes. -/
def QueryState.outstandingSize (st : QueryState H S) : UInt64 :=
  (st.outstanding.map Prod.snd).sum

/-- One call of a history.  An end must match an outstanding admitted start of
the same depth and size: one that does not is outside the histories the callers
produce, and stops the history. -/
def queryStep (cfg : Config) (st : QueryState H S) (q : QueryCall) :
    Option (QueryState H S) :=
  let r := queryHerderOnEvent cfg q.curMemoryUsed st.herder q.depth q.kind q.size
  match q.kind with
  | .eventQueryStart =>
    some ⟨r.1, if r.2 = none then (q.depth, q.size) :: st.outstanding else st.outstanding⟩
  | .eventQueryEnd =>
    if (q.depth, q.size) ∈ st.outstanding then
      some ⟨r.1, st.outstanding.erase (q.depth, q.size)⟩
    else none
  | .other => some ⟨r.1, st.outstanding⟩

/-- A history of calls, one after another. -/
def queryRun (cfg : Config) : QueryState H S → List QueryCall → Option (QueryState H S)
  | st, [] => some st
  | st, q :: qs => (queryStep cfg st q).bind fun st' => queryRun cfg st' qs

/-- The `uint64` sum of the sizes of a history's ends. -/
def endedSize : List QueryCall → UInt64
  | [] => 0
  | q :: qs => (if q.kind = .eventQueryEnd then q.size else 0) + endedSize qs

/-! ## What one call does -/

section Step

variable (cfg : Config) {st st' : QueryState H S} {q : QueryCall}

/-- Everything one call of a history can do: admit and record a start, reject
it and change nothing, end an outstanding query, or ignore the event. -/
theorem queryStep_eq_some (h : queryStep cfg st q = some st') :
    (q.kind = .eventQueryStart ∧
        (onQueryStart cfg st.herder q.curMemoryUsed q.depth q.size).2 = none ∧
        st' = ⟨(onQueryStart cfg st.herder q.curMemoryUsed q.depth q.size).1,
          (q.depth, q.size) :: st.outstanding⟩) ∨
      (q.kind = .eventQueryStart ∧
        (onQueryStart cfg st.herder q.curMemoryUsed q.depth q.size).2 =
          some .errorSearchReqRejected ∧ st' = st) ∨
      (q.kind = .eventQueryEnd ∧ (q.depth, q.size) ∈ st.outstanding ∧
        st' = ⟨onQueryEnd st.herder q.size, st.outstanding.erase (q.depth, q.size)⟩) ∨
      (q.kind = .other ∧ st' = st) := by
  obtain ⟨d, k, s, u⟩ := q
  cases k with
  | eventQueryStart =>
    simp only [queryStep, queryHerderOnEvent, Option.some.injEq] at h
    subst h
    cases hr : (onQueryStart cfg st.herder u d s).2 with
    | none => exact .inl ⟨rfl, rfl, by simp [hr]⟩
    | some e =>
      cases e
      exact .inr (.inl ⟨rfl, rfl, by simp [hr, onQueryStart_fst_of_rejected cfg _ hr]⟩)
  | eventQueryEnd =>
    simp only [queryStep, queryHerderOnEvent] at h
    split at h
    · cases h
      exact .inr (.inr (.inl ⟨rfl, ‹_›, rfl⟩))
    · cases h
  | other =>
    cases h
    exact .inr (.inr (.inr ⟨rfl, rfl⟩))

/-- A call leaves the herder as its callback leaves it. -/
theorem queryStep_herder (h : queryStep cfg st q = some st') :
    st'.herder = (queryHerderOnEvent cfg q.curMemoryUsed st.herder q.depth q.kind q.size).1 := by
  unfold queryStep at h
  split at h
  · cases h; rfl
  · split_ifs at h; cases h; rfl
  · cases h; rfl

/-- What a callback does to `runningQueryUsed` depends on the herder only through
`runningQueryUsed`. -/
theorem queryHerderOnEvent_runningQueryUsed_congr {a b : AppHerder H S}
    (h : a.runningQueryUsed = b.runningQueryUsed) (curMemoryUsed : UInt64) (depth : Int)
    (kind : QueryEventKind) (size : UInt64) :
    (queryHerderOnEvent cfg curMemoryUsed a depth kind size).1.runningQueryUsed =
      (queryHerderOnEvent cfg curMemoryUsed b depth kind size).1.runningQueryUsed := by
  cases kind <;>
    simp only [queryHerderOnEvent, onQueryStart, onQueryEnd, h, apply_ite Prod.fst,
      apply_ite AppHerder.runningQueryUsed]

/-- Ending an outstanding start takes its size out of the sum. -/
theorem sum_snd_erase {x : Int × UInt64} {l : List (Int × UInt64)} (hx : x ∈ l) :
    (l.map Prod.snd).sum = x.2 + ((l.erase x).map Prod.snd).sum := by
  obtain ⟨l₁, l₂, -, rfl, he⟩ := List.exists_erase_eq hx
  simp only [he, List.map_append, List.map_cons, List.sum_append, List.sum_cons]
  abel_nf

/-- Under `queryQuota ≥ 0`, a call keeps `runningQueryUsed` minus the outstanding
sizes. -/
theorem queryStep_conserves (hq : 0 ≤ cfg.queryQuota.toInt) (h : queryStep cfg st q = some st') :
    st'.herder.runningQueryUsed - st'.outstandingSize =
      st.herder.runningQueryUsed - st.outstandingSize := by
  rcases queryStep_eq_some cfg h with ⟨-, ha, rfl⟩ | ⟨-, -, rfl⟩ | ⟨-, hm, rfl⟩ | ⟨-, rfl⟩
  · rw [onQueryStart_fst_of_admitted cfg _ ha, if_neg (not_lt.2 hq)]
    simp only [QueryState.outstandingSize, List.map_cons, List.sum_cons]
    abel_nf
  · rfl
  · simp only [QueryState.outstandingSize, onQueryEnd]
    rw [sum_snd_erase hm]
    abel_nf
  · rfl

/-- Under `queryQuota < 0`, a call subtracts the size of an end and changes
`runningQueryUsed` in no other way. -/
theorem queryStep_bypassed (hq : cfg.queryQuota.toInt < 0) (h : queryStep cfg st q = some st') :
    st'.herder.runningQueryUsed = st.herder.runningQueryUsed - endedSize [q] := by
  rcases queryStep_eq_some cfg h with ⟨hk, ha, rfl⟩ | ⟨hk, -, rfl⟩ | ⟨hk, -, rfl⟩ | ⟨hk, rfl⟩ <;>
    simp only [endedSize, hk, reduceCtorEq, if_false, if_true, add_zero, sub_zero]
  · rw [onQueryStart_fst_of_admitted cfg _ ha, if_pos hq]
  · rfl

end Step

/-! ## What a history does -/

section Run

variable (cfg : Config)

/-- A history in two parts is the second part run after the first. -/
theorem queryRun_append (st : QueryState H S) (qs qs' : List QueryCall) :
    queryRun cfg st (qs ++ qs') = (queryRun cfg st qs).bind (queryRun cfg · qs') := by
  induction qs generalizing st with
  | nil => rfl
  | cons q qs ih => simp only [List.cons_append, queryRun, List.append_eq, Option.bind_assoc, ih]

/-- Under `queryQuota ≥ 0`, a history keeps `runningQueryUsed` minus the
outstanding sizes. -/
theorem queryRun_conserves (hq : 0 ≤ cfg.queryQuota.toInt) :
    ∀ {st st' : QueryState H S} {qs : List QueryCall}, queryRun cfg st qs = some st' →
      st'.herder.runningQueryUsed - st'.outstandingSize =
        st.herder.runningQueryUsed - st.outstandingSize
  | _, _, [], h => by cases h; rfl
  | _, _, _ :: _, h => by
    obtain ⟨_, h₁, h₂⟩ := Option.bind_eq_some.1 h
    rw [queryRun_conserves hq h₂, queryStep_conserves cfg hq h₁]

/-- Under `queryQuota < 0`, a history subtracts the sizes of its ends. -/
theorem queryRun_bypassed (hq : cfg.queryQuota.toInt < 0) :
    ∀ {st st' : QueryState H S} {qs : List QueryCall}, queryRun cfg st qs = some st' →
      st'.herder.runningQueryUsed = st.herder.runningQueryUsed - endedSize qs
  | _, _, [], h => by cases h; simp [endedSize]
  | _, _, _ :: _, h => by
    obtain ⟨_, h₁, h₂⟩ := Option.bind_eq_some.1 h
    rw [queryRun_bypassed hq h₂, queryStep_bypassed cfg hq h₁]
    simp only [endedSize, add_zero]
    abel_nf

/-- From a herder with no query outstanding, under `queryQuota ≥ 0`,
`runningQueryUsed` is its first value plus the outstanding sizes. -/
theorem queryRun_runningQueryUsed (hq : 0 ≤ cfg.queryQuota.toInt) {a : AppHerder H S}
    {qs : List QueryCall} {st : QueryState H S} (h : queryRun cfg ⟨a, []⟩ qs = some st) :
    st.herder.runningQueryUsed = a.runningQueryUsed + st.outstandingSize := by
  simpa [sub_eq_iff_eq_add, QueryState.outstandingSize] using queryRun_conserves cfg hq h

end Run

/-! ## Two histories the accounting gets wrong -/

/-- A start of size 5 and its end under `queryQuota = -1`. -/
def bypassRun : Option (QueryState ℕ Unit) :=
  queryRun ⟨0, 0, -1, none⟩ ⟨AppHerder.init, []⟩
    [⟨0, .eventQueryStart, 5, 0⟩, ⟨0, .eventQueryEnd, 5, 0⟩]

/-- Under `queryQuota < 0` the start of `bypassRun` returns before it records its
size, and its end still subtracts 5: with no query outstanding,
`runningQueryUsed` is `2^64 - 5`. -/
theorem runningQueryUsed_bypass_unbalanced :
    ∃ st : QueryState ℕ Unit, bypassRun = some st ∧ st.outstanding = [] ∧
      st.herder.runningQueryUsed.toNat = 2 ^ 64 - 5 :=
  ⟨_, rfl, rfl, rfl⟩

/-- A query quota of 100 bytes. -/
def wrapConfig : Config := ⟨0, 0, 100, none⟩

/-- Two admitted sub-queries of size `2^63`. -/
def wrapRun : Option (QueryState ℕ Unit) :=
  queryRun wrapConfig ⟨AppHerder.init, []⟩
    [⟨1, .eventQueryStart, 2 ^ 63, 0⟩, ⟨1, .eventQueryStart, 2 ^ 63, 0⟩]

/-- After `wrapRun` the two sizes of `2^63` sum to `2^64`, and `runningQueryUsed`
wraps to `0` while both queries run.  A top-level query of 1000 bytes then skips
the quota checks and is admitted, where with `runningQueryUsed = 1` it would be
rejected. -/
theorem runningQueryUsed_wraps_to_zero :
    ∃ st : QueryState ℕ Unit, wrapRun = some st ∧ st.outstanding = [(1, 2 ^ 63), (1, 2 ^ 63)] ∧
      st.herder.runningQueryUsed = 0 ∧
      (onQueryStart wrapConfig st.herder 0 0 1000).2 = none ∧
      (onQueryStart wrapConfig { st.herder with runningQueryUsed := 1 } 0 0 1000).2 =
        some .errorSearchReqRejected :=
  ⟨_, rfl, rfl, rfl, rfl, rfl⟩

/-! ## The callbacks of a concurrent run

A goroutine makes a callback when it runs the section of `onQueryStart` or the
locked section of the `onQueryEnd` hook; no other step touches
`runningQueryUsed`.  So the concurrent system simulates the history of its
callbacks, each other step standing still. -/

section Concurrent

variable {T : Type} [DecidableEq T] [DecidableEq H] (cfg : Config)

/-- The callback that a step makes, if any. -/
def queryCallOf (w : World T H S) : Act T H S → Option QueryCall
  | .run t rd =>
    match w.pc t with
    | .queryStart depth size => some ⟨depth, .eventQueryStart, size, rd.curMemoryUsed⟩
    | .hook (.onQueryEnd depth size) => some ⟨depth, .eventQueryEnd, size, rd.curMemoryUsed⟩
    | _ => none
  | _ => none

/-- The callbacks of a run, in order, up to its first step that is not enabled. -/
def queryCalls : World T H S → List (Act T H S) → List QueryCall
  | _, [] => []
  | w, a :: as => (queryCallOf w a).toList ++ ((step cfg w a).map (queryCalls · as)).getD []

/-- A step either makes no callback and keeps `runningQueryUsed`, or makes one
and leaves the herder as that callback leaves it. -/
theorem step_queryCallOf {w w' : World T H S} {a : Act T H S} (h : step cfg w a = some w') :
    (queryCallOf w a = none ∧ w'.herder.runningQueryUsed = w.herder.runningQueryUsed) ∨
      ∃ q, queryCallOf w a = some q ∧
        w'.herder = (queryHerderOnEvent cfg q.curMemoryUsed w.herder q.depth q.kind q.size).1 := by
  cases a with
  | invoke t op =>
    simp only [step] at h
    split at h <;> cases h
    exact .inl ⟨rfl, rfl⟩
  | handoff s r =>
    simp only [step] at h
    split at h <;> cases h <;> exact .inl ⟨rfl, rfl⟩
  | run t rd =>
    rw [step_run] at h
    cases hp : w.pc t <;> rw [hp, runPc] at h
    case queryStart d s =>
      split_ifs at h; cases h
      exact .inr ⟨⟨d, .eventQueryStart, s, rd.curMemoryUsed⟩, by simp only [queryCallOf, hp], rfl⟩
    case hook k =>
      split_ifs at h; cases h
      cases k with
      | onQueryEnd d s =>
        exact .inr ⟨⟨d, .eventQueryEnd, s, rd.curMemoryUsed⟩, by simp only [queryCallOf, hp],
          by simp [queryHerderOnEvent, Hook.body]⟩
      | _ => exact .inl ⟨by simp only [queryCallOf, hp], by simp [Hook.body, unregister]⟩
    all_goals refine .inl ⟨by simp only [queryCallOf, hp], ?_⟩
    case batchLock c s | batchRelock =>
      split_ifs at h; cases h
      rw [loopCheck_herder]; split_ifs <;> rfl
    case batchSend | querySend =>
      obtain ⟨_, hb, rfl⟩ := Option.map_eq_some'.1 h
      rw [bufferSend_eq_some cfg hb]; rfl
    all_goals (try split_ifs at h) <;> cases h <;> rfl

/-- A run and the history of its callbacks, started from herders with the same
`runningQueryUsed`, end with the same `runningQueryUsed`. -/
theorem run_runningQueryUsed :
    ∀ {w w' : World T H S} {as : List (Act T H S)} {st st' : QueryState H S},
      run cfg w as = some w' → queryRun cfg st (queryCalls cfg w as) = some st' →
      st.herder.runningQueryUsed = w.herder.runningQueryUsed →
        st'.herder.runningQueryUsed = w'.herder.runningQueryUsed
  | _, _, [], _, _, hw, hq, hs => by cases hw; cases hq; exact hs
  | _, _, a :: as, st, _, hw, hq, hs => by
    obtain ⟨w₁, h₁, h₂⟩ := Option.bind_eq_some.1 hw
    rw [queryCalls, h₁, Option.map_some', Option.getD_some, queryRun_append] at hq
    obtain ⟨st₁, hq₁, hq₂⟩ := Option.bind_eq_some.1 hq
    refine run_runningQueryUsed h₂ hq₂ ?_
    rcases step_queryCallOf cfg h₁ with ⟨hn, hr⟩ | ⟨q, hc, he⟩
    · simp only [hn, Option.toList_none, queryRun, Option.some.injEq] at hq₁
      rw [← hq₁, hs, hr]
    · simp only [hc, Option.toList_some, queryRun, Option.bind_eq_some, Option.some.injEq] at hq₁
      obtain ⟨_, hs₁, rfl⟩ := hq₁
      rw [queryStep_herder cfg hs₁, he]
      exact queryHerderOnEvent_runningQueryUsed_congr cfg hs _ _ _ _

/-- From a fresh herder, over any run of any goroutines whose callbacks form a
history: with `queryQuota ≥ 0`, `runningQueryUsed` is the `uint64` sum of the
sizes of the admitted queries not yet ended; with `queryQuota < 0`, it is minus
the sum of the ended sizes. -/
theorem run_runningQueryUsed_accounting {as : List (Act T H S)} {w : World T H S}
    {st : QueryState H S} (h : run cfg World.init as = some w)
    (hq : queryRun cfg ⟨AppHerder.init, []⟩ (queryCalls cfg World.init as) = some st) :
    (0 ≤ cfg.queryQuota.toInt → w.herder.runningQueryUsed = st.outstandingSize) ∧
      (cfg.queryQuota.toInt < 0 →
        w.herder.runningQueryUsed = -endedSize (queryCalls cfg World.init as)) := by
  have e := run_runningQueryUsed cfg h hq rfl
  refine ⟨fun h₀ => ?_, fun h₀ => ?_⟩
  · rw [← e, queryRun_runningQueryUsed cfg h₀ hq, AppHerder.init, zero_add]
  · rw [← e, queryRun_bypassed cfg h₀ hq, AppHerder.init, zero_sub]

end Concurrent

/-- A sub-query on goroutine 1 starts before and ends inside the top-level query
of goroutine 0. -/
def subQueryActs : List (Act (Fin 2) ℕ Unit) :=
  let rd : Readings ℕ Unit := ⟨0, 0, 0, fun _ _ => 0⟩
  [.invoke 0 (.onQueryStart 0 10), .invoke 1 (.onQueryStart 1 5), .run 1 rd, .run 0 rd,
    .invoke 1 (.hook (.onQueryEnd 1 5)), .run 1 rd]

theorem run_runningQueryUsed_accounting_subQuery :
    let cfg : Config := ⟨0, 0, 50, none⟩
    let w := (run cfg World.init subQueryActs).getD World.init
    let st := (queryRun cfg ⟨AppHerder.init, []⟩ (queryCalls cfg World.init subQueryActs)).getD
      (⟨AppHerder.init, []⟩ : QueryState ℕ Unit)
    run cfg World.init subQueryActs = some w ∧
      queryRun cfg (⟨AppHerder.init, []⟩ : QueryState ℕ Unit) (queryCalls cfg World.init subQueryActs) =
        some st ∧
      (0 ≤ cfg.queryQuota.toInt → w.herder.runningQueryUsed = st.outstandingSize) ∧
        (cfg.queryQuota.toInt < 0 →
          w.herder.runningQueryUsed = -endedSize (queryCalls cfg World.init subQueryActs)) :=
  have h : run ⟨0, 0, 50, none⟩ World.init subQueryActs =
      some ((run ⟨0, 0, 50, none⟩ World.init subQueryActs).getD World.init) := rfl
  have hq : queryRun ⟨0, 0, 50, none⟩ (⟨AppHerder.init, []⟩ : QueryState ℕ Unit)
      (queryCalls ⟨0, 0, 50, none⟩ World.init subQueryActs) =
      some ((queryRun ⟨0, 0, 50, none⟩ (⟨AppHerder.init, []⟩ : QueryState ℕ Unit)
        (queryCalls ⟨0, 0, 50, none⟩ World.init subQueryActs)).getD ⟨AppHerder.init, []⟩) := rfl
  ⟨h, hq, run_runningQueryUsed_accounting _ h hq⟩

/-- The history of `subQueryActs` is in the order of the sections, and the run
keeps the top-level size. -/
example :
    queryCalls ⟨0, 0, 50, none⟩ World.init subQueryActs =
        [⟨1, .eventQueryStart, 5, 0⟩, ⟨0, .eventQueryStart, 10, 0⟩, ⟨1, .eventQueryEnd, 5, 0⟩] ∧
      (run ⟨0, 0, 50, none⟩ World.init subQueryActs).map (·.herder.runningQueryUsed) = some 10 :=
  ⟨rfl, rfl⟩

end Cbft.Herder
