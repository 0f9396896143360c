import Cbft.Herder.Waiters
import Mathlib.Tactic.FinCases

/-!
# The over-quota signal and the stats

Two things the herder shows to the outside: the signal on `overQuotaCh`, sent
when a worker must wait or a query is rejected, and the four counters returned
by `Stats()`.

Every locked section of the herder runs from `Lock` to `Unlock` or `Wait`
without blocking, except one: `onBatchExecuteStart` sends on `overQuotaCh`
while it holds `a.m`.  `holder_eq_some_iff` says this exactly: between steps the
mutex is held by a goroutine precisely when that goroutine is stopped at this
send.  `onQueryStart` unlocks before its send, so a rejected query never blocks
anyone.  A full channel whose consumer calls a herder hook before receiving
again therefore wedges the whole herder (`overQuotaCh_send_deadlock`).

`Stats()` loads its counters one at a time; a worker passing through the gate
between two loads makes the returned map inconsistent
(`stats_loads_interleaved`), while a call whose loads are not interleaved returns
counters that agree with the waiter counts (`stats_uninterleaved`).
-/

namespace Cbft.Herder

variable {T H S : Type}

/-! ## Who holds `a.m` between steps -/

section Holder

variable [DecidableEq T] [DecidableEq H] (cfg : Config)

/-- Between steps, `a.m` is held exactly by the goroutines stopped at the send of
`onBatchExecuteStart`. -/
def HolderInv (w : World T H S) : Prop :=
  ∀ t, w.holder = some t ↔ w.pc t = .batchSend

omit [DecidableEq H] in
/-- A step that does not touch the lock and moves `t` between points other than
the send keeps the invariant. -/
theorem HolderInv.setPc {w w' : World T H S} {t : T} {p : Pc H S} (hi : HolderInv w)
    (hh : w'.holder = w.holder) (hpc : w'.pc = w.pc) (hq : w.pc t ≠ .batchSend)
    (hp : p ≠ .batchSend) : HolderInv (w'.setPc t p) := by
  intro u
  by_cases hu : u = t
  · subst hu
    simp only [World.setPc_holder, World.setPc_pc, Function.update_same, hh, hp, iff_false]
    exact fun h => hq ((hi u).mp h)
  · rw [World.setPc_holder, World.setPc_pc_of_ne _ _ hu, hh, hpc]
    exact hi u

omit [DecidableEq T] [DecidableEq H] in
/-- With `a.m` free, nobody is at the send. -/
theorem HolderInv.not_send {w : World T H S} (hi : HolderInv w) (h : w.holder.isNone = true)
    (u : T) : w.pc u ≠ .batchSend := fun hu => by
  rw [← hi u] at hu; rw [hu] at h; cases h

omit [DecidableEq H] in
/-- Releasing `a.m` from the goroutine at the send and moving it elsewhere keeps
the invariant. -/
theorem HolderInv.release {w w' : World T H S} {t : T} {p : Pc H S} (hi : HolderInv w)
    (hh : w'.holder = none) (hpc : w'.pc = w.pc) (hq : w.pc t = .batchSend)
    (hp : p ≠ .batchSend) : HolderInv (w'.setPc t p) := by
  intro u
  simp only [World.setPc_holder, hh, World.setPc_pc, reduceCtorEq, false_iff, hpc]
  by_cases hu : u = t
  · subst hu; simpa using hp
  · rw [Function.update_noteq hu]
    exact fun h' => hu (Option.some.inj (((hi u).mpr h').symm.trans ((hi t).mpr hq)))

omit [DecidableEq T] [DecidableEq H] in
/-- A locked section on the record keeps the invariant. -/
theorem HolderInv.modifyHerder {w : World T H S} (hi : HolderInv w) (f : AppHerder H S → AppHerder H S) :
    HolderInv (w.modifyHerder f) := hi

omit [DecidableEq T] [DecidableEq H] in
/-- Waking the waiters keeps the invariant: nobody woken is at the send. -/
theorem HolderInv.awakeWaitersLocked {w : World T H S} (hi : HolderInv w) :
    HolderInv (awakeWaitersLocked w) := by
  intro u
  unfold Cbft.Herder.awakeWaitersLocked
  split_ifs
  · simp only [broadcast]
    rw [hi u]
    cases w.pc u <;> simp [Pc.wake]
  · exact hi u

omit [DecidableEq H] in
/-- The loop test, entered with `a.m` free, keeps the invariant: it either stops
at the send holding `a.m`, or releases it. -/
theorem HolderInv.loopCheck {w w₀ : World T H S} (hi : HolderInv w) (rd : Readings H S) (t : T)
    (hh : w.holder.isNone = true) (hpc : w₀.pc = w.pc)
    (hq : w.pc t ≠ .batchSend) : HolderInv (loopCheck cfg rd t w₀) := by
  have hn : w.holder = none := Option.isNone_iff_eq_none.mp hh
  unfold Cbft.Herder.loopCheck
  split_ifs
  · split
    · intro u
      by_cases hu : u = t
      · subst hu; simp
      · simp only [World.setPc_holder, World.setPc_pc, Function.update_noteq hu, World.modifyHerder_pc,
          hpc, Option.some.injEq, Ne.symm hu, false_iff]
        exact hi.not_send hh u
    · exact hi.setPc (by simp [hn]) hpc hq (by simp)
  · exact hi.setPc (by simp [hn]) hpc hq (by simp)

/-- Every step keeps the invariant. -/
theorem HolderInv.step {w w' : World T H S} {a : Act T H S} (hi : HolderInv w)
    (h : step cfg w a = some w') : HolderInv w' := by
  cases a with
  | invoke t op =>
    simp only [Cbft.Herder.step] at h
    split at h
    · next hp => cases h; exact hi.setPc rfl rfl (by simp [hp]) (by cases op <;> simp [Op.entry])
    · cases h
  | run t rd =>
    simp only [Cbft.Herder.step] at h
    cases hp : w.pc t <;> rw [hp] at h <;> simp only [runPc] at h
    case idle | batchWait => cases h
    case batchLock c s | batchRelock =>
      split_ifs at h with hh; cases h
      exact hi.loopCheck cfg rd t hh rfl (by simp [hp])
    case batchSend | querySend =>
      obtain ⟨w₁, h₁, rfl⟩ := Option.map_eq_some'.mp h
      cases bufferSend_eq_some cfg h₁
      first
      | exact hi.release rfl rfl hp (by simp)
      | exact hi.setPc rfl rfl (by simp [hp]) (by simp)
    case hook k =>
      split_ifs at h; cases h
      refine (hi.modifyHerder k.body).awakeWaitersLocked.setPc rfl rfl ?_ (by simp)
      simp only [awakeWaitersLocked_pc, World.modifyHerder_pc, hp]
      split_ifs <;> simp [Pc.wake]
    all_goals first
      | (split_ifs at h <;> cases h <;> exact hi.setPc rfl rfl (by simp [hp]) (by simp))
      | (cases h; exact hi.setPc rfl rfl (by simp [hp]) (by simp))
  | handoff s r =>
    simp only [Cbft.Herder.step] at h
    split at h
    · next hs hr =>
      cases h
      have hne : r ≠ s := fun e => by rw [e, hs] at hr; cases hr
      have h₁ : HolderInv (({ w with holder := none }).setPc s .batchWait) :=
        hi.release rfl rfl hs (by simp)
      exact h₁.setPc rfl rfl (by rw [World.setPc_pc_of_ne _ _ hne, hr]; simp) (by simp)
    · next hs hr =>
      cases h
      have hne : r ≠ s := fun e => by rw [e, hs] at hr; cases hr
      have h₁ : HolderInv (w.setPc s .idle) := hi.setPc rfl rfl (by simp [hs]) (by simp)
      exact h₁.setPc rfl rfl (by rw [World.setPc_pc_of_ne _ _ hne, hr]; simp) (by simp)
    · cases h

omit [DecidableEq T] [DecidableEq H] in
theorem HolderInv.init : HolderInv (World.init : World T H S) := fun t => by simp [World.init]

/-- Between steps, `a.m` is held by a goroutine exactly when it is stopped at the
send of `onBatchExecuteStart`: every other section releases it before it can
block, and a rejected query's send never holds it. -/
theorem holder_eq_some_iff {w : World T H S} (h : Reachable cfg w) (t : T) :
    w.holder = some t ↔ w.pc t = .batchSend := by
  suffices HolderInv w from this t
  induction h with
  | init => exact HolderInv.init
  | step _ _ hs ih => exact ih.step cfg hs

end Holder

/-! ## A full channel wedges the herder -/

/-- An `overQuotaCh` of capacity one and an index quota of 100 bytes. -/
def signalConfig : Config := ⟨0, 100, 0, some 1⟩

/-- 1000 bytes in use and one byte per registered engine: over the index quota. -/
def overReadings : Readings ℕ Unit := ⟨1000, 0, 0, fun _ _ => 1⟩

/-- Worker 0 goes over quota, signals and parks; goroutine 3 receives that
signal and calls `onPersisterProgress`.  Before it gets `a.m`, worker 1 goes
over quota, signals and parks, and worker 2 goes over quota and finds the
channel full. -/
def deadlockRun : Option (World (Fin 4) ℕ Unit) :=
  run signalConfig World.init
    [.invoke 0 (.onBatchExecuteStart 0 ()), .run 0 overReadings, .run 0 overReadings,
      .run 0 overReadings, .invoke 3 .recvOverQuota, .run 3 overReadings,
      .invoke 3 (.hook .onPersisterProgress), .invoke 1 (.onBatchExecuteStart 1 ()),
      .run 1 overReadings, .run 1 overReadings, .run 1 overReadings,
      .invoke 2 (.onBatchExecuteStart 2 ()), .run 2 overReadings, .run 2 overReadings]

/-- The run above reaches a state where worker 2 is blocked in its send while
holding `a.m`, the consumer is blocked on `a.m` in `onPersisterProgress`, the
other workers are parked, and no step of any goroutine is enabled. -/
theorem overQuotaCh_send_deadlock :
    Reachable signalConfig (deadlockRun.getD World.init) ∧
      (deadlockRun.getD World.init).holder = some 2 ∧
      (deadlockRun.getD World.init).pc 2 = .batchSend ∧
      (deadlockRun.getD World.init).buffered = 1 ∧
      (deadlockRun.getD World.init).pc 3 = .hook .onPersisterProgress ∧
      ∀ a, step signalConfig (deadlockRun.getD World.init) a = none := by
  have e : deadlockRun = some (deadlockRun.getD World.init) := rfl
  refine ⟨Reachable.init.run _ e, rfl, rfl, rfl, rfl, fun a => ?_⟩
  cases a with
  | invoke t op => fin_cases t <;> rfl
  | run t rd => fin_cases t <;> rfl
  | handoff s r => fin_cases s <;> fin_cases r <;> rfl

/-! ## `Stats()` -/

section Stats

variable [Fintype T] [DecidableEq T] [DecidableEq H] (cfg : Config)

/-- A `Stats()` call whose four loads run back to back returns the counters of
the state it started in, which agree with the waiter counts. -/
theorem stats_uninterleaved {w : World T H S} (h : Reachable cfg w) {t : T}
    (ht : w.pc t = .statsIn) (rd : Readings H S) :
    run cfg w (List.replicate 4 (.run t rd)) = some (w.setPc t (.statsRet w.herder.stats)) ∧
      w.herder.stats.totWaitingIn - w.herder.stats.totWaitingOut =
        UInt64.ofNat (w.count Pc.inWait) ∧
      w.herder.stats.totOnBatchExecuteStartBeg - w.herder.stats.totOnBatchExecuteStartEnd =
        UInt64.ofNat (w.count Pc.inGate) := by
  refine ⟨?_, (Reachable.waitInv cfg h).waitingIn_sub, (Reachable.waitInv cfg h).beg_sub⟩
  simp only [List.replicate, run, step_run, ht, runPc_statsIn, World.setPc_pc_self, Option.some_bind,
    runPc_statsOut, runPc_statsBeg, runPc_statsEnd, World.setPc_herder, World.setPc_setPc]

end Stats

/-- Worker 0 goes over quota with no `overQuotaCh` and parks, inside the gate;
goroutine 1 then calls `Stats()`. -/
def statsParkedRun : Option (World (Fin 2) ℕ Unit) :=
  run ⟨0, 100, 0, none⟩ World.init
    [.invoke 0 (.onBatchExecuteStart 0 ()), .run 0 overReadings, .run 0 overReadings,
      .invoke 1 .stats]

theorem stats_uninterleaved_parked :
    let w := statsParkedRun.getD World.init
    Reachable ⟨0, 100, 0, none⟩ w ∧ w.pc 0 = .batchWait ∧ w.pc 1 = .statsIn ∧
      run ⟨0, 100, 0, none⟩ w (List.replicate 4 (.run 1 overReadings)) =
        some (w.setPc 1 (.statsRet w.herder.stats)) ∧
      w.herder.stats.totWaitingIn - w.herder.stats.totWaitingOut =
        UInt64.ofNat (w.count Pc.inWait) ∧
      w.herder.stats.totOnBatchExecuteStartBeg - w.herder.stats.totOnBatchExecuteStartEnd =
        UInt64.ofNat (w.count Pc.inGate) :=
  have e : statsParkedRun = some (statsParkedRun.getD World.init) := rfl
  have h := Reachable.init.run _ e
  ⟨h, rfl, rfl, stats_uninterleaved _ h (t := 1) rfl overReadings⟩

/-- The parked worker is counted in both differences. -/
example : (statsParkedRun.getD World.init).herder.stats = ⟨1, 0, 1, 0⟩ := rfl

/-- No engine memory: the escape hatch lets a worker through. -/
def idleReadings : Readings ℕ Unit := ⟨1000, 0, 0, fun _ _ => 0⟩

/-- Goroutine 1 loads `TotWaitingIn`; worker 0 waits, is woken by goroutine 2's
`onPersisterProgress` and leaves; goroutine 1 loads `TotWaitingOut` and
`TotOnBatchExecuteStartBeg`; goroutine 2 passes through the gate; goroutine 1
loads `TotOnBatchExecuteStartEnd`. -/
def statsRaceRun : Option (World (Fin 3) ℕ Unit) :=
  run ⟨0, 100, 0, none⟩ World.init
    [.invoke 1 .stats, .run 1 idleReadings,
      .invoke 0 (.onBatchExecuteStart 0 ()), .run 0 overReadings, .run 0 overReadings,
      .invoke 2 (.hook .onPersisterProgress), .run 2 idleReadings,
      .run 0 idleReadings, .run 0 idleReadings,
      .run 1 idleReadings, .run 1 idleReadings,
      .invoke 2 (.onBatchExecuteStart 1 ()), .run 2 idleReadings, .run 2 idleReadings,
      .run 2 idleReadings,
      .run 1 idleReadings]

/-- Interleaved with that run, `Stats()` returns `TotWaitingOut > TotWaitingIn`
and `TotOnBatchExecuteStartEnd > TotOnBatchExecuteStartBeg`. -/
theorem stats_loads_interleaved :
    ¬ ∀ (w : World (Fin 3) ℕ Unit) (t : Fin 3) (m : AppHerderStats),
      Reachable ⟨0, 100, 0, none⟩ w → w.pc t = .statsRet m →
        m.totWaitingOut ≤ m.totWaitingIn ∧
          m.totOnBatchExecuteStartEnd ≤ m.totOnBatchExecuteStartBeg := fun hall => by
  have e : statsRaceRun = some (statsRaceRun.getD World.init) := rfl
  exact absurd (hall _ 1 ⟨0, 1, 1, 2⟩ (Reachable.init.run _ e) rfl).1 (by decide)

end Cbft.Herder
