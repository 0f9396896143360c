import Cbft.Herder.Concurrent
import Mathlib.Algebra.BigOperators.Group.Finset
import Mathlib.Tactic.Abel

/-!
# Waiters are counted exactly

`a.waiting` and the two pairs of stats counters are bookkeeping about where the
indexing workers are: `waiting` and `TotWaitingIn - TotWaitingOut` count the
workers between `a.waiting++` and `a.waiting--`, and
`TotOnBatchExecuteStartBeg - TotOnBatchExecuteStartEnd` counts those inside
`onBatchExecuteStart` past its bypass test.  This file proves the bookkeeping
right in every reachable state, for any number of goroutines and any
interleaving.

The consequence the herder relies on is that `awakeWaitersLOCKED`, which
broadcasts only when `a.waiting > 0`, never skips a broadcast that would have
woken somebody: in every reachable state it does what an unconditional
`Broadcast` does.

The counting is over a finite type of goroutines `T`; the invariant is proved
once for a step that moves one goroutine (`WaitInv.setPc`) and then for each
kind of step.
-/

namespace Cbft.Herder

variable {T H S : Type}

/-- Between `a.waiting++` and the matching `a.waiting--`. -/
def Pc.inWait : Pc H S → Bool
  | .batchSend | .batchWait | .batchRelock => true
  | _ => false

/-- Between `TotOnBatchExecuteStartBeg++` and `TotOnBatchExecuteStartEnd++`. -/
def Pc.inGate : Pc H S → Bool
  | .batchLock _ _ | .batchSend | .batchWait | .batchRelock | .batchEnd => true
  | _ => false

/-- Waking a goroutine keeps it in the wait loop. -/
@[simp] theorem Pc.inWait_wake (p : Pc H S) : p.wake.inWait = p.inWait := by cases p <;> rfl

/-- Waking a goroutine keeps it in the gate. -/
@[simp] theorem Pc.inGate_wake (p : Pc H S) : p.wake.inGate = p.inGate := by cases p <;> rfl

/-- A call starts outside the wait loop. -/
@[simp] theorem Op.inWait_entry (op : Op H S) : op.entry.inWait = false := by cases op <;> rfl

/-- A call starts outside the gate. -/
@[simp] theorem Op.inGate_entry (op : Op H S) : op.entry.inGate = false := by cases op <;> rfl

@[simp] theorem UInt64.ofNat_toNat_false : UInt64.ofNat false.toNat = 0 := rfl
@[simp] theorem UInt64.ofNat_toNat_true : UInt64.ofNat true.toNat = 1 := rfl

theorem UInt64.ofNat_add (m n : Nat) : UInt64.ofNat (m + n) = UInt64.ofNat m + UInt64.ofNat n := by
  apply UInt64.toNat.inj
  simp [UInt64.toNat, UInt64.ofNat, UInt64.add_def, BitVec.toNat_add]

/-! ## Counting goroutines -/

section Count

variable [Fintype T]

/-- The number of goroutines whose program point satisfies `f`. -/
def World.count (f : Pc H S → Bool) (w : World T H S) : Nat :=
  (Finset.univ.filter fun t => f (w.pc t)).card

/-- The count only looks at program points. -/
theorem World.count_congr {f : Pc H S → Bool} {w w' : World T H S} (h : w'.pc = w.pc) :
    w'.count f = w.count f := by
  simp only [World.count, h]

/-- Moving goroutine `t` to `p` trades its old category for the new one. -/
theorem World.count_setPc [DecidableEq T] (w : World T H S) (t : T) (p : Pc H S) (f : Pc H S → Bool) :
    (w.setPc t p).count f + (f (w.pc t)).toNat = w.count f + (f p).toNat := by
  have rest : ∀ u ∈ Finset.univ.erase t, f ((w.setPc t p).pc u) = f (w.pc u) := fun u hu => by
    rw [World.setPc_pc, Function.update_noteq (Finset.ne_of_mem_erase hu)]
  simp only [World.count, Finset.card_filter]
  rw [← Finset.add_sum_erase _ _ (Finset.mem_univ t), ← Finset.add_sum_erase _ _ (Finset.mem_univ t),
    Finset.sum_congr rfl fun u hu => by rw [rest u hu]]
  simp only [World.setPc_pc, Function.update_same]
  cases f p <;> cases f (w.pc t) <;> simp <;> omega

/-- `Broadcast` moves nobody across a category that waking respects. -/
theorem World.count_broadcast {f : Pc H S → Bool} (hf : ∀ p : Pc H S, f p.wake = f p)
    (w : World T H S) : (broadcast w).count f = w.count f := by
  simp only [World.count, broadcast, hf]

/-- A goroutine at a point of the category is counted. -/
theorem World.count_pos {f : Pc H S → Bool} {w : World T H S} {t : T} (h : f (w.pc t) = true) :
    0 < w.count f :=
  Finset.card_pos.mpr ⟨t, Finset.mem_filter.mpr ⟨Finset.mem_univ t, h⟩⟩

end Count

/-! ## The invariant -/

section Invariant

variable [Fintype T]

/-- The herder's bookkeeping matches where the goroutines are. -/
structure WaitInv (w : World T H S) : Prop where
  waiting_eq : w.herder.waiting = w.count Pc.inWait
  waitingIn_sub : w.herder.stats.totWaitingIn - w.herder.stats.totWaitingOut =
    UInt64.ofNat (w.count Pc.inWait)
  beg_sub : w.herder.stats.totOnBatchExecuteStartBeg - w.herder.stats.totOnBatchExecuteStartEnd =
    UInt64.ofNat (w.count Pc.inGate)

theorem WaitInv.init : WaitInv (World.init : World T H S) := by
  constructor <;> simp [World.init, World.count, Pc.inWait, Pc.inGate, AppHerder.init]

/-- A step that changes only the herder record, the lock and the channel, and
then moves one goroutine `t` from `q` to `p`, keeps the invariant when each
counter changes by what `t` gains or loses in its categories. -/
theorem WaitInv.setPc [DecidableEq T] {w w' : World T H S} {t : T} {q p : Pc H S}
    (hi : WaitInv w) (hpc : w'.pc = w.pc) (hq : w.pc t = q)
    (hw : w'.herder.waiting + q.inWait.toNat = w.herder.waiting + p.inWait.toNat)
    (hio : w'.herder.stats.totWaitingIn - w'.herder.stats.totWaitingOut + UInt64.ofNat q.inWait.toNat =
      w.herder.stats.totWaitingIn - w.herder.stats.totWaitingOut + UInt64.ofNat p.inWait.toNat)
    (hbe : w'.herder.stats.totOnBatchExecuteStartBeg - w'.herder.stats.totOnBatchExecuteStartEnd +
        UInt64.ofNat q.inGate.toNat =
      w.herder.stats.totOnBatchExecuteStartBeg - w.herder.stats.totOnBatchExecuteStartEnd +
        UInt64.ofNat p.inGate.toNat) :
    WaitInv (w'.setPc t p) := by
  have cw := w'.count_setPc t p Pc.inWait
  have cg := w'.count_setPc t p Pc.inGate
  rw [World.count_congr hpc, hpc, hq] at cw cg
  refine ⟨?_, ?_, ?_⟩
  · simp only [World.setPc_herder]; rw [hi.waiting_eq] at hw; omega
  · simp only [World.setPc_herder]
    rw [hi.waitingIn_sub, ← UInt64.ofNat_add, ← cw, UInt64.ofNat_add] at hio
    exact add_right_cancel hio
  · simp only [World.setPc_herder]
    rw [hi.beg_sub, ← UInt64.ofNat_add, ← cg, UInt64.ofNat_add] at hbe
    exact add_right_cancel hbe

/-- A step that moves `t` from `q` to a point of the same categories and leaves
the counters alone keeps the invariant. -/
theorem WaitInv.setPc_of_same [DecidableEq T] {w w' : World T H S} {t : T} {q p : Pc H S}
    (hi : WaitInv w) (hpc : w'.pc = w.pc) (hw : w'.herder.waiting = w.herder.waiting)
    (hs : w'.herder.stats = w.herder.stats) (hq : w.pc t = q) (hiw : q.inWait = p.inWait)
    (hig : q.inGate = p.inGate) : WaitInv (w'.setPc t p) :=
  hi.setPc hpc hq (by rw [hw, hiw]) (by rw [hs, hiw]) (by rw [hs, hig])

/-- Waking the waiters keeps the invariant. -/
theorem WaitInv.awakeWaitersLocked {w : World T H S} (hi : WaitInv w) :
    WaitInv (awakeWaitersLocked w) := by
  unfold Cbft.Herder.awakeWaitersLocked
  split_ifs
  · have cw := World.count_broadcast (f := Pc.inWait) Pc.inWait_wake w
    have cg := World.count_broadcast (f := Pc.inGate) Pc.inGate_wake w
    exact ⟨cw ▸ hi.waiting_eq, cw ▸ hi.waitingIn_sub, cg ▸ hi.beg_sub⟩
  · exact hi

/-- A locked section that leaves `waiting` and the stats alone keeps the invariant. -/
theorem WaitInv.modifyHerder {w : World T H S} (hi : WaitInv w) (f : AppHerder H S → AppHerder H S)
    (hw : (f w.herder).waiting = w.herder.waiting) (hs : (f w.herder).stats = w.herder.stats) :
    WaitInv (w.modifyHerder f) :=
  ⟨by simp [hw, hi.waiting_eq, World.count], by simp [hs, hi.waitingIn_sub, World.count],
    by simp [hs, hi.beg_sub, World.count]⟩

end Invariant

/-! ## Every step keeps the invariant -/

section Step

variable [Fintype T] [DecidableEq T] [DecidableEq H] (cfg : Config)

omit [DecidableEq H] in
/-- The loop test keeps the invariant when the goroutine `t` running it is in the
gate and its `a.waiting--` (if any) has been accounted: `w₀` is `w` with `t`'s
place in the wait loop taken out of the counters. -/
theorem WaitInv.loopCheck {w w₀ : World T H S} {q : Pc H S} (hi : WaitInv w) (rd : Readings H S)
    (t : T) (hpc : w₀.pc = w.pc) (hq : w.pc t = q) (hg : q.inGate = true)
    (hw : w₀.herder.waiting + q.inWait.toNat = w.herder.waiting)
    (hio : w₀.herder.stats.totWaitingIn - w₀.herder.stats.totWaitingOut + UInt64.ofNat q.inWait.toNat =
      w.herder.stats.totWaitingIn - w.herder.stats.totWaitingOut)
    (hbe : w₀.herder.stats.totOnBatchExecuteStartBeg - w₀.herder.stats.totOnBatchExecuteStartEnd =
      w.herder.stats.totOnBatchExecuteStartBeg - w.herder.stats.totOnBatchExecuteStartEnd) :
    WaitInv (loopCheck cfg rd t w₀) := by
  unfold Cbft.Herder.loopCheck
  split_ifs
  · split <;> refine hi.setPc hpc hq ?_ ?_ ?_ <;> revert hw hio hg <;> generalize q.inWait = b <;>
      generalize q.inGate = g <;> rintro rfl hw hio <;>
      simp only [World.modifyHerder_herder, waitIn, Pc.inWait, Pc.inGate, UInt64.ofNat_toNat_true,
        Bool.toNat_true, ← hw, ← hio, ← hbe] <;> first | omega | abel_nf
  · refine hi.setPc hpc hq ?_ ?_ ?_ <;> revert hw hio hg <;> generalize q.inWait = b <;>
      generalize q.inGate = g <;> rintro rfl hw hio <;>
      simp only [Pc.inWait, Pc.inGate, UInt64.ofNat_toNat_false, UInt64.ofNat_toNat_true,
        Bool.toNat_true, Bool.toNat_false, ← hw, ← hio, ← hbe] <;> first | omega | abel_nf

/-- Every step keeps the invariant. -/
theorem WaitInv.step {w w' : World T H S} {a : Act T H S} (hi : WaitInv w)
    (h : step cfg w a = some w') : WaitInv w' := by
  cases a with
  | invoke t op =>
    simp only [Cbft.Herder.step] at h
    split at h
    · next hp =>
      cases h
      exact hi.setPc_of_same rfl rfl rfl hp (by simp; rfl) (by simp; rfl)
    · cases h
  | run t rd =>
    simp only [Cbft.Herder.step] at h
    cases hp : w.pc t <;> rw [hp] at h <;> simp only [runPc] at h
    case idle | batchWait => cases h
    case batchStart c s =>
      split_ifs at h <;> cases h
      · exact hi.setPc_of_same rfl rfl rfl hp rfl rfl
      · refine hi.setPc rfl hp (by simp [incBeg, Pc.inWait]) (by simp [incBeg, Pc.inWait]) ?_
        simp only [World.modifyHerder_herder, incBeg, Pc.inGate, Bool.toNat_false, Bool.toNat_true,
          UInt64.ofNat_one, UInt64.reduceOfNat, add_zero]
        abel_nf
    case batchLock c s =>
      split_ifs at h; cases h
      exact hi.loopCheck cfg rd t rfl hp rfl
        (by simp [register, Pc.inWait]) (by simp [register, Pc.inWait]) (by simp [register])
    case batchRelock =>
      split_ifs at h; cases h
      exact hi.loopCheck cfg rd t rfl hp rfl
        (by simp [waitOut, Pc.inWait]) (by simp [waitOut, Pc.inWait]; abel_nf) (by simp [waitOut])
    case batchSend | querySend =>
      obtain ⟨w₁, h₁, rfl⟩ := Option.map_eq_some'.mp h
      cases bufferSend_eq_some cfg h₁
      exact hi.setPc_of_same rfl rfl rfl hp rfl rfl
    case batchEnd =>
      cases h
      refine hi.setPc rfl hp (by simp [incEnd, Pc.inWait]) (by simp [incEnd, Pc.inWait]) ?_
      simp only [World.modifyHerder_herder, incEnd, Pc.inGate, Bool.toNat_true, UInt64.ofNat_one,
        Bool.toNat_false, UInt64.reduceOfNat, add_zero]
      abel_nf
    case hook k =>
      split_ifs at h; cases h
      have h₁ := (hi.modifyHerder k.body (k.body_waiting _) (k.body_stats _)).awakeWaitersLocked
      have hq : (Cbft.Herder.awakeWaitersLocked (w.modifyHerder k.body)).pc t = .hook k := by
        simp only [awakeWaitersLocked_pc, World.modifyHerder_pc, hp]
        split_ifs <;> rfl
      exact h₁.setPc_of_same rfl rfl rfl hq rfl rfl
    case queryStart depth size =>
      have h₁ := hi.modifyHerder (fun a => (onQueryStart cfg a rd.curMemoryUsed depth size).1)
        (by dsimp only; rw [onQueryStart_fst_eq]) (by dsimp only; rw [onQueryStart_fst_eq])
      split_ifs at h <;> cases h <;> exact h₁.setPc_of_same rfl rfl rfl hp rfl rfl
    case statsIn | statsOut | statsBeg | statsEnd | statsRet =>
      cases h
      exact hi.setPc_of_same rfl rfl rfl hp rfl rfl
    case recv =>
      split_ifs at h; cases h
      exact hi.setPc_of_same rfl rfl rfl hp rfl rfl
  | handoff s r =>
    simp only [Cbft.Herder.step] at h
    split at h
    · next hs hr =>
      cases h
      have hne : r ≠ s := fun e => by rw [e, hs] at hr; cases hr
      have h₁ : WaitInv (({ w with holder := none }).setPc s .batchWait) :=
        hi.setPc_of_same rfl rfl rfl hs rfl rfl
      exact h₁.setPc_of_same rfl rfl rfl ((World.setPc_pc_of_ne _ _ hne).trans hr) rfl rfl
    · next hs hr =>
      cases h
      have hne : r ≠ s := fun e => by rw [e, hs] at hr; cases hr
      have h₁ : WaitInv (w.setPc s .idle) := hi.setPc_of_same rfl rfl rfl hs rfl rfl
      exact h₁.setPc_of_same rfl rfl rfl ((World.setPc_pc_of_ne _ _ hne).trans hr) rfl rfl
    · cases h

/-- The invariant holds in every reachable state. -/
theorem Reachable.waitInv {w : World T H S} (h : Reachable cfg w) : WaitInv w := by
  induction h with
  | init => exact WaitInv.init
  | step _ _ hs ih => exact ih.step cfg hs

end Step

/-! ## No lost wake-up -/

section Wakeup

variable [Fintype T] [DecidableEq T] [DecidableEq H] (cfg : Config)

omit [Fintype T] [DecidableEq T] [DecidableEq H] in
/-- With nobody parked, `Broadcast` changes nothing. -/
theorem broadcast_eq_self {w : World T H S} (h : ∀ t, w.pc t ≠ .batchWait) : broadcast w = w := by
  have hpc : (fun t => (w.pc t).wake) = w.pc := funext fun t => by
    have := h t
    revert this; cases w.pc t <;> simp [Pc.wake]
  simp only [broadcast, hpc]

/-- In every reachable state, `a.waiting` and `TotWaitingIn - TotWaitingOut`
count the workers between `a.waiting++` and `a.waiting--`,
`TotOnBatchExecuteStartBeg - TotOnBatchExecuteStartEnd` counts the workers
between those two increments, a parked worker makes `a.waiting` positive, and
so the `a.waiting > 0` guard of `awakeWaitersLOCKED` never skips a wake-up:
every hook's section is the one it would be with an unconditional `Broadcast`,
and the section of any hook moves every parked worker on to re-take `a.m`. -/
theorem waiting_counts_waiters {w : World T H S} (h : Reachable cfg w) :
    w.herder.waiting = w.count Pc.inWait ∧
      w.herder.stats.totWaitingIn - w.herder.stats.totWaitingOut =
        UInt64.ofNat (w.count Pc.inWait) ∧
      w.herder.stats.totOnBatchExecuteStartBeg - w.herder.stats.totOnBatchExecuteStartEnd =
        UInt64.ofNat (w.count Pc.inGate) ∧
      (∀ t, w.pc t = .batchWait → 0 < w.herder.waiting) ∧
      (∀ k : Hook H, hookSection awakeWaitersLocked k w = hookSection broadcast k w) ∧
      ∀ (t u : T) (k : Hook H) (rd : Readings H S) (w' : World T H S), w.pc t = .hook k →
        step cfg w (.run t rd) = some w' → w.pc u = .batchWait → w'.pc u = .batchRelock := by
  have hi := h.waitInv
  have parked : ∀ t, w.pc t = .batchWait → 0 < w.herder.waiting := fun t ht => by
    rw [hi.waiting_eq]
    exact_mod_cast World.count_pos (f := Pc.inWait) (t := t) (by rw [ht]; rfl)
  refine ⟨hi.waiting_eq, hi.waitingIn_sub, hi.beg_sub, parked, fun k => ?_,
    fun t u k rd w' ht hs hu => ?_⟩
  · simp only [hookSection, awakeWaitersLocked, World.modifyHerder_herder, k.body_waiting]
    split_ifs with hw
    · rfl
    · exact (broadcast_eq_self (w := w.modifyHerder k.body) fun t ht => hw (parked t ht)).symm
  · have hut : u ≠ t := fun e => by rw [e, ht] at hu; cases hu
    rw [step_run, ht, runPc] at hs
    split_ifs at hs; cases hs
    rw [World.setPc_pc_of_ne _ _ hut, hookSection, awakeWaitersLocked_pc, World.modifyHerder_herder,
      k.body_waiting, if_pos (parked u hu), World.modifyHerder_pc, hu]
    rfl

end Wakeup

/-- A worker over quota with no `overQuotaCh` parks, and goroutine 1 calls
`onPersisterProgress`. -/
def parkedRun : Option (World (Fin 2) ℕ Unit) :=
  run ⟨0, 100, 0, none⟩ World.init
    [.invoke 0 (.onBatchExecuteStart 0 ()), .run 0 ⟨1000, 0, 0, fun _ _ => 1⟩,
      .run 0 ⟨1000, 0, 0, fun _ _ => 1⟩, .invoke 1 (.hook .onPersisterProgress)]

theorem waiting_counts_waiters_parked :
    let w := parkedRun.getD World.init
    Reachable ⟨0, 100, 0, none⟩ w ∧ w.pc 0 = .batchWait ∧ w.pc 1 = .hook .onPersisterProgress ∧
      w.herder.waiting = 1 ∧
      ∀ (rd : Readings ℕ Unit) (w' : World (Fin 2) ℕ Unit),
        step ⟨0, 100, 0, none⟩ w (.run 1 rd) = some w' → w'.pc 0 = .batchRelock :=
  have e : parkedRun = some (parkedRun.getD World.init) := rfl
  have h := Reachable.init.run _ e
  ⟨h, rfl, rfl, rfl, fun rd w' hs => (waiting_counts_waiters _ h).2.2.2.2.2 1 0 _ rd w' rfl hs rfl⟩

end Cbft.Herder
