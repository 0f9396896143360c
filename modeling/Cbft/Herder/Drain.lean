import Cbft.Herder.Engines
import Cbft.Herder.Signals
import Mathlib.Algebra.Order.BigOperators.Group.Finset

/-!
# Draining the herder

`overQuotaCh_send_deadlock` wedges the herder with every goroutine inside a
call.  One goroutine between calls is enough to prevent this: once the gate lets
workers through (for instance when every index reports zero, the MB-29504
workaround), a goroutine `u` that receives the pending over-quota signals and
reports persister progress brings every other goroutine back between calls,
except those receiving on the channel (`drains_with_idle_goroutine`).  The
schedule starts no call of any other goroutine: it runs pending sections, hands
the signal of a blocked sender to `u`, and lets `u` call `onPersisterProgress`.
This holds for a nil channel and for a channel of any capacity.

A goroutine inside a call fails to run its next section only when it is parked
in `Wait`, receives on an empty channel, sends on a full one, or takes `a.m`
while it is held (`runPc_eq_none_iff`).  The proof is by a measure, the number
of sections each goroutine still has to run (`Pc.rank`).  A section of goroutine `t` lowers the rank of `t` and moves no
other goroutine, except that a hook wakes the parked ones (`runPc_drains`); a
sender is released by a handoff to `u`, and a parked worker by the hook of `u`.
-/

namespace Cbft.Herder

variable {T H S : Type}

/-! ## Blocked sections -/

/-- The capacity of `overQuotaCh`, `0` when it is nil. -/
def capacity (cfg : Config) : Nat := cfg.overQuotaCh.getD 0

/-- A send into the buffer is blocked exactly when the buffer is full. -/
theorem bufferSend_eq_none_iff [DecidableEq T] [DecidableEq H] (cfg : Config) (w : World T H S) :
    bufferSend cfg w = none ↔ capacity cfg ≤ w.buffered := by
  unfold bufferSend capacity
  cases cfg.overQuotaCh with
  | none => simp
  | some cap => by_cases h : w.buffered < cap <;> simp [h, Nat.not_lt.1]

/-- Whether the section a goroutine runs next starts with `a.m.Lock()`: the
entry of `onBatchExecuteStart`, the reacquisition inside `Wait`, a hook, and
`onQueryStart` unless a negative `queryQuota` returns before the lock. -/
def Pc.locks (cfg : Config) : Pc H S → Bool
  | .batchLock _ _ | .batchRelock | .hook _ => true
  | .queryStart _ _ => !cfg.queryQuota.slt 0
  | _ => false

/-- When a section is not enabled, in any state: at no point of a call, parked,
receiving on an empty channel, sending on a full one, or taking a held `a.m`. -/
theorem runPc_eq_none_iff [DecidableEq T] [DecidableEq H] (cfg : Config) (rd : Readings H S) (t : T)
    (w : World T H S) (p : Pc H S) :
    runPc cfg rd t w p = none ↔
      p = .idle ∨ p = .batchWait ∨ (p = .recv ∧ w.buffered = 0) ∨
        ((p = .batchSend ∨ p = .querySend) ∧ capacity cfg ≤ w.buffered) ∨
        (p.locks cfg = true ∧ w.holder.isSome = true) := by
  cases p <;> simp only [runPc] <;> (try split_ifs) <;>
    simp_all [Pc.locks, ← bufferSend_eq_none_iff, Option.isNone_iff_eq_none, Option.isSome_iff_ne_none,
      imp_iff_not_or, Nat.pos_iff_ne_zero]

/-! ## The measure -/

/-- The sections a goroutine still has to run to get back between calls, with
being woken from `Wait` and handing a signal over counted as one each.  A
receive waits for a sender, and counts nothing. -/
def Pc.rank : Pc H S → Nat
  | .idle | .recv => 0
  | .batchEnd | .hook _ | .querySend | .statsRet _ => 1
  | .batchLock _ _ | .batchRelock | .queryStart _ _ | .statsEnd _ _ _ => 2
  | .batchStart _ _ | .batchWait | .statsBeg _ _ => 3
  | .batchSend | .statsOut _ => 4
  | .statsIn => 5

/-- Waking lowers a parked goroutine's rank and keeps every other. -/
theorem Pc.rank_wake_le (p : Pc H S) : p.wake.rank ≤ p.rank := by
  cases p <;> simp [Pc.wake, Pc.rank]

theorem Pc.rank_eq_zero_iff (p : Pc H S) : p.rank = 0 ↔ p = .idle ∨ p = .recv := by
  cases p <;> simp [Pc.rank]

/-- The ranks of all goroutines. -/
def World.rank [Fintype T] (w : World T H S) : Nat :=
  ∑ t, (w.pc t).rank

/-- A move that lowers one goroutine's rank and wakes others at most lowers the
measure. -/
theorem World.rank_lt [Fintype T] {w w' : World T H S} {t : T}
    (ht : (w'.pc t).rank < (w.pc t).rank)
    (hu : ∀ u ≠ t, w'.pc u = w.pc u ∨ w'.pc u = (w.pc u).wake) : w'.rank < w.rank := by
  refine Finset.sum_lt_sum (fun u _ => ?_) ⟨t, Finset.mem_univ t, ht⟩
  by_cases h : u = t
  · exact h ▸ ht.le
  · rcases hu u h with e | e <;> rw [e]
    exact Pc.rank_wake_le _

/-- The steps of a drain by `u`: a pending section observing `rd`, the handoff
of a blocked sender's signal to `u`, and the two calls `u` makes, a receive on
`overQuotaCh` and `onPersisterProgress`. -/
def DrainAct (rd : Readings H S) (u : T) : Act T H S → Prop
  | .run _ rd' => rd' = rd
  | .handoff _ r => r = u
  | .invoke t op => t = u ∧ (op = .recvOverQuota ∨ op = .hook .onPersisterProgress)

/-! ## One section -/

section Section

variable [DecidableEq T] [DecidableEq H] (cfg : Config)

omit [DecidableEq H] in
/-- The loop test of a worker that finds memory within quota. -/
theorem loopCheck_of_open {rd : Readings H S} {w : World T H S} (t : T)
    (hg : overMemQuotaForIndexingLocked cfg rd w.herder = false) :
    loopCheck cfg rd t w = ({ w with holder := none }).setPc t .batchEnd := by
  unfold loopCheck
  rw [if_neg (by simp [hg])]

/-- A run in two parts is the second part run after the first. -/
theorem run_append (w : World T H S) (as as' : List (Act T H S)) :
    run cfg w (as ++ as') = (run cfg w as).bind (run cfg · as') := by
  induction as generalizing w with
  | nil => rfl
  | cons a as ih => simp only [List.cons_append, run, List.append_eq, Option.bind_assoc, ih]

/-- With the gate open, a section of goroutine `t` lowers its rank, and moves no
other goroutine except that a hook wakes the parked ones. -/
theorem runPc_drains {rd : Readings H S} (hg : ∀ a, overMemQuotaForIndexingLocked cfg rd a = false)
    {w w' : World T H S} {t : T} {p : Pc H S} (ht : 0 < p.rank)
    (h : runPc cfg rd t w p = some w') :
    (w'.pc t).rank < p.rank ∧ ∀ u ≠ t, w'.pc u = w.pc u ∨ w'.pc u = (w.pc u).wake := by
  have moved : ∀ (w₀ : World T H S) (q : Pc H S), w' = w₀.setPc t q → w₀.pc = w.pc →
      q.rank < p.rank →
      (w'.pc t).rank < p.rank ∧ ∀ u ≠ t, w'.pc u = w.pc u ∨ w'.pc u = (w.pc u).wake := by
    rintro w₀ q rfl hpc hq
    exact ⟨by rwa [World.setPc_pc_self], fun u hu => .inl (by rw [World.setPc_pc_of_ne _ _ hu, hpc])⟩
  cases p <;> simp only [runPc] at h
  case idle | recv => simp [Pc.rank] at ht
  case batchWait => cases h
  case batchSend | querySend =>
    obtain ⟨w₁, h₁, rfl⟩ := Option.map_eq_some'.1 h
    cases bufferSend_eq_some cfg h₁
    exact moved _ _ rfl rfl (by simp [Pc.rank])
  case batchLock c s | batchRelock =>
    split_ifs at h; cases h
    exact moved _ _ (loopCheck_of_open cfg t (hg _)) rfl (by simp [Pc.rank])
  case hook k =>
    split_ifs at h; cases h
    refine ⟨by simp [Pc.rank], fun u hu => ?_⟩
    rw [World.setPc_pc_of_ne _ _ hu, hookSection, awakeWaitersLocked_pc]
    split_ifs
    exacts [.inr rfl, .inl rfl]
  all_goals (try split_ifs at h) <;> cases h <;> exact moved _ _ rfl rfl (by simp [Pc.rank])

end Section

/-! ## Whole runs -/

section Drain

variable [Fintype T] [DecidableEq T] [DecidableEq H] (cfg : Config)

/-- `u` receives the signal of a goroutine `v` blocked in a send. -/
theorem exists_handoff_rank_lt {rd : Readings H S} {w : World T H S} {u v : T}
    (hu : w.pc u = .idle) (hv : w.pc v = .batchSend ∨ w.pc v = .querySend) :
    ∃ as w', run cfg w as = some w' ∧ (∀ a ∈ as, DrainAct rd u a) ∧
      w'.pc u = .idle ∧ w'.rank < w.rank := by
  have hvu : v ≠ u := fun e => by rcases hv with hv | hv <;> rw [e, hu] at hv <;> cases hv
  have frame : ∀ (w' : World T H S) (q : Pc H S), w'.pc = Function.update
      (Function.update w.pc v q) u .idle → q.rank < (w.pc v).rank → w'.rank < w.rank :=
    fun w' q he hq => World.rank_lt (t := v) (by rwa [he, Function.update_noteq hvu,
      Function.update_same]) fun x hx => .inl (by
        rw [he]
        by_cases hxu : x = u
        · rw [hxu, Function.update_same, hu]
        · rw [Function.update_noteq hxu, Function.update_noteq hx])
  have hacts : ∀ a ∈ [Act.invoke u .recvOverQuota, .handoff v u], DrainAct rd u a := by
    simp [DrainAct]
  rcases hv with hv | hv
  · refine ⟨_, ((({ w.setPc u .recv with holder := none }).setPc v .batchWait).setPc u .idle),
      ?_, hacts, World.setPc_pc_self _ _ _, frame _ .batchWait ?_ (by simp [hv, Pc.rank])⟩
    · simp [run, step, Op.entry, hu, hv, World.setPc_pc_of_ne _ _ hvu]
    · simp only [World.setPc_pc]; rw [Function.update_comm hvu.symm, Function.update_idem]
  · refine ⟨_, (((w.setPc u .recv).setPc v .idle).setPc u .idle), ?_, hacts,
      World.setPc_pc_self _ _ _, frame _ .idle ?_ (by simp [hv, Pc.rank])⟩
    · simp [run, step, Op.entry, hu, hv, World.setPc_pc_of_ne _ _ hvu]
    · simp only [World.setPc_pc]; rw [Function.update_comm hvu.symm, Function.update_idem]

/-- `u` reports persister progress, which wakes a parked goroutine `t`. -/
theorem exists_wake_rank_lt {rd : Readings H S} {w : World T H S} {u t : T}
    (hh : w.holder = none) (hpos : 0 < w.herder.waiting) (hu : w.pc u = .idle)
    (hw : w.pc t = .batchWait) :
    ∃ as w', run cfg w as = some w' ∧ (∀ a ∈ as, DrainAct rd u a) ∧
      w'.pc u = .idle ∧ w'.rank < w.rank := by
  have htu : t ≠ u := fun e => by rw [e, hu] at hw; cases hw
  let w₁ := w.setPc u (.hook .onPersisterProgress)
  let w' := (hookSection awakeWaitersLocked .onPersisterProgress w₁).setPc u .idle
  have hw' : ∀ v ≠ u, w'.pc v = (w.pc v).wake := fun v hv => by
    simp only [w', w₁, World.setPc_pc_of_ne _ _ hv, hookSection, awakeWaitersLocked_pc,
      World.modifyHerder_pc, World.modifyHerder_herder, Hook.body_waiting, World.setPc_herder,
      if_pos hpos]
  refine ⟨[.invoke u (.hook .onPersisterProgress), .run u rd], w',
    by simp [run, step, runPc, Op.entry, hu, hh, w', w₁], by simp [DrainAct],
    World.setPc_pc_self _ _ _,
    World.rank_lt (t := t) (by rw [hw' t htu, hw]; simp [Pc.wake, Pc.rank]) fun v hv => ?_⟩
  by_cases hvu : v = u
  · subst hvu; exact .inl (by rw [hu]; exact World.setPc_pc_self _ _ _)
  · exact .inr (hw' v hvu)

/-- With `a.m` free and the gate open, a goroutine `t` with sections left that is
neither parked nor sending runs its next section. -/
theorem exists_section_rank_lt {rd : Readings H S}
    (hg : ∀ a, overMemQuotaForIndexingLocked cfg rd a = false) {w : World T H S} {u t : T}
    (hh : w.holder = none) (hu : w.pc u = .idle) (ht : 0 < (w.pc t).rank)
    (hw : w.pc t ≠ .batchWait) (hs : ¬ (w.pc t = .batchSend ∨ w.pc t = .querySend)) :
    ∃ as w', run cfg w as = some w' ∧ (∀ a ∈ as, DrainAct rd u a) ∧
      w'.pc u = .idle ∧ w'.rank < w.rank := by
  have htu : t ≠ u := fun e => by rw [e, hu] at ht; simp [Pc.rank] at ht
  have hne : runPc cfg rd t w (w.pc t) ≠ none := by
    rw [Ne, runPc_eq_none_iff, hh]
    rintro (h0 | h0 | ⟨h0, -⟩ | ⟨h0, -⟩ | ⟨-, h0⟩)
    · rw [h0] at ht; simp [Pc.rank] at ht
    · exact hw h0
    · rw [h0] at ht; simp [Pc.rank] at ht
    · exact hs h0
    · simp at h0
  obtain ⟨w', h'⟩ := Option.ne_none_iff_exists'.1 hne
  obtain ⟨hlt, hother⟩ := runPc_drains cfg hg ht h'
  refine ⟨[.run t rd], w', by simp [run, step_run, h'], by simp [DrainAct], ?_,
    World.rank_lt hlt hother⟩
  rcases hother u htu.symm with e | e <;> rw [e, hu]; rfl

/-- In a reachable state with the gate open, a goroutine with sections left gets
a run by the steps of a drain that lowers the measure and keeps `u` idle: the
handoff of a pending signal to `u`, the `onPersisterProgress` of `u` when the
goroutine is parked, or its own next section. -/
theorem exists_run_rank_lt {rd : Readings H S}
    (hg : ∀ a, overMemQuotaForIndexingLocked cfg rd a = false) {w : World T H S}
    (h : Reachable cfg w) {u t : T} (hu : w.pc u = .idle) (ht : 0 < (w.pc t).rank) :
    ∃ as w', run cfg w as = some w' ∧ (∀ a ∈ as, DrainAct rd u a) ∧
      w'.pc u = .idle ∧ w'.rank < w.rank := by
  by_cases hv : ∃ v, w.pc v = .batchSend ∨ w.pc v = .querySend
  · obtain ⟨v, hv⟩ := hv
    exact exists_handoff_rank_lt cfg hu hv
  have hh : w.holder = none := by
    cases hw : w.holder with
    | none => rfl
    | some v => exact absurd ⟨v, .inl ((holder_eq_some_iff cfg h v).1 hw)⟩ hv
  by_cases hw : w.pc t = .batchWait
  · have hpos : 0 < w.herder.waiting := by
      rw [(Reachable.waitInv cfg h).waiting_eq]
      exact_mod_cast World.count_pos (f := Pc.inWait) (t := t) (by rw [hw]; rfl)
    exact exists_wake_rank_lt cfg hh hpos hu hw
  · exact exists_section_rank_lt cfg hg hh hu ht hw fun hs => hv ⟨t, hs⟩

/-- From every reachable state with a goroutine `u` between calls, under readings
that let every worker through the gate, some schedule brings every goroutine
back between calls, except those receiving on `overQuotaCh`.  The schedule only
runs pending sections, hands the signal of a blocked sender to `u`, and lets `u`
receive on `overQuotaCh` and call `onPersisterProgress`: no worker stays parked
or blocked in its send, whatever the channel's capacity. -/
theorem drains_with_idle_goroutine {rd : Readings H S}
    (hg : ∀ a, overMemQuotaForIndexingLocked cfg rd a = false) {w : World T H S}
    (h : Reachable cfg w) {u : T} (hu : w.pc u = .idle) :
    ∃ as w', run cfg w as = some w' ∧ (∀ a ∈ as, DrainAct rd u a) ∧
      ∀ t, w'.pc t = .idle ∨ w'.pc t = .recv := by
  obtain ⟨n, hn⟩ : ∃ n, w.rank = n := ⟨_, rfl⟩
  induction n using Nat.strong_induction_on generalizing w with
  | _ n ih =>
    by_cases hall : ∀ t, (w.pc t).rank = 0
    · exact ⟨[], w, rfl, by simp, fun t => (Pc.rank_eq_zero_iff _).1 (hall t)⟩
    · obtain ⟨t, ht⟩ := not_forall.1 hall
      obtain ⟨as₁, w₁, h₁, ha₁, hu₁, hlt⟩ :=
        exists_run_rank_lt cfg hg h hu (Nat.pos_of_ne_zero ht)
      obtain ⟨as₂, w₂, h₂, ha₂, hdone⟩ := ih _ (hn ▸ hlt) (h.run cfg h₁) hu₁ rfl
      refine ⟨as₁ ++ as₂, w₂, by rw [run_append, h₁]; exact h₂, fun a ha => ?_, hdone⟩
      rcases List.mem_append.1 ha with ha | ha
      exacts [ha₁ a ha, ha₂ a ha]

end Drain

/-- Readings under which every worker passes the gate: every index reports zero. -/
def flushedReadings : Readings ℕ Unit := ⟨1000, 0, 0, fun _ _ => 0⟩

/-- Worker 0 goes over quota, fills the channel of capacity one and parks;
worker 1 goes over quota and blocks in its send holding `a.m`; goroutine 2 is
between calls. -/
def sendBlockedRun : Option (World (Fin 3) ℕ Unit) :=
  run signalConfig World.init
    [.invoke 0 (.onBatchExecuteStart 0 ()), .run 0 overReadings, .run 0 overReadings,
      .run 0 overReadings, .invoke 1 (.onBatchExecuteStart 1 ()), .run 1 overReadings,
      .run 1 overReadings]

theorem drains_with_idle_goroutine_sendBlocked :
    let w := sendBlockedRun.getD World.init
    Reachable signalConfig w ∧ w.pc 1 = .batchSend ∧ w.pc 2 = .idle ∧
      ∃ as w', run signalConfig w as = some w' ∧ (∀ a ∈ as, DrainAct flushedReadings 2 a) ∧
        ∀ t, w'.pc t = .idle ∨ w'.pc t = .recv :=
  have e : sendBlockedRun = some (sendBlockedRun.getD World.init) := rfl
  have h := Reachable.init.run _ e
  ⟨h, rfl, rfl, drains_with_idle_goroutine _
    (fun a => overMemQuotaForIndexingLocked_of_sizes_zero _ flushedReadings a fun _ _ => rfl) h rfl⟩

end Cbft.Herder
