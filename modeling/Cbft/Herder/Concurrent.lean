import Cbft.Herder.Basic

/-!
# The herder under concurrent callers

Any number of goroutines share one `appHerder`.  Each goroutine `t : T` is at a
program point `Pc`; a step runs one goroutine from one point to the next, and a
step that needs `a.m` is enabled only while nobody holds it.  A section that
holds `a.m` from `Lock` to `Unlock` or to `waitCond.Wait()` is one step, except
that `onBatchExecuteStart` sends on `overQuotaCh` in the middle of its section:
there the goroutine stops at `batchSend` *holding* `a.m` until the send can
proceed.

The condition variable is the set of goroutines at `batchWait`.  `Broadcast`
moves all of them to `batchRelock`, from which each reacquires `a.m` before
`Wait` returns.  The channel `overQuotaCh` of capacity `cap` holds `buffered`
signals; a send proceeds when `buffered < cap` or by handing the signal to a
goroutine blocked in a receive, which is how an unbuffered channel works.

What the goroutines read from outside (memory counters, engine sizes) is the
`Readings` argument of the step, so a run ranges over every behaviour of the
engines and of the process.
-/

namespace Cbft.Herder

/-- The herder hooks that run as one locked section and then call
`awakeWaitersLOCKED`. -/
inductive Hook (H : Type) where
  | onClose (c : H)
  | onPersisterProgress
  | onMergerProgress
  | onMemoryUsedDropped (curMemoryUsed prevMemoryUsed : UInt64)
  | onQueryEnd (depth : Int) (size : UInt64)
  deriving DecidableEq, Repr

/-- A call a goroutine may make: a herder method, or a receive on `overQuotaCh`
by a consumer of the over-quota signal. -/
inductive Op (H S : Type) where
  | onBatchExecuteStart (c : H) (s : S)
  | hook (k : Hook H)
  | onQueryStart (depth : Int) (size : UInt64)
  | stats
  | recvOverQuota

/-- Where a goroutine is. -/
inductive Pc (H S : Type) where
  /-- Between calls. -/
  | idle
  /-- Entered `onBatchExecuteStart(c, s)`, at the `indexQuota < 0` test. -/
  | batchStart (c : H) (s : S)
  /-- Counted in `TotOnBatchExecuteStartBeg`, at `a.m.Lock()`. -/
  | batchLock (c : H) (s : S)
  /-- Over quota, holding `a.m`, at `a.overQuotaCh <- struct{}{}`. -/
  | batchSend
  /-- Parked in `a.waitCond.Wait()`. -/
  | batchWait
  /-- Woken by `Broadcast`, reacquiring `a.m` inside `Wait`. -/
  | batchRelock
  /-- Past `a.m.Unlock()`, at `TotOnBatchExecuteStartEnd++`. -/
  | batchEnd
  /-- At the `a.m.Lock()` of a hook. -/
  | hook (k : Hook H)
  /-- Entered `onQueryStart(depth, size)`. -/
  | queryStart (depth : Int) (size : UInt64)
  /-- Rejected, `a.m` released, at the send on `overQuotaCh`. -/
  | querySend
  /-- In `Stats()`, about to load `TotWaitingIn`. -/
  | statsIn
  /-- In `Stats()`, about to load `TotWaitingOut`. -/
  | statsOut (i : UInt64)
  /-- In `Stats()`, about to load `TotOnBatchExecuteStartBeg`. -/
  | statsBeg (i o : UInt64)
  /-- In `Stats()`, about to load `TotOnBatchExecuteStartEnd`. -/
  | statsEnd (i o b : UInt64)
  /-- `Stats()` returned this map. -/
  | statsRet (m : AppHerderStats)
  /-- Blocked in `<-overQuotaCh`. -/
  | recv
  deriving DecidableEq

/-- The program point a call starts at. -/
def Op.entry {H S : Type} : Op H S → Pc H S
  | .onBatchExecuteStart c s => .batchStart c s
  | .hook k => .hook k
  | .onQueryStart depth size => .queryStart depth size
  | .stats => .statsIn
  | .recvOverQuota => .recv

/-- The herder, its mutex, its channel, and where every goroutine is. -/
structure World (T H S : Type) where
  herder : AppHerder H S
  /-- The goroutine holding `a.m`. -/
  holder : Option T
  /-- Signals buffered in `overQuotaCh`. -/
  buffered : Nat
  pc : T → Pc H S

/-- A step of the scheduler: a goroutine starts a call, a goroutine runs its next
section observing `rd`, or a blocked sender hands its signal to a blocked
receiver. -/
inductive Act (T H S : Type) where
  | invoke (t : T) (op : Op H S)
  | run (t : T) (rd : Readings H S)
  | handoff (sender receiver : T)

variable {T H S : Type}

/-- A freshly built herder with every goroutine idle. -/
def World.init : World T H S :=
  ⟨AppHerder.init, none, 0, fun _ => .idle⟩

/-! ## Pieces of the sections -/

section Pieces

variable (w : World T H S)

/-- Apply a locked section to the herder record. -/
def World.modifyHerder (f : AppHerder H S → AppHerder H S) : World T H S :=
  { w with herder := f w.herder }

@[simp] theorem World.modifyHerder_herder (f : AppHerder H S → AppHerder H S) :
    (w.modifyHerder f).herder = f w.herder := rfl
@[simp] theorem World.modifyHerder_holder (f : AppHerder H S → AppHerder H S) :
    (w.modifyHerder f).holder = w.holder := rfl
@[simp] theorem World.modifyHerder_buffered (f : AppHerder H S → AppHerder H S) :
    (w.modifyHerder f).buffered = w.buffered := rfl
@[simp] theorem World.modifyHerder_pc (f : AppHerder H S → AppHerder H S) :
    (w.modifyHerder f).pc = w.pc := rfl

variable [DecidableEq T]

/-- Move goroutine `t` to `p`. -/
def World.setPc (t : T) (p : Pc H S) : World T H S :=
  { w with pc := Function.update w.pc t p }

@[simp] theorem World.setPc_herder (t : T) (p : Pc H S) : (w.setPc t p).herder = w.herder := rfl
@[simp] theorem World.setPc_holder (t : T) (p : Pc H S) : (w.setPc t p).holder = w.holder := rfl
@[simp] theorem World.setPc_buffered (t : T) (p : Pc H S) :
    (w.setPc t p).buffered = w.buffered := rfl
@[simp] theorem World.setPc_pc (t : T) (p : Pc H S) :
    (w.setPc t p).pc = Function.update w.pc t p := rfl

/-- Where a goroutine was moved to. -/
@[simp] theorem World.setPc_pc_self (t : T) (p : Pc H S) : (w.setPc t p).pc t = p := by
  rw [World.setPc_pc, Function.update_same]

/-- Only the last move of a goroutine counts. -/
@[simp] theorem World.setPc_setPc (t : T) (p q : Pc H S) : (w.setPc t p).setPc t q = w.setPc t q := by
  simp only [World.setPc, Function.update_idem]

/-- Moving one goroutine leaves the others where they are. -/
theorem World.setPc_pc_of_ne {t u : T} (p : Pc H S) (h : u ≠ t) : (w.setPc t p).pc u = w.pc u := by
  rw [World.setPc_pc, Function.update_noteq h]

end Pieces

/-- `atomic.AddUint64(&a.stats.TotOnBatchExecuteStartBeg, 1)`. -/
def incBeg (a : AppHerder H S) : AppHerder H S :=
  { a with stats := { a.stats with totOnBatchExecuteStartBeg := a.stats.totOnBatchExecuteStartBeg + 1 } }

/-- `atomic.AddUint64(&a.stats.TotOnBatchExecuteStartEnd, 1)`. -/
def incEnd (a : AppHerder H S) : AppHerder H S :=
  { a with stats := { a.stats with totOnBatchExecuteStartEnd := a.stats.totOnBatchExecuteStartEnd + 1 } }

/-- Entering the wait: `TotWaitingIn++` and `a.waiting++`. -/
def waitIn (a : AppHerder H S) : AppHerder H S :=
  { a with waiting := a.waiting + 1,
           stats := { a.stats with totWaitingIn := a.stats.totWaitingIn + 1 } }

/-- Back from the wait: `a.waiting--` and `TotWaitingOut++`. -/
def waitOut (a : AppHerder H S) : AppHerder H S :=
  { a with waiting := a.waiting - 1,
           stats := { a.stats with totWaitingOut := a.stats.totWaitingOut + 1 } }

/-- What `Broadcast` does to one goroutine: a parked one is woken. -/
def Pc.wake : Pc H S → Pc H S
  | .batchWait => .batchRelock
  | p => p

/-- `a.waitCond.Broadcast()`: every parked goroutine is woken. -/
def broadcast (w : World T H S) : World T H S :=
  { w with pc := fun t => (w.pc t).wake }

/-- `awakeWaitersLOCKED`: broadcast when `a.waiting > 0`. -/
def awakeWaitersLocked (w : World T H S) : World T H S :=
  if 0 < w.herder.waiting then broadcast w else w

/-- The body of a hook, before it wakes the waiters. -/
def Hook.body [DecidableEq H] : Hook H → AppHerder H S → AppHerder H S
  | .onClose c, a => unregister a c
  | .onQueryEnd _ size, a => Cbft.Herder.onQueryEnd a size
  | _, a => a

@[simp] theorem Hook.body_waiting [DecidableEq H] (k : Hook H) (a : AppHerder H S) :
    (k.body a).waiting = a.waiting := by cases k <;> rfl

@[simp] theorem Hook.body_stats [DecidableEq H] (k : Hook H) (a : AppHerder H S) :
    (k.body a).stats = a.stats := by cases k <;> rfl

/-- What `awakeWaitersLOCKED` does to one goroutine's point. -/
theorem awakeWaitersLocked_pc (w : World T H S) (t : T) :
    (awakeWaitersLocked w).pc t = if 0 < w.herder.waiting then (w.pc t).wake else w.pc t := by
  unfold awakeWaitersLocked; split_ifs <;> rfl

/-- `awakeWaitersLOCKED` moves goroutines only. -/
@[simp] theorem awakeWaitersLocked_herder (w : World T H S) :
    (awakeWaitersLocked w).herder = w.herder := by
  unfold awakeWaitersLocked; split_ifs <;> rfl

/-- A hook's locked section, waking the waiters with `wake`: the source uses
`awakeWaitersLocked`. -/
def hookSection [DecidableEq H] (wake : World T H S → World T H S) (k : Hook H)
    (w : World T H S) : World T H S :=
  wake (w.modifyHerder k.body)

/-- A hook's section changes the herder by its body. -/
@[simp] theorem hookSection_herder [DecidableEq H] (k : Hook H) (w : World T H S) :
    (hookSection awakeWaitersLocked k w).herder = k.body w.herder := by
  simp only [hookSection, awakeWaitersLocked_herder, World.modifyHerder_herder]

/-! ## The step function -/

section Step

variable [DecidableEq T] [DecidableEq H] (cfg : Config)

/-- The `for a.overMemQuotaForIndexingLOCKED()` test of goroutine `t`, holding
`a.m`: over quota it enters the wait and either stops at the send, still holding
`a.m`, or parks and releases it; otherwise it unlocks and leaves the gate. -/
def loopCheck (rd : Readings H S) (t : T) (w : World T H S) : World T H S :=
  if overMemQuotaForIndexingLocked cfg rd w.herder then
    match cfg.overQuotaCh with
    | some _ => ({ w.modifyHerder waitIn with holder := some t }).setPc t .batchSend
    | none => ({ w.modifyHerder waitIn with holder := none }).setPc t .batchWait
  else ({ w with holder := none }).setPc t .batchEnd

omit [DecidableEq H] in
/-- The loop test enters the wait when over quota and changes the herder in no
other way. -/
theorem loopCheck_herder (rd : Readings H S) (t : T) (w : World T H S) :
    (loopCheck cfg rd t w).herder =
      if overMemQuotaForIndexingLocked cfg rd w.herder then waitIn w.herder else w.herder := by
  unfold loopCheck
  split_ifs <;> (try split) <;> rfl

/-- A send on `overQuotaCh` into its buffer, when there is room. -/
def bufferSend (w : World T H S) : Option (World T H S) :=
  match cfg.overQuotaCh with
  | some cap => if w.buffered < cap then some { w with buffered := w.buffered + 1 } else none
  | none => none

omit [DecidableEq T] [DecidableEq H] in
/-- A buffered send only adds the signal to the buffer. -/
theorem bufferSend_eq_some {w w' : World T H S} (h : bufferSend cfg w = some w') :
    w' = { w with buffered := w.buffered + 1 } := by
  unfold bufferSend at h
  split at h
  · split_ifs at h; exact (Option.some.inj h).symm
  · cases h

/-- Goroutine `t` runs its next section, observing `rd`; `none` when it is
blocked or idle. -/
def runPc (rd : Readings H S) (t : T) (w : World T H S) : Pc H S → Option (World T H S)
  | .idle => none
  | .batchStart c s =>
    if cfg.indexQuota.slt 0 then some (w.setPc t .idle)
    else some ((w.modifyHerder incBeg).setPc t (.batchLock c s))
  | .batchLock c s =>
    if w.holder.isNone then some (loopCheck cfg rd t (w.modifyHerder (register · c s))) else none
  | .batchSend => (bufferSend cfg w).map fun w => ({ w with holder := none }).setPc t .batchWait
  | .batchWait => none
  | .batchRelock =>
    if w.holder.isNone then some (loopCheck cfg rd t (w.modifyHerder waitOut)) else none
  | .batchEnd => some ((w.modifyHerder incEnd).setPc t .idle)
  | .hook k => if w.holder.isNone then some ((hookSection awakeWaitersLocked k w).setPc t .idle) else none
  | .queryStart depth size =>
    if cfg.queryQuota.slt 0 || w.holder.isNone then
      let r := onQueryStart cfg w.herder rd.curMemoryUsed depth size
      some ({ w with herder := r.1 }.setPc t
        (if r.2.isSome && cfg.overQuotaCh.isSome then .querySend else .idle))
    else none
  | .querySend => (bufferSend cfg w).map fun w => w.setPc t .idle
  | .statsIn => some (w.setPc t (.statsOut w.herder.stats.totWaitingIn))
  | .statsOut i => some (w.setPc t (.statsBeg i w.herder.stats.totWaitingOut))
  | .statsBeg i o => some (w.setPc t (.statsEnd i o w.herder.stats.totOnBatchExecuteStartBeg))
  | .statsEnd i o b => some (w.setPc t (.statsRet ⟨i, o, b, w.herder.stats.totOnBatchExecuteStartEnd⟩))
  | .statsRet _ => some (w.setPc t .idle)
  | .recv => if 0 < w.buffered then some ({ w with buffered := w.buffered - 1 }.setPc t .idle) else none

/-- One step of the system. -/
def step (w : World T H S) : Act T H S → Option (World T H S)
  | .invoke t op => match w.pc t with
    | .idle => some (w.setPc t op.entry)
    | _ => none
  | .run t rd => runPc cfg rd t w (w.pc t)
  | .handoff s r => match w.pc s, w.pc r with
    | .batchSend, .recv => some ((({ w with holder := none }).setPc s .batchWait).setPc r .idle)
    | .querySend, .recv => some ((w.setPc s .idle).setPc r .idle)
    | _, _ => none

/-- A `run` step executes the goroutine's current program point. -/
theorem step_run (w : World T H S) (t : T) (rd : Readings H S) :
    step cfg w (.run t rd) = runPc cfg rd t w (w.pc t) := rfl

/-- The four loads of `Stats()`, one step each. -/
@[simp] theorem runPc_statsIn (rd : Readings H S) (t : T) (w : World T H S) :
    runPc cfg rd t w .statsIn = some (w.setPc t (.statsOut w.herder.stats.totWaitingIn)) := rfl
@[simp] theorem runPc_statsOut (rd : Readings H S) (t : T) (w : World T H S) (i : UInt64) :
    runPc cfg rd t w (.statsOut i) = some (w.setPc t (.statsBeg i w.herder.stats.totWaitingOut)) :=
  rfl
@[simp] theorem runPc_statsBeg (rd : Readings H S) (t : T) (w : World T H S) (i o : UInt64) :
    runPc cfg rd t w (.statsBeg i o) =
      some (w.setPc t (.statsEnd i o w.herder.stats.totOnBatchExecuteStartBeg)) := rfl
@[simp] theorem runPc_statsEnd (rd : Readings H S) (t : T) (w : World T H S) (i o b : UInt64) :
    runPc cfg rd t w (.statsEnd i o b) =
      some (w.setPc t (.statsRet ⟨i, o, b, w.herder.stats.totOnBatchExecuteStartEnd⟩)) := rfl

/-- The states a run from `World.init` can reach. -/
inductive Reachable : World T H S → Prop
  | init : Reachable World.init
  | step {w w' : World T H S} (a : Act T H S) : Reachable w → step cfg w a = some w' → Reachable w'

/-- Running a list of steps, failing at the first one that is not enabled. -/
def run (w : World T H S) : List (Act T H S) → Option (World T H S)
  | [] => some w
  | a :: as => (step cfg w a).bind fun w' => run w' as

/-- What a run from a reachable state reaches is reachable. -/
theorem Reachable.run {w w' : World T H S} (h : Reachable cfg w) :
    ∀ {as : List (Act T H S)}, run cfg w as = some w' → Reachable cfg w'
  | [], e => by cases e; exact h
  | a :: as, e => by
    obtain ⟨w₁, h₁, h₂⟩ := Option.bind_eq_some.mp e
    exact (h.step a h₁).run h₂

end Step

end Cbft.Herder
