import Cbft.Herder.Engines

/-!
# The registry of indexes

`a.indexes` is what the indexing gate sums over.  Two sections change it:
`onBatchExecuteStart` sets `a.indexes[c] = s` when it takes `a.m`, and `onClose`
deletes `c`; a worker woken from `Wait` re-checks the quota without registering
again, and no other section touches the map.

We say what the registry is for with a history of `IndexEvent`s: after a
history, the registry maps a handle to the size function of its last
registration, unless a close of that handle came after it (`registered`).  The
concurrent system refines this reading: over any run of any goroutines, the map
the code keeps is `registered` of the run's history of registrations and closes
(`run_registry_refines`).  So a closed index never holds a worker back, until a
new batch of it registers it again.
-/

namespace Cbft.Herder

variable {T H S : Type}

/-! ## Histories of registrations and closes -/

/-- A change to `a.indexes`. -/
inductive IndexEvent (H S : Type) where
  /-- `a.indexes[c] = s` in `onBatchExecuteStart`. -/
  | register (c : H) (s : S)
  /-- `delete(a.indexes, c)` in `onClose`. -/
  | close (c : H)
  deriving DecidableEq, Repr

/-- The handle an event is about. -/
def IndexEvent.handle : IndexEvent H S → H
  | .register c _ => c
  | .close c => c

/-- The size function an event leaves registered for its handle. -/
def IndexEvent.sizeFunc : IndexEvent H S → Option S
  | .register _ s => some s
  | .close _ => none

variable [DecidableEq H]

/-- What an event does to the map, as the two sections do it. -/
def IndexEvent.apply : IndexEvent H S → AList (fun _ : H => S) → AList (fun _ : H => S)
  | .register c s, m => m.insert c s
  | .close c, m => m.erase c

/-- The last event of a history about handle `c`. -/
def lastEventOf (evs : List (IndexEvent H S)) (c : H) : Option (IndexEvent H S) :=
  evs.reverse.find? fun e => e.handle = c

/-- What the registry should hold for `c` after a history, starting empty: the
size function of the last registration of `c`, unless `c` was closed after it. -/
def registered (evs : List (IndexEvent H S)) (c : H) : Option S :=
  (lastEventOf evs c).bind IndexEvent.sizeFunc

/-- An event changes the entry of its own handle only. -/
theorem IndexEvent.lookup_apply (e : IndexEvent H S) (m : AList (fun _ : H => S)) (c : H) :
    (e.apply m).lookup c = if e.handle = c then e.sizeFunc else m.lookup c := by
  cases e with
  | register d s =>
    by_cases h : d = c
    · subst h; simp [IndexEvent.apply, IndexEvent.handle, IndexEvent.sizeFunc, AList.lookup_insert]
    · simp [IndexEvent.apply, IndexEvent.handle, h, AList.lookup_insert_ne (Ne.symm h)]
  | close d =>
    by_cases h : d = c
    · subst h; simp [IndexEvent.apply, IndexEvent.handle, IndexEvent.sizeFunc, AList.lookup_erase]
    · simp [IndexEvent.apply, IndexEvent.handle, h, AList.lookup_erase_ne (Ne.symm h)]

/-- After a history, the entry of `c` is what the last event about `c` left, or
the entry before the history when no event is about `c`. -/
theorem lookup_foldl_apply (c : H) : ∀ (evs : List (IndexEvent H S)) (m : AList (fun _ : H => S)),
    (evs.foldl (fun m e => e.apply m) m).lookup c =
      ((lastEventOf evs c).map IndexEvent.sizeFunc).getD (m.lookup c)
  | [], _ => rfl
  | e :: evs, m => by
    have hl : lastEventOf (e :: evs) c = (lastEventOf evs c).or ([e].find? fun e => e.handle = c) := by
      simp only [lastEventOf, List.reverse_cons, List.find?_append]
    rw [List.foldl_cons, lookup_foldl_apply c evs, hl]
    cases lastEventOf evs c with
    | some x => rfl
    | none =>
      rw [IndexEvent.lookup_apply, List.find?_singleton]
      split_ifs <;> simp_all

/-- The registry a history builds from an empty map is `registered`. -/
theorem registered_eq_lookup (evs : List (IndexEvent H S)) (c : H) :
    registered evs c = (evs.foldl (fun m e => e.apply m) (∅ : AList fun _ : H => S)).lookup c := by
  rw [lookup_foldl_apply, AList.lookup_empty, registered]
  cases lastEventOf evs c <;> rfl

/-! ## The registrations and closes of a concurrent run -/

section Concurrent

variable [DecidableEq T] (cfg : Config)

/-- The registry change that a step makes, if any. -/
def indexEventOf (w : World T H S) : Act T H S → Option (IndexEvent H S)
  | .run t _ =>
    match w.pc t with
    | .batchLock c s => some (.register c s)
    | .hook (.onClose c) => some (.close c)
    | _ => none
  | _ => none

/-- The registry changes of a run, in order, up to its first step that is not
enabled. -/
def indexEvents : World T H S → List (Act T H S) → List (IndexEvent H S)
  | _, [] => []
  | w, a :: as => (indexEventOf w a).toList ++ ((step cfg w a).map (indexEvents · as)).getD []

/-- A step changes the registry by the event it makes, and otherwise not at all. -/
theorem step_indexes {w w' : World T H S} {a : Act T H S} (h : step cfg w a = some w') :
    w'.herder.indexes = (indexEventOf w a).toList.foldl (fun m e => e.apply m) w.herder.indexes := by
  cases a with
  | invoke t op =>
    simp only [step] at h
    split at h <;> cases h
    rfl
  | handoff s r =>
    simp only [step] at h
    split at h <;> cases h <;> rfl
  | run t rd =>
    rw [step_run] at h
    cases hp : w.pc t <;> rw [hp, runPc] at h <;> simp only [indexEventOf, hp]
    case batchLock c s | batchRelock =>
      split_ifs at h; cases h
      rw [loopCheck_indexes]; rfl
    case hook k =>
      split_ifs at h; cases h
      cases k <;> simp [Hook.body, unregister, Cbft.Herder.onQueryEnd, IndexEvent.apply]
    case queryStart d s =>
      split_ifs at h; cases h
      simp only [World.setPc_herder]
      rw [onQueryStart_fst_eq]; rfl
    case batchSend | querySend =>
      obtain ⟨_, hb, rfl⟩ := Option.map_eq_some'.1 h
      rw [bufferSend_eq_some cfg hb]; rfl
    all_goals (try split_ifs at h) <;> cases h <;> rfl

/-- A run changes the registry by the events of its history. -/
theorem run_indexes : ∀ {w w' : World T H S} {as : List (Act T H S)}, run cfg w as = some w' →
    w'.herder.indexes = (indexEvents cfg w as).foldl (fun m e => e.apply m) w.herder.indexes
  | _, _, [], h => by cases h; rfl
  | _, _, a :: as, h => by
    obtain ⟨w₁, h₁, h₂⟩ := Option.bind_eq_some.1 h
    rw [indexEvents, h₁, Option.map_some', Option.getD_some, List.foldl_append, ← step_indexes cfg h₁]
    exact run_indexes h₂

/-- Over any run of any goroutines from a fresh herder, the registry maps each
handle to the size function of its last registration not followed by a close of
it, and to nothing otherwise; so the indexing gate lets every worker through
whenever the indexes registered in this sense all report zero, whatever the
closed ones report. -/
theorem run_registry_refines {as : List (Act T H S)} {w : World T H S}
    (h : run cfg World.init as = some w) :
    (∀ c, w.herder.indexes.lookup c = registered (indexEvents cfg World.init as) c) ∧
      ∀ rd : Readings H S,
        (∀ c s, registered (indexEvents cfg World.init as) c = some s → rd.size s c = 0) →
          overMemQuotaForIndexingLocked cfg rd w.herder = false := by
  have hl : ∀ c, w.herder.indexes.lookup c = registered (indexEvents cfg World.init as) c :=
    fun c => by rw [registered_eq_lookup, run_indexes cfg h]; rfl
  refine ⟨hl, fun rd hz => overMemQuotaForIndexingLocked_of_sizes_zero cfg rd _ fun x hx => ?_⟩
  exact hz x.1 x.2 ((hl x.1).symm.trans (AList.mem_lookup_iff.2 hx))

end Concurrent

/-- Worker 0 passes the gate with index 0, goroutine 1 closes index 0, and
worker 0 passes again with index 1. -/
def closeActs : List (Act (Fin 2) ℕ Unit) :=
  let rd : Readings ℕ Unit := ⟨0, 0, 0, fun _ _ => 0⟩
  [.invoke 0 (.onBatchExecuteStart 0 ()), .run 0 rd, .run 0 rd, .run 0 rd,
    .invoke 1 (.hook (.onClose 0)), .run 1 rd,
    .invoke 0 (.onBatchExecuteStart 1 ()), .run 0 rd, .run 0 rd, .run 0 rd]

/-- An index quota of 100 bytes and no channel. -/
def registryConfig : Config := ⟨0, 100, 0, none⟩

theorem run_registry_refines_closeActs :
    let w := (run registryConfig World.init closeActs).getD World.init
    run registryConfig World.init closeActs = some w ∧
      (∀ c, w.herder.indexes.lookup c = registered (indexEvents registryConfig World.init closeActs) c) ∧
      ∀ rd : Readings ℕ Unit,
        (∀ c s, registered (indexEvents registryConfig World.init closeActs) c = some s →
          rd.size s c = 0) →
        overMemQuotaForIndexingLocked registryConfig rd w.herder = false :=
  have e : run registryConfig World.init closeActs =
      some ((run registryConfig World.init closeActs).getD World.init) := rfl
  ⟨e, run_registry_refines _ e⟩

/-- The closed index 0 is no longer registered; index 1 is. -/
example : registered (indexEvents registryConfig World.init closeActs) 0 = none ∧
    registered (indexEvents registryConfig World.init closeActs) 1 = some () := ⟨rfl, rfl⟩

end Cbft.Herder
