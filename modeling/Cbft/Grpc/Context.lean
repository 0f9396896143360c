import Cbft.Grpc.Search
import Mathlib.Algebra.Group.Int

/-!
# Searching in a context

`SearchInContext` hands the scatter request to a goroutine, which runs `Query`
and sends what it got on `resultCh`, and waits in a `select` for that value or
for `ctx.Done()`.  `resultCh` is unbuffered: the goroutine's send completes
only together with the caller's receive in the `select`.

One call is modelled as two threads, the caller and the goroutine, with the
context as a third party whose `Done` fires at any moment if the context can be
cancelled or has a deadline.  A run is any interleaving of their steps, so it
ranges over every timing of the RPC and of the context.

When `Done` wins the `select`, the caller returns and nobody will ever receive
from `resultCh`: the goroutine that finishes `Query` afterwards blocks in its
send for good (`Stranded`, `SearchCall.run_of_stranded`).  A context that is
never done, such as the `context.Background()` of `Search`, never strands it.

The time left before the deadline is a `time.Duration`, an `int64` of
nanoseconds, which we write `BitVec 64` as the herder writes its `int64`s.
`deadline.Sub(time.Now())` saturates at the ends of the `int64` range
(`subSat`), while `remaining -= RemoteRequestOverhead` wraps, `remaining < 0`
compares signed, and `remaining / time.Millisecond` truncates toward zero.

The caller itself is never stuck: from every state a run reaches, some
continuation makes it return, and what it returns is one of the values
`SearchCall.Allowed` lists, a non-nil error only from the early returns
(`SearchCall.returned_cases`).  Under a context that is never done the call
refines its sequential reading `SearchCall.searchSeq`
(`SearchCall.refines_searchSeq`).
-/

namespace Cbft.Grpc

variable {M C G W Q R : Type}

/-! ## Contexts and calls -/

/-- What `SearchInContext` and `Query` read of `ctx`. -/
structure Ctx where
  /-- The time from `time.Now()` to the deadline, in nanoseconds, when
  `ctx.Deadline()` reports a deadline. -/
  untilDeadline : Option Int
  /-- Whether `ctx` can be cancelled. -/
  cancellable : Bool
  /-- Whether `ctx` holds a `MakeDocumentMatchHandler`. -/
  hasDocumentMatchHandler : Bool
  deriving DecidableEq, Repr

/-- `context.Background()`: no deadline, no cancellation, no handler. -/
def backgroundCtx : Ctx := ⟨none, false, false⟩

/-- What `ctx.Err()` can return once `ctx.Done()` is closed. -/
def Ctx.errs (ctx : Ctx) : List String :=
  (if ctx.cancellable then ["context canceled"] else []) ++
    (if ctx.untilDeadline.isSome then ["context deadline exceeded"] else [])

/-- `deadline.Sub(now)` for a deadline `d` nanoseconds after `now`: `d`, or the
largest or smallest `time.Duration` when `d` does not fit in an `int64`. -/
def subSat (d : Int) : BitVec 64 :=
  BitVec.ofInt 64 (if d < -2 ^ 63 then -2 ^ 63 else if d < 2 ^ 63 then d else 2 ^ 63 - 1)

/-- The inputs of one call `g.SearchInContext(ctx, req)`. -/
structure SearchCall (M C G W Q R : Type) where
  env : SearchEnv G W Q R
  marshalJSON : MarshalArg C Q → Except String (List UInt8)
  /-- `makeSearchResultErr(req, pindexNames, err)`, defined outside this file. -/
  makeSearchResultErr : Q → List String → String → R
  /-- `RemoteRequestOverhead`, a `time.Duration`. -/
  remoteRequestOverhead : BitVec 64
  ctx : Ctx
  g : GrpcClient M C G W
  /-- The request; `none` is nil. -/
  req : Option Q

/-- The part of `SearchInContext` before `resultCh`: an early return, or the
scatter request handed to the goroutine.  `remaining` is a `time.Duration`:
`Sub` saturates, `-=` wraps, and `/ time.Millisecond` is `int64` division. -/
def SearchCall.scatterRequest (call : SearchCall M C G W Q R) :
    Except (Option R × Option String) (ScatterRequest C Q) :=
  match call.req with
  | none => .error (none, some "grpc_client: SearchInContext, no req provided")
  | some req =>
    match call.ctx.untilDeadline with
    | none => .ok ⟨⟨call.g.consistency, 0⟩, call.g.pIndexNames, req⟩
    | some untilDeadline =>
      let remaining := subSat untilDeadline - call.remoteRequestOverhead
      if remaining.slt 0 then .error (none, some "context deadline exceeded")
      else .ok ⟨⟨call.g.consistency, (remaining.sdiv 1000000).toInt⟩, call.g.pIndexNames, req⟩

/-- A deadline so far past that `Sub` saturates at `-2^63`: taking off one
nanosecond of overhead wraps `remaining` to `2^63 - 1`, which is not negative. -/
example : (subSat (-2 ^ 64) - 1).slt 0 = false ∧ (subSat (-2 ^ 64) - 1).toInt = 2 ^ 63 - 1 := by
  decide

/-! ## The two threads -/

/-- Where the caller of `SearchInContext` is. -/
inductive CallerPc (Q R : Type) where
  | start
  /-- In the `select`, for the request `req`. -/
  | select (req : Q)
  /-- `SearchInContext` returned `rv` and `err`. -/
  | returned (rv : Option R) (err : Option String)

/-- Where the goroutine spawned by `SearchInContext` is. -/
inductive SenderPc (C Q R : Type) where
  | notSpawned
  /-- About to run `g.Query(ctx, sr)`. -/
  | querying (sr : ScatterRequest C Q)
  /-- Blocked in `resultCh <- rv` until the caller receives. -/
  | sending (rv : Option R)
  | exited

/-- The caller, the goroutine and the context. -/
structure SearchState (C Q R : Type) where
  caller : CallerPc Q R
  sender : SenderPc C Q R
  /-- `ctx.Err()`: `none` while `ctx.Done()` is open. -/
  ctxErr : Option String

/-- Nothing has run yet. -/
def SearchState.init : SearchState C Q R := ⟨.start, .notSpawned, none⟩

/-- A step of one thread, or of the context. -/
inductive SearchAct where
  /-- The caller runs up to its `select`, or returns early. -/
  | start
  /-- The goroutine runs `Query` and reaches its send. -/
  | query
  /-- The `select` takes `<-ctx.Done()`. -/
  | selectDone
  /-- The `select` takes `<-resultCh`, completing the goroutine's send. -/
  | selectRecv
  /-- `ctx.Done()` is closed, with `ctx.Err()` returning `err`. -/
  | done (err : String)
  deriving DecidableEq, Repr

section Step

variable (call : SearchCall M C G W Q R)

/-- One step of the call; `none` when the step is not enabled. -/
def SearchCall.step (s : SearchState C Q R) : SearchAct → Option (SearchState C Q R)
  | .start =>
    match s.caller with
    | .start =>
      match call.scatterRequest with
      | .error (rv, err) => some { s with caller := .returned rv err }
      | .ok sr => some { s with caller := .select sr.searchRequest, sender := .querying sr }
    | _ => none
  | .query =>
    match s.sender with
    | .querying sr =>
      let (rv, err, _) := query call.env call.marshalJSON call.ctx.hasDocumentMatchHandler call.g sr
      let rv := match err with
        | some err => some (call.makeSearchResultErr sr.searchRequest call.g.pIndexNames err)
        | none => rv
      some { s with sender := .sending rv }
    | _ => none
  | .selectDone =>
    match s.caller, s.ctxErr with
    | .select req, some err =>
      some { s with caller := .returned (some (call.makeSearchResultErr req call.g.pIndexNames err)) none }
    | _, _ => none
  | .selectRecv =>
    match s.caller, s.sender with
    | .select _, .sending rv => some { s with caller := .returned rv none, sender := .exited }
    | _, _ => none
  | .done err =>
    if s.ctxErr = none ∧ err ∈ call.ctx.errs then some { s with ctxErr := some err } else none

/-- Running a list of steps, failing at the first one that is not enabled. -/
def SearchCall.run (s : SearchState C Q R) : List SearchAct → Option (SearchState C Q R)
  | [] => some s
  | a :: as => (call.step s a).bind fun s' => SearchCall.run s' as

end Step

/-! ## A goroutine left sending -/

/-- `SearchInContext` has returned while its goroutine is blocked in the send on
`resultCh`, whose only receiver was the `select` of the returned call. -/
def Stranded (s : SearchState C Q R) : Prop :=
  (∃ rv err, s.caller = .returned rv err) ∧ ∃ rv, s.sender = .sending rv

section Stranded

variable (call : SearchCall M C G W Q R)

/-- From a stranded state a step can only close `ctx.Done()`: the caller and the
goroutine stay where they are. -/
theorem SearchCall.step_of_stranded {s s' : SearchState C Q R} {a : SearchAct} (hs : Stranded s)
    (h : call.step s a = some s') : s'.caller = s.caller ∧ s'.sender = s.sender := by
  obtain ⟨⟨rv, err, hc⟩, rv', hsnd⟩ := hs
  cases a <;> simp only [SearchCall.step, hc, hsnd] at h
  case done e =>
    split_ifs at h
    cases h
    exact ⟨hc.symm, hsnd.symm⟩
  all_goals cases h

/-- Once stranded, the goroutine stays blocked in its send whatever runs next. -/
theorem SearchCall.run_of_stranded :
    ∀ {s s' : SearchState C Q R} {as : List SearchAct}, Stranded s → call.run s as = some s' →
      s'.caller = s.caller ∧ s'.sender = s.sender
  | _, _, [], _, h => by cases h; exact ⟨rfl, rfl⟩
  | _, _, _ :: _, hs, h => by
    obtain ⟨s₁, h₁, h₂⟩ := Option.bind_eq_some.1 h
    obtain ⟨hc, hsnd⟩ := call.step_of_stranded hs h₁
    have hs₁ : Stranded s₁ := by rw [Stranded, hc, hsnd]; exact hs
    obtain ⟨hc', hsnd'⟩ := SearchCall.run_of_stranded hs₁ h₂
    exact ⟨hc'.trans hc, hsnd'.trans hsnd⟩

/-- A cancellable context without a deadline, the server of `failingWriteEnv`,
and `handlerClient`. -/
def cancelCall : SearchCall Unit Unit Unit Unit Unit Unit where
  env := failingWriteEnv
  marshalJSON _ := .ok []
  makeSearchResultErr _ _ _ := ()
  remoteRequestOverhead := 0
  ctx := ⟨none, true, false⟩
  g := handlerClient
  req := some ()

/-- The context is cancelled after the goroutine is spawned and before `Query`
returns: `SearchInContext` returns from the `Done` case, and its goroutine then
stays blocked in `resultCh <- rv` whatever runs next. -/
theorem searchInContext_strands_sender :
    cancelCall.run .init [.start, .done "context canceled", .selectDone, .query] =
        some ⟨.returned (some ()) none, .sending (some ()), some "context canceled"⟩ ∧
      ∀ (as : List SearchAct) (s : SearchState Unit Unit Unit),
        cancelCall.run ⟨.returned (some ()) none, .sending (some ()), some "context canceled"⟩ as =
            some s →
          s.caller = .returned (some ()) none ∧ s.sender = .sending (some ()) :=
  ⟨rfl, fun _ _ h => cancelCall.run_of_stranded ⟨⟨_, _, rfl⟩, _, rfl⟩ h⟩

end Stranded

/-! ## What a call can return

`SearchCall.Phase` records how far the two threads have got together with what
each has computed: the scatter request the goroutine was handed, the value it
sends (`SearchCall.sent`), and the result the `select` made from `ctx.Err()`.
Every step keeps it, so it holds along every run, whatever the timing and
whichever of its errors the context reports. -/

section Phase

variable (call : SearchCall M C G W Q R)

/-- The value the goroutine sends for `sr`: what `Query` returned, or a result
made from its error. -/
def SearchCall.sent (sr : ScatterRequest C Q) : Option R :=
  let (rv, err, _) := query call.env call.marshalJSON call.ctx.hasDocumentMatchHandler call.g sr
  match err with
  | some err => some (call.makeSearchResultErr sr.searchRequest call.g.pIndexNames err)
  | none => rv

/-- `SearchInContext` read as sequential code, as it runs when `ctx.Done()`
never fires: an early return, or the value the goroutine sends, received by the
`select` with a nil error. -/
def SearchCall.searchSeq : Option R × Option String :=
  match call.scatterRequest with
  | .error e => e
  | .ok sr => (call.sent sr, none)

/-- How far a call has got, with what each thread has computed. -/
inductive SearchCall.Phase : CallerPc Q R → SenderPc C Q R → Prop
  | start : SearchCall.Phase .start .notSpawned
  /-- Returned before spawning the goroutine. -/
  | early {rv : Option R} {err : Option String} :
      call.scatterRequest = .error (rv, err) → SearchCall.Phase (.returned rv err) .notSpawned
  /-- In the `select`, with the goroutine running `Query`. -/
  | querying {sr : ScatterRequest C Q} :
      call.scatterRequest = .ok sr → SearchCall.Phase (.select sr.searchRequest) (.querying sr)
  /-- In the `select`, with the goroutine at its send. -/
  | sending {sr : ScatterRequest C Q} :
      call.scatterRequest = .ok sr →
        SearchCall.Phase (.select sr.searchRequest) (.sending (call.sent sr))
  /-- The `select` received what the goroutine sent. -/
  | received {sr : ScatterRequest C Q} :
      call.scatterRequest = .ok sr → SearchCall.Phase (.returned (call.sent sr) none) .exited
  /-- The `select` took `ctx.Done()`, the goroutine querying or sending. -/
  | done {sr : ScatterRequest C Q} {e : String} {snd : SenderPc C Q R} :
      call.scatterRequest = .ok sr → e ∈ call.ctx.errs →
        (snd = .querying sr ∨ snd = .sending (call.sent sr)) →
        SearchCall.Phase
          (.returned (some (call.makeSearchResultErr sr.searchRequest call.g.pIndexNames e)) none) snd

/-- What `SearchInContext` may return: an early return, or a nil error with the
value the goroutine sends or a result made from one of the context's errors. -/
def SearchCall.Allowed (rv : Option R) (err : Option String) : Prop :=
  call.scatterRequest = .error (rv, err) ∨
    err = none ∧ ∃ sr, call.scatterRequest = .ok sr ∧
      (rv = call.sent sr ∨ ∃ e ∈ call.ctx.errs,
        rv = some (call.makeSearchResultErr sr.searchRequest call.g.pIndexNames e))

/-- Some continuation of `s` makes the call return. -/
def SearchCall.CanReturn (s : SearchState C Q R) : Prop :=
  ∃ as s', call.run s as = some s' ∧ ∃ rv err, s'.caller = .returned rv err

/-- The phase of the two threads, and `ctx.Err()` one of the context's errors. -/
def SearchCall.Inv (s : SearchState C Q R) : Prop :=
  SearchCall.Phase call s.caller s.sender ∧ ∀ e, s.ctxErr = some e → e ∈ call.ctx.errs

theorem SearchCall.inv_init : call.Inv (.init : SearchState C Q R) :=
  ⟨.start, fun _ h => nomatch h⟩

/-- The goroutine's step sends `SearchCall.sent`. -/
theorem SearchCall.step_query {s : SearchState C Q R} {sr : ScatterRequest C Q}
    (h : s.sender = .querying sr) :
    call.step s .query = some { s with sender := .sending (call.sent sr) } := by
  simp only [SearchCall.step, h]; rfl

/-- `ctx.Done()` closing moves neither thread and records one of the context's
errors. -/
theorem SearchCall.step_done {s s' : SearchState C Q R} {e : String}
    (h : call.step s (.done e) = some s') :
    s'.caller = s.caller ∧ s'.sender = s.sender ∧ s'.ctxErr = some e ∧ e ∈ call.ctx.errs := by
  simp only [SearchCall.step, reduceCtorEq] at h
  split_ifs at h with hd
  cases h
  exact ⟨rfl, rfl, rfl, hd.2⟩

/-- Every step keeps the invariant. -/
theorem SearchCall.step_inv {s s' : SearchState C Q R} {a : SearchAct} (hi : call.Inv s)
    (h : call.step s a = some s') : call.Inv s' := by
  obtain ⟨c, snd, ce⟩ := s
  obtain ⟨hp, he⟩ := hi
  dsimp only at hp he
  cases a with
  | done e =>
    obtain ⟨hc, hs, hce, hmem⟩ := call.step_done h
    exact ⟨hc ▸ hs ▸ hp, fun e' he' => by rw [hce] at he'; cases he'; exact hmem⟩
  | start =>
    cases hp <;> simp only [SearchCall.step, reduceCtorEq] at h
    split at h <;> cases h
    · exact ⟨.early ‹_›, he⟩
    · exact ⟨.querying ‹_›, he⟩
  | query =>
    cases hp with
    | querying hsr => rw [call.step_query rfl] at h; cases h; exact ⟨.sending hsr, he⟩
    | done hsr hmem hsnd =>
      rcases hsnd with rfl | rfl
      · rw [call.step_query rfl] at h; cases h; exact ⟨.done hsr hmem (.inr rfl), he⟩
      · simp only [SearchCall.step, reduceCtorEq] at h
    | _ => simp only [SearchCall.step, reduceCtorEq] at h
  | selectDone =>
    cases hp <;> cases ce <;> simp only [SearchCall.step, reduceCtorEq] at h <;> cases h
    · exact ⟨.done ‹_› (he _ rfl) (.inl rfl), he⟩
    · exact ⟨.done ‹_› (he _ rfl) (.inr rfl), he⟩
  | selectRecv =>
    cases hp <;> simp only [SearchCall.step, reduceCtorEq] at h
    cases h
    exact ⟨.received ‹_›, he⟩

/-- The invariant holds along every run. -/
theorem SearchCall.run_inv : ∀ {s s' : SearchState C Q R} {as : List SearchAct},
    call.Inv s → call.run s as = some s' → call.Inv s'
  | _, _, [], hi, h => by cases h; exact hi
  | _, _, _ :: _, hi, h => by
    obtain ⟨s₁, h₁, h₂⟩ := Option.bind_eq_some.1 h
    exact SearchCall.run_inv (call.step_inv hi h₁) h₂

/-- From every state of the invariant some continuation makes the call return:
the goroutine finishes `Query`, and the `select` receives what it sends. -/
theorem SearchCall.returns_of_inv {s : SearchState C Q R} (hi : call.Inv s) :
    call.CanReturn s := by
  obtain ⟨c, snd, ce⟩ := s
  obtain ⟨hp, -⟩ := hi
  dsimp only at hp
  cases hp with
  | start =>
    cases hsr : call.scatterRequest with
    | error e =>
      refine ⟨[.start], ⟨.returned e.1 e.2, .notSpawned, ce⟩, ?_, _, _, rfl⟩
      simp only [SearchCall.run, SearchCall.step, hsr, Option.some_bind]
    | ok sr =>
      refine ⟨[.start, .query, .selectRecv], ⟨.returned (call.sent sr) none, .exited, ce⟩, ?_, _, _, rfl⟩
      simp only [SearchCall.run, SearchCall.step, hsr, Option.some_bind]
      rfl
  | @querying sr _ =>
    refine ⟨[.query, .selectRecv], ⟨.returned (call.sent sr) none, .exited, ce⟩, ?_, _, _, rfl⟩
    simp only [SearchCall.run, SearchCall.step, Option.some_bind]
    rfl
  | sending _ => exact ⟨[.selectRecv], _, rfl, _, _, rfl⟩
  | early _ | received _ | done _ _ _ => exact ⟨[], _, rfl, _, _, rfl⟩

/-- Whatever the context and the timing, `SearchInContext` returns a non-nil
error only from its early returns (a nil `req`, or a negative `remaining` once
`RemoteRequestOverhead` is taken off the time to the deadline).  Otherwise it returns a nil error with the value the
goroutine sends (the result of `Query`, or one made from its error) or with a
result made from one of the errors `ctx.Err()` can report.  And from every state
a run reaches, some continuation makes the call return. -/
theorem SearchCall.returned_cases {as : List SearchAct} {s : SearchState C Q R}
    (h : call.run .init as = some s) :
    (∀ rv err, s.caller = .returned rv err → call.Allowed rv err) ∧ call.CanReturn s := by
  have hi := call.run_inv call.inv_init h
  refine ⟨fun rv err hr => ?_, call.returns_of_inv hi⟩
  obtain ⟨c, snd, ce⟩ := s
  obtain ⟨hp, -⟩ := hi
  dsimp only at hp hr
  subst hr
  cases hp with
  | early hsr => exact .inl hsr
  | received hsr => exact .inr ⟨rfl, _, hsr, .inl rfl⟩
  | done hsr hmem _ => exact .inr ⟨rfl, _, hsr, .inr ⟨_, hmem, rfl⟩⟩

/-- `cancelCall` cancelled before `Query` returns has returned a result made from
`"context canceled"`. -/
theorem returned_cases_cancelCall :
    cancelCall.run .init [.start, .done "context canceled", .selectDone] =
        some ⟨.returned (some ()) none, .querying ⟨⟨(), 0⟩, ["p1"], ()⟩, some "context canceled"⟩ ∧
      (∀ rv err, (CallerPc.returned (some ()) none : CallerPc Unit Unit) = .returned rv err →
        cancelCall.Allowed rv err) ∧
      cancelCall.CanReturn
        ⟨.returned (some ()) none, .querying ⟨⟨(), 0⟩, ["p1"], ()⟩, some "context canceled"⟩ :=
  have h : cancelCall.run .init [.start, .done "context canceled", .selectDone] =
      some ⟨.returned (some ()) none, .querying ⟨⟨(), 0⟩, ["p1"], ()⟩, some "context canceled"⟩ := rfl
  ⟨h, cancelCall.returned_cases h⟩

end Phase

/-! ## Contexts that are never done -/

section NeverDone

variable (call : SearchCall M C G W Q R)

/-- With a context that is never done, a call that has returned returned what its
sequential reading returns, and left no goroutine behind. -/
theorem SearchCall.returned_eq_searchSeq (hc : call.ctx.errs = []) {s : SearchState C Q R}
    (hi : call.Inv s) {rv : Option R} {err : Option String} (hr : s.caller = .returned rv err) :
    (rv, err) = call.searchSeq ∧ (s.sender = .notSpawned ∨ s.sender = .exited) := by
  obtain ⟨c, snd, ce⟩ := s
  obtain ⟨hp, -⟩ := hi
  dsimp only at hp hr ⊢
  subst hr
  cases hp with
  | early hsr => exact ⟨by rw [SearchCall.searchSeq, hsr], .inl rfl⟩
  | received hsr => exact ⟨by rw [SearchCall.searchSeq, hsr], .inr rfl⟩
  | done _ hmem _ => rw [hc] at hmem; cases hmem

/-- With a context that is never done, such as the `context.Background()` of
`Search`, the call refines its sequential reading `searchSeq`: once it has
returned, it returned what `searchSeq` returns and left no goroutine behind, and
every run can go on until it returns. -/
theorem SearchCall.refines_searchSeq (hc : call.ctx.errs = []) {as : List SearchAct}
    {s : SearchState C Q R} (h : call.run .init as = some s) :
    (∀ rv err, s.caller = .returned rv err →
      (rv, err) = call.searchSeq ∧ (s.sender = .notSpawned ∨ s.sender = .exited)) ∧
      ∃ as' s', call.run s as' = some s' ∧
        s'.caller = .returned call.searchSeq.1 call.searchSeq.2 := by
  have hi := call.run_inv call.inv_init h
  refine ⟨fun rv err => call.returned_eq_searchSeq hc hi, ?_⟩
  obtain ⟨as', s', h', rv, err, hr⟩ := call.returns_of_inv hi
  have e := (call.returned_eq_searchSeq hc (call.run_inv hi h') hr).1
  exact ⟨as', s', h', by rw [hr, ← e]⟩

/-- `Search` on `handlerClient`: `cancelCall` with `context.Background()`. -/
def backgroundCall : SearchCall Unit Unit Unit Unit Unit Unit :=
  { cancelCall with ctx := backgroundCtx }

/-- `Search` with the goroutine at its send: the `select` will receive. -/
theorem refines_searchSeq_background :
    backgroundCall.ctx.errs = [] ∧
      backgroundCall.run .init [.start, .query] = some ⟨.select (), .sending (some ()), none⟩ ∧
      (∀ rv err, (CallerPc.select () : CallerPc Unit Unit) = .returned rv err →
        (rv, err) = backgroundCall.searchSeq ∧
          ((SenderPc.sending (some ()) : SenderPc Unit Unit Unit) = .notSpawned ∨
            (SenderPc.sending (some ()) : SenderPc Unit Unit Unit) = .exited)) ∧
      ∃ as' s', backgroundCall.run ⟨.select (), .sending (some ()), none⟩ as' = some s' ∧
        s'.caller = .returned backgroundCall.searchSeq.1 backgroundCall.searchSeq.2 :=
  have h : backgroundCall.run .init [.start, .query] = some ⟨.select (), .sending (some ()), none⟩ :=
    rfl
  ⟨rfl, h, backgroundCall.refines_searchSeq rfl h⟩

example : backgroundCtx.errs = [] := rfl

end NeverDone

end Cbft.Grpc
