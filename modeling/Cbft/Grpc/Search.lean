import Cbft.Grpc.Client

/-!
# Scatter-gather search over gRPC

`Query` marshals a scatter request into a `pb.SearchRequest` and calls
`SearchRPC`, which opens the result stream with `GrpcCli.Search` and reads it
with `Recv` until `io.EOF` or an error.  Hits messages go to the client's stream
handler; a `SearchResult` message is unmarshalled into the result.

The stream, the handler's `write`, and the JSON codecs are arguments, so the
statements range over every server, handler and payload.  Besides what
`SearchRPC` returns, the model counts its `Recv` calls.

The `break` after a failed `write` sits inside the `switch`, so it leaves only
the `switch`: the loop goes on and the next `Recv` overwrites the error.  Hence
nothing `write` returns reaches the caller: `searchRPC_returns` gives the result,
the error and the number of `Recv` calls without any reference to `write`.
-/

namespace Cbft.Grpc

variable {M C G W Q R : Type}

/-! ## Requests and streams -/

/-- `cbgt.QueryCtlParams`, with the fields `SearchInContext` sets. -/
structure QueryCtlParams (C : Type) where
  consistency : C
  /-- `Ctl.Timeout`, an `int64` number of milliseconds. -/
  timeout : Int

/-- `scatterRequest`: the control parameters, the pindexes to search
(`QueryPIndexes.PIndexNames`) and the bleve search request. -/
structure ScatterRequest (C Q : Type) where
  ctlParams : QueryCtlParams C
  onlyPIndexes : List String
  searchRequest : Q

/-- `pb.SearchRequest`. -/
structure SearchRequestPb where
  indexName : String
  indexUUID : String
  contents : List UInt8
  queryCtlParams : List UInt8
  queryPIndexes : List UInt8
  stream : Bool
  deriving DecidableEq, Repr

/-- The payload of a `pb.StreamSearchResults_Hits`. -/
structure Hits where
  bytes : List UInt8
  offsets : List UInt64
  total : UInt64
  deriving DecidableEq, Repr

/-- The `Contents` of a message that `res.Recv()` returned. -/
inductive Contents where
  | hits (h : Hits)
  /-- A `SearchResult` payload; `none` is a nil slice. -/
  | searchResult (payload : Option (List UInt8))
  /-- Contents the `switch` does not handle. -/
  | other
  deriving DecidableEq, Repr

/-- What the successive calls of `res.Recv()` return: messages, then `io.EOF`
(`none`) or an error. -/
structure RecvStream where
  msgs : List Contents
  last : Option String
  deriving DecidableEq, Repr

/-- What `SearchRPC` reads from outside. -/
structure SearchEnv (G W Q R : Type) where
  /-- `GrpcCli.Search(ctx, pbReq)`: the stream (`none` is nil) and the error. -/
  search : G → SearchRequestPb → Option RecvStream × Option String
  /-- The handler's `write(bytes, offsets, total)`: its next state and its error. -/
  write : W → List UInt8 → List UInt64 → Int → W × Option String
  /-- `UnmarshalJSON(payload, &searchResult)`: the pointer it leaves (`none` is
  nil) and its error. -/
  unmarshalJSON : List UInt8 → Option R → Option R × Option String
  /-- `&bleve.SearchResult{Status: &bleve.SearchStatus{}, Request: req}`. -/
  newSearchResult : Q → R

/-- The values `Query` marshals. -/
inductive MarshalArg (C Q : Type) where
  | searchRequest (q : Q)
  | ctlParams (p : QueryCtlParams C)
  | onlyPIndexes (pIndexNames : List String)

/-! ## `SearchRPC` and `Query` -/

section Rpc

variable (env : SearchEnv G W Q R)

/-- The `for` loop of `SearchRPC` from the handler `sc`, the result pointer
`searchResult` and `recvs` calls of `Recv` so far: what `SearchRPC` returns, and
the number of `Recv` calls. -/
def recvLoop (sc : Option W) (searchResult : Option R) (recvs : Nat) :
    List Contents → Option String → Option R × Option String × Nat
  | [], last => (searchResult, last, recvs + 1)
  | .hits h :: ms, last =>
    match sc with
    | some w =>
      -- `err = sw.write(...)`; the `break` leaves the `switch` only, and the next
      -- `Recv` assigns `err` again
      let (w, _) := env.write w h.bytes h.offsets h.total.toBitVec.toInt
      recvLoop (some w) searchResult (recvs + 1) ms last
    | none => recvLoop sc searchResult (recvs + 1) ms last
  | .searchResult (some payload) :: ms, last =>
    match env.unmarshalJSON payload searchResult with
    | (searchResult, some err) => (searchResult, some err, recvs + 1)
    | (searchResult, none) => recvLoop sc searchResult (recvs + 1) ms last
  | _ :: ms, last => recvLoop sc searchResult (recvs + 1) ms last

/-- `g.SearchRPC(ctx, req, pbReq)`, with the number of `Recv` calls. -/
def searchRPC (g : GrpcClient M C G W) (req : ScatterRequest C Q) (pbReq : SearchRequestPb) :
    Option R × Option String × Nat :=
  match env.search g.grpcCli pbReq with
  | (some res, none) =>
    recvLoop env g.sc (some (env.newSearchResult req.searchRequest)) 0 res.msgs res.last
  | (_, err) => (none, err, 0)

/-- `g.Query(ctx, req)`, given `MarshalJSON` and whether the context holds a
`MakeDocumentMatchHandler` (which asks for a streamed reply). -/
def query (marshalJSON : MarshalArg C Q → Except String (List UInt8))
    (hasDocumentMatchHandler : Bool) (g : GrpcClient M C G W) (req : ScatterRequest C Q) :
    Option R × Option String × Nat :=
  let pbReq : Except String SearchRequestPb := do
    let contents ← marshalJSON (.searchRequest req.searchRequest)
    let queryCtlParams ← marshalJSON (.ctlParams req.ctlParams)
    let queryPIndexes ← marshalJSON (.onlyPIndexes req.onlyPIndexes)
    pure { indexName := g.indexName, indexUUID := g.indexUUID, contents := contents,
           queryCtlParams := queryCtlParams, queryPIndexes := queryPIndexes,
           stream := hasDocumentMatchHandler }
  match pbReq with
  | .error err => (none, some err, 0)
  | .ok pbReq => searchRPC env g req pbReq

end Rpc

/-! ## What `SearchRPC` returns

Read without the handler, the loop is a fold over the `SearchResult` payloads of
the stream: each is unmarshalled into the result pointer, and the first that
fails ends the call with its error.  Hits and other messages are read and
dropped. -/

/-- The payload of a `SearchResult` message; other messages carry none. -/
def Contents.payload : Contents → Option (List UInt8)
  | .searchResult payload => payload
  | _ => none

section Spec

variable (env : SearchEnv G W Q R)

/-- The payloads unmarshalled one after another into the result pointer,
stopping at the first error. -/
def unmarshalAll (searchResult : Option R) : List (List UInt8) → Option R × Option String
  | [] => (searchResult, none)
  | p :: ps =>
    match env.unmarshalJSON p searchResult with
    | (searchResult, some err) => (searchResult, some err)
    | (searchResult, none) => unmarshalAll searchResult ps

/-- The loop returns the fold of the stream's payloads, and the error of the
first payload that fails or else the stream's last error; when none fails, it
calls `Recv` once per message and once more for `io.EOF` or the error. -/
theorem recvLoop_eq_unmarshalAll : ∀ (ms : List Contents) (last : Option String) (sc : Option W)
    (searchResult : Option R) (recvs : Nat),
    (recvLoop env sc searchResult recvs ms last).1 =
        (unmarshalAll env searchResult (ms.filterMap Contents.payload)).1 ∧
      (recvLoop env sc searchResult recvs ms last).2.1 =
        (unmarshalAll env searchResult (ms.filterMap Contents.payload)).2.or last ∧
      ((unmarshalAll env searchResult (ms.filterMap Contents.payload)).2 = none →
        (recvLoop env sc searchResult recvs ms last).2.2 = recvs + ms.length + 1)
  | [], _, _, _, _ => ⟨rfl, rfl, fun _ => rfl⟩
  | .hits h :: ms, last, sc, searchResult, recvs => by
    have step : ∀ sc', (recvLoop env sc' searchResult (recvs + 1) ms last).2.2 =
        recvs + 1 + ms.length + 1 → _ = recvs + (ms.length + 1) + 1 := fun _ h => h.trans (by omega)
    cases sc <;> simp only [recvLoop, List.filterMap_cons, Contents.payload, List.length_cons] <;>
      exact (recvLoop_eq_unmarshalAll ms last _ searchResult (recvs + 1)).imp_right
        (And.imp_right fun hn he => step _ (hn he))
  | .searchResult (some p) :: ms, last, sc, searchResult, recvs => by
    simp only [recvLoop, List.filterMap_cons, Contents.payload, unmarshalAll, List.length_cons]
    split
    · exact ⟨rfl, rfl, fun h => absurd h (by simp)⟩
    · refine (recvLoop_eq_unmarshalAll ms last sc _ (recvs + 1)).imp_right
        (And.imp_right fun hn he => (hn he).trans (by omega))
  | .searchResult none :: ms, last, sc, searchResult, recvs =>
    (recvLoop_eq_unmarshalAll ms last sc searchResult (recvs + 1)).imp_right
      (And.imp_right fun hn he => (hn he).trans (by simp only [List.length_cons]; omega))
  | .other :: ms, last, sc, searchResult, recvs =>
    (recvLoop_eq_unmarshalAll ms last sc searchResult (recvs + 1)).imp_right
      (And.imp_right fun hn he => (hn he).trans (by simp only [List.length_cons]; omega))

/-- `SearchRPC` ends with the error of `GrpcCli.Search` and a nil result when that
call fails or opens no stream.  Otherwise it returns the result made for the
request with the stream's `SearchResult` payloads unmarshalled into it in order,
and the error of the first payload that fails, or else the stream's final error
(nil at `io.EOF`): hits and other messages change neither.  When no payload
fails it calls `Recv` once per message and once more. -/
theorem searchRPC_returns (g : GrpcClient M C G W) (req : ScatterRequest C Q)
    (pbReq : SearchRequestPb) :
    match env.search g.grpcCli pbReq with
    | (some res, none) =>
      let u := unmarshalAll env (some (env.newSearchResult req.searchRequest))
        (res.msgs.filterMap Contents.payload)
      (searchRPC env g req pbReq).1 = u.1 ∧ (searchRPC env g req pbReq).2.1 = u.2.or res.last ∧
        (u.2 = none → (searchRPC env g req pbReq).2.2 = res.msgs.length + 1)
    | (_, err) => searchRPC env g req pbReq = (none, err, 0) := by
  unfold searchRPC
  split
  · exact (recvLoop_eq_unmarshalAll env _ _ _ _ 0).imp_right
      (And.imp_right fun hn he => (hn he).trans (by omega))
  · next fst err hne _ =>
    cases fst with
    | none => rfl
    | some res =>
      cases err with
      | none => exact (hne res rfl rfl).elim
      | some e => rfl

end Spec

/-- A server whose stream is one `Hits` message and then `io.EOF`, with a
handler whose `write` fails. -/
def failingWriteEnv : SearchEnv Unit Unit Unit Unit where
  search _ _ := (some ⟨[.hits ⟨[], [], 0⟩], none⟩, none)
  write w _ _ _ := (w, some "write failed")
  unmarshalJSON _ r := (r, none)
  newSearchResult _ := ()

/-- A client of the pindex `p1` with a stream handler set. -/
def handlerClient : GrpcClient Unit Unit Unit Unit where
  mgr := ()
  name := "grpcClient - node1:9130"
  hostPort := "node1:9130"
  indexName := "idx"
  indexUUID := "uuid"
  pIndexNames := ["p1"]
  consistency := ()
  grpcCli := ()
  sc := some ()

/-- On `failingWriteEnv`, `SearchRPC` returns a result and no error after a second
`Recv`, although the handler's `write` failed; and when `Search` returns a nil
stream with a nil error, it returns a nil result with a nil error. -/
theorem searchRPC_drops_write_error :
    searchRPC failingWriteEnv handlerClient ⟨⟨(), 0⟩, ["p1"], ()⟩
        ⟨"idx", "uuid", [], [], [], false⟩ = (some (), none, 2) ∧
      searchRPC { failingWriteEnv with search := fun _ _ => (none, none) } handlerClient
        ⟨⟨(), 0⟩, ["p1"], ()⟩ ⟨"idx", "uuid", [], [], [], false⟩ = (none, none, 0) := by
  decide

end Cbft.Grpc
