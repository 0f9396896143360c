import Mathlib.Logic.Function.Basic

/-!
# gRPC clients of remote pindexes

`grpc_client.go` builds one `GrpcClient` per remote plan pindex
(`addGrpcClients`), optionally merges the clients that reach the same node for
the same index (`GroupGrpcClientsByHostPort`), and answers `DocCount` through a
client.  This module transcribes those functions.

A Go string is modelled by its text.  The functions here only search for the
last `':'`, cut there, and join strings, so positions counted in characters cut
a valid UTF-8 string at the same places as the byte positions the code uses.
Pointers to clients are positions in the list that holds them, and the Go map of
the grouping loop is a partial function from keys to those positions.  What the
functions read from outside (parsed node extras, the security setting, the RPC
connections and the remote servers) is an argument, so each statement ranges
over every behaviour of those parts.
-/

namespace Cbft.Grpc

/-! ## Strings -/

/-- `strings.LastIndex(s, c)` on the characters of `s`: the position of the last
`c`, or `-1`. -/
def lastIndexAux (c : Char) : List Char → Int
  | [] => -1
  | x :: xs =>
    if 0 ≤ lastIndexAux c xs then lastIndexAux c xs + 1
    else if x = c then 0 else -1

/-- `strings.LastIndex(s, c)` for a one-character separator. -/
def lastIndex (s : String) (c : Char) : Int :=
  lastIndexAux c s.toList

/-! ## Clients -/

/-- A `GrpcClient`, over the types of its manager `M`, consistency parameters `C`,
connection `G` and stream handler `W`.  The fields `lastMutex`,
`lastSearchStatus` and `lastErrBody` are read only by `GetLast` and are left
out. -/
structure GrpcClient (M C G W : Type) where
  mgr : M
  name : String
  hostPort : String
  indexName : String
  indexUUID : String
  pIndexNames : List String
  consistency : C
  grpcCli : G
  /-- The stream handler; `none` is a nil interface. -/
  sc : Option W

variable {M C G W : Type}

/-- `cbgt.NodeDef`, with the fields the client code reads. -/
structure NodeDef where
  hostPort : String
  uuid : String
  /-- The JSON text that `GetFromParsedExtras` parses. -/
  extras : String
  deriving DecidableEq, Repr

/-- `cbgt.PlanPIndex`, with the field the client code reads. -/
structure PlanPIndex where
  name : String
  deriving DecidableEq, Repr

/-- `cbgt.RemotePlanPIndex`. -/
structure RemotePlanPIndex where
  planPIndex : PlanPIndex
  nodeDef : NodeDef
  deriving DecidableEq, Repr

/-- A value found in the parsed node extras: a string, or anything else. -/
inductive ExtraValue where
  | str (s : String)
  | other
  deriving DecidableEq, Repr

/-- What `GetSecuritySetting()` returns, with the fields the client code reads. -/
structure SecuritySetting where
  encryptionEnabled : Bool
  certInBytes : List UInt8
  deriving DecidableEq, Repr

/-- What `addGrpcClients` reads from outside. -/
structure AddEnv (G : Type) where
  /-- `nodeDef.GetFromParsedExtras(key)`: the value (`none` is nil) and the
  error (`none` is nil). -/
  getFromParsedExtras : NodeDef → String → Option ExtraValue × Option String
  /-- What `GetSecuritySetting()` returns during the call. -/
  securitySetting : SecuritySetting
  /-- `getRpcClient(nodeUUID, host, certInBytes)`. -/
  getRpcClient : String → String → List UInt8 → Except String G

/-! ## `addGrpcClients` -/

section Add

variable (env : AddEnv G)

/-- `getPortFromNodeDefs(nodeDef, key)`: the text after the last `':'` of the
string stored under `key`, or `""`, together with the lookup's error. -/
def getPortFromNodeDefs (nodeDef : NodeDef) (key : String) : String × Option String :=
  let (bindValue, err) := env.getFromParsedExtras nodeDef key
  let bindPort :=
    match err, bindValue with
    | none, some (.str bindStr) =>
      let portPos := lastIndex bindStr ':' + 1
      if 0 < portPos ∧ portPos < bindStr.length then String.mk (bindStr.toList.drop portPos.toNat)
      else ""
    | _, _ => ""
  (bindPort, err)

/-- The body of the first loop of `addGrpcClients` for one remote plan pindex:
`.ok none` for a `continue`, `.ok (some c)` for a client appended to
`remoteClients`, and `.error` for the early return. -/
def addGrpcClient (mgr : M) (indexName indexUUID : String) (consistencyParams : C)
    (onlyPIndexes : Option (String → Bool)) (r : RemotePlanPIndex) :
    Except String (Option (GrpcClient M C G W)) :=
  if onlyPIndexes.any (fun only => !only r.planPIndex.name) then .ok none
  else
    let delimiterPos := lastIndex r.nodeDef.hostPort ':'
    if delimiterPos < 0 ∨ (r.nodeDef.hostPort.length : Int) - 1 ≤ delimiterPos then .ok none
    else
      let host := String.mk (r.nodeDef.hostPort.toList.take delimiterPos.toNat)
      let port :=
        match getPortFromNodeDefs env r.nodeDef "bindGRPC" with
        | (bindPort, none) => bindPort
        | _ => ""
      let ss := env.securitySetting
      let (port, certInBytes) :=
        if ss.encryptionEnabled then
          match getPortFromNodeDefs env r.nodeDef "bindGRPCSSL" with
          | (bindPort, none) => (bindPort, ss.certInBytes)
          | _ => (port, [])
        else (port, [])
      if port = "" then .error ("grpc_client: no ports found for host: " ++ host)
      else
        let host := host ++ ":" ++ port
        match env.getRpcClient r.nodeDef.uuid host certInBytes with
        | .error _ => .ok none
        | .ok cli => .ok (some
            { mgr := mgr, name := "grpcClient - " ++ host, hostPort := host,
              indexName := indexName, indexUUID := indexUUID,
              pIndexNames := [r.planPIndex.name], consistency := consistencyParams,
              grpcCli := cli, sc := none })

/-- The first loop of `addGrpcClients`: the clients it appends to
`remoteClients`, or the error it returns. -/
def remoteClientsOf (mgr : M) (indexName indexUUID : String) (consistencyParams : C)
    (onlyPIndexes : Option (String → Bool)) :
    List RemotePlanPIndex → Except String (List (GrpcClient M C G W))
  | [] => .ok []
  | r :: rs => do
    let c ← addGrpcClient env mgr indexName indexUUID consistencyParams onlyPIndexes r
    let cs ← remoteClientsOf mgr indexName indexUUID consistencyParams onlyPIndexes rs
    pure (c.toList ++ cs)

end Add

/-! ## `GroupGrpcClientsByHostPort` -/

/-- The grouping key `HostPort + "/" + IndexName + "/" + IndexUUID`. -/
def groupByKey (c : GrpcClient M C G W) : String :=
  c.hostPort ++ "/" ++ c.indexName ++ "/" ++ c.indexUUID

/-- The client the grouping loop makes for the first client of a key, before any
pindex name is appended. -/
def GrpcClient.newGroup (client : GrpcClient M C G W) : GrpcClient M C G W :=
  { mgr := client.mgr, name := groupByKey client, hostPort := client.hostPort,
    indexName := client.indexName, indexUUID := client.indexUUID, pIndexNames := [],
    consistency := client.consistency, grpcCli := client.grpcCli, sc := none }

/-- `c.PIndexNames = append(c.PIndexNames, names...)`. -/
def GrpcClient.appendPIndexNames (names : List String) (c : GrpcClient M C G W) :
    GrpcClient M C G W :=
  { c with pIndexNames := c.pIndexNames ++ names }

/-- One iteration of the loop of `GroupGrpcClientsByHostPort` on the map `m` and
the result `rv`; the pointer the map holds for a key is the position of its
client in `rv`. -/
def groupStep (st : (String → Option Nat) × List (GrpcClient M C G W))
    (client : GrpcClient M C G W) : (String → Option Nat) × List (GrpcClient M C G W) :=
  match st.1 (groupByKey client) with
  | some i => (st.1, st.2.modify (GrpcClient.appendPIndexNames client.pIndexNames) i)
  | none =>
    (Function.update st.1 (groupByKey client) (some st.2.length),
      (st.2 ++ [client.newGroup]).modify (GrpcClient.appendPIndexNames client.pIndexNames)
        st.2.length)

/-- `GroupGrpcClientsByHostPort(clients)`. -/
def groupGrpcClientsByHostPort (clients : List (GrpcClient M C G W)) :
    List (GrpcClient M C G W) :=
  (clients.foldl groupStep (fun _ => none, [])).2

/-- `addGrpcClients(...)`: the clients added to `collector`, in order, and what
the function returns. -/
def addGrpcClients (env : AddEnv G) (mgr : M) (indexName indexUUID : String)
    (remotePlanPIndexes : List RemotePlanPIndex) (consistencyParams : C)
    (onlyPIndexes : Option (String → Bool)) (groupByNode : Bool) :
    List (GrpcClient M C G W) × Except String (List (GrpcClient M C G W)) :=
  match remoteClientsOf env mgr indexName indexUUID consistencyParams onlyPIndexes
      remotePlanPIndexes with
  | .error err => ([], .error err)
  | .ok remoteClients =>
    let remoteClients :=
      if groupByNode then groupGrpcClientsByHostPort remoteClients else remoteClients
    (remoteClients, .ok remoteClients)

/-! ## `DocCount` -/

/-- `pb.DocCountRequest`. -/
structure DocCountRequest where
  indexName : String
  indexUUID : String
  deriving DecidableEq, Repr

/-- `g.DocCount()`, given the `DocCount` RPC of the remote servers (the count, an
`int64`, or the error).  It asks for the first pindex of the client only; `none`
is the run-time panic of `g.PIndexNames[0]` on a client with no pindex. -/
def GrpcClient.docCount (docCountRpc : G → DocCountRequest → Except String (BitVec 64))
    (g : GrpcClient M C G W) : Option (UInt64 × Option String) :=
  match g.pIndexNames with
  | [] => none
  | p :: _ =>
    match docCountRpc g.grpcCli ⟨p, ""⟩ with
    | .error err => some (0, some err)
    | .ok n => some (⟨n⟩, none)

/-- `g.Count()`, which is `g.DocCount()`. -/
def GrpcClient.count (docCountRpc : G → DocCountRequest → Except String (BitVec 64))
    (g : GrpcClient M C G W) : Option (UInt64 × Option String) :=
  g.docCount docCountRpc

end Cbft.Grpc
