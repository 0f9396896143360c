import Cbft.Grpc.Group

/-!
# The addresses `addGrpcClients` dials

`addGrpcClients` dials each remote pindex at the host of its node, cut from the
node's `HostPort` at the last `':'`, joined to the port the node advertises
under `bindGRPC`, or under `bindGRPCSSL` when encryption is on.  The advertised
value is cut at its last `':'` as well, by `getPortFromNodeDefs`.

Both cuts undo the join: `host ++ ":" ++ port` is cut back into `host` and
`port` whenever `port` has no `':'`, and every string with a `':'` is such a
join (`lastIndex_cases`).  So `getPortFromNodeDefs` returns exactly the port of
a `host:port` value (`getPortFromNodeDefs_cases`), and over any plan, with or
without `groupByNode`, every pindex a returned client searches is held by a node
whose host and advertised port make up the client's `HostPort`
(`addGrpcClients_dials_holders`).  The call fails exactly when an admitted
pindex sits on a node with a port in its `HostPort` but none advertised, and the
error names that node's host (`addGrpcClients_fails_iff`).
-/

namespace Cbft.Grpc

variable {M C G W : Type}

theorem ne_empty_iff_length_pos (s : String) : s ≠ "" ↔ 0 < s.length := by
  obtain ⟨_ | ⟨_, _⟩⟩ := s <;> simp [String.length, String.ext_iff]

/-! ## The last `':'` -/

section LastIndex

variable (c : Char)

/-- Without `c`, `strings.LastIndex` is `-1`. -/
theorem lastIndexAux_of_not_mem : ∀ {l : List Char}, c ∉ l → lastIndexAux c l = -1
  | [], _ => rfl
  | x :: xs, h => by
    have hx : x ≠ c := fun e => h (e ▸ List.mem_cons_self _ _)
    rw [lastIndexAux, lastIndexAux_of_not_mem (List.not_mem_of_not_mem_cons h), if_neg (by omega),
      if_neg hx]

/-- The position of a `c` with no `c` after it. -/
theorem lastIndexAux_append_cons {l₂ : List Char} (h : c ∉ l₂) :
    ∀ l₁ : List Char, lastIndexAux c (l₁ ++ c :: l₂) = l₁.length
  | [] => by
    rw [List.nil_append, lastIndexAux, lastIndexAux_of_not_mem c h, if_neg (by omega), if_pos rfl]
    rfl
  | x :: xs => by
    rw [List.cons_append, lastIndexAux, lastIndexAux_append_cons h xs, if_pos (by omega)]
    simp

/-- A list either has no `c`, or is cut at its last `c`. -/
theorem lastIndexAux_cases : ∀ l : List Char,
    (c ∉ l ∧ lastIndexAux c l = -1) ∨
      ∃ l₁ l₂, l = l₁ ++ c :: l₂ ∧ c ∉ l₂ ∧ lastIndexAux c l = l₁.length
  | [] => .inl ⟨List.not_mem_nil _, rfl⟩
  | x :: xs => by
    rcases lastIndexAux_cases xs with ⟨hn, -⟩ | ⟨l₁, l₂, rfl, hn, -⟩
    · by_cases hx : x = c
      · subst hx
        exact .inr ⟨[], xs, rfl, hn, lastIndexAux_append_cons x hn []⟩
      · exact .inl ⟨fun h => (List.mem_cons.1 h).elim (fun e => hx e.symm) hn,
          lastIndexAux_of_not_mem c fun h => (List.mem_cons.1 h).elim (fun e => hx e.symm) hn⟩
    · exact .inr ⟨x :: l₁, l₂, rfl, hn, lastIndexAux_append_cons c hn (x :: l₁)⟩

end LastIndex

/-- `strings.LastIndex(s, ":")` of `host:port` with no `':'` in `port`. -/
theorem lastIndex_append {host port : String} (hp : ':' ∉ port.toList) :
    lastIndex (host ++ ":" ++ port) ':' = host.length := by
  rw [lastIndex, show (host ++ ":" ++ port).toList = host.toList ++ ':' :: port.toList by simp,
    lastIndexAux_append_cons _ hp]
  rfl

/-- A string either has no `':'`, or is `host:port` with no `':'` in `port`. -/
theorem lastIndex_cases (s : String) :
    (':' ∉ s.toList ∧ lastIndex s ':' = -1) ∨
      ∃ host port, s = host ++ ":" ++ port ∧ ':' ∉ port.toList ∧ lastIndex s ':' = host.length := by
  rcases lastIndexAux_cases ':' s.toList with h | ⟨l₁, l₂, hs, hn, he⟩
  · exact .inl h
  · exact .inr ⟨String.mk l₁, String.mk l₂, String.ext (by simpa using hs), hn, he⟩

/-! ## `getPortFromNodeDefs` -/

section Port

variable (env : AddEnv G) (nodeDef : NodeDef) (key : String)

/-- The error of the lookup is returned as it is. -/
@[simp] theorem getPortFromNodeDefs_snd :
    (getPortFromNodeDefs env nodeDef key).2 = (env.getFromParsedExtras nodeDef key).2 := by
  unfold getPortFromNodeDefs
  cases env.getFromParsedExtras nodeDef key
  rfl

/-- Cutting `host:port` at its last `':'` gives back `port`. -/
theorem getPortFromNodeDefs_of_append {host port : String}
    (h : env.getFromParsedExtras nodeDef key = (some (.str (host ++ ":" ++ port)), none))
    (hp : ':' ∉ port.toList) : getPortFromNodeDefs env nodeDef key = (port, none) := by
  have hlen : (host ++ ":" ++ port).length = host.length + 1 + port.length := by
    simp only [String.length_append]; rfl
  unfold getPortFromNodeDefs
  rw [h]
  dsimp only
  rw [lastIndex_append hp, hlen]
  split_ifs with hc
  · rw [show (↑host.length + 1 : Int).toNat = host.toList.length + 1 from rfl,
      show (host ++ ":" ++ port).toList = host.toList ++ ':' :: port.toList by simp, List.drop_append]
    rfl
  · have h0 : port = "" := not_not.1 fun hne => by
      have := (ne_empty_iff_length_pos port).1 hne
      push_cast at hc; omega
    rw [h0]

/-- A bind value without `':'` gives no port. -/
theorem getPortFromNodeDefs_of_not_mem {s : String}
    (h : env.getFromParsedExtras nodeDef key = (some (.str s), none)) (hs : ':' ∉ s.toList) :
    getPortFromNodeDefs env nodeDef key = ("", none) := by
  unfold getPortFromNodeDefs
  rw [h]
  dsimp only
  rw [lastIndex, lastIndexAux_of_not_mem _ hs, if_neg (by omega)]

/-- A lookup that fails, or finds no string, gives no port. -/
theorem getPortFromNodeDefs_fst_of_not_str
    (h : ∀ s, env.getFromParsedExtras nodeDef key ≠ (some (.str s), none)) :
    (getPortFromNodeDefs env nodeDef key).1 = "" := by
  unfold getPortFromNodeDefs
  cases hl : env.getFromParsedExtras nodeDef key with
  | mk v err =>
    rcases err with _ | _ <;> rcases v with _ | _ | _ <;> try rfl
    exact absurd hl (h _)

/-- `getPortFromNodeDefs` returns the lookup's error as it is, and a port
without `':'`: for a bind value `host:port` with no `':'` in `port` it is
`port` (empty when the value ends in `':'`), and for a value without `':'`, a
failed lookup, or a value that is not a string, it is empty. -/
theorem getPortFromNodeDefs_cases :
    (getPortFromNodeDefs env nodeDef key).2 = (env.getFromParsedExtras nodeDef key).2 ∧
      ':' ∉ (getPortFromNodeDefs env nodeDef key).1.toList ∧
      (∀ host port, env.getFromParsedExtras nodeDef key = (some (.str (host ++ ":" ++ port)), none) →
        ':' ∉ port.toList → (getPortFromNodeDefs env nodeDef key).1 = port) ∧
      (∀ s, env.getFromParsedExtras nodeDef key = (some (.str s), none) → ':' ∉ s.toList →
        (getPortFromNodeDefs env nodeDef key).1 = "") ∧
      ((∀ s, env.getFromParsedExtras nodeDef key ≠ (some (.str s), none)) →
        (getPortFromNodeDefs env nodeDef key).1 = "") := by
  refine ⟨getPortFromNodeDefs_snd env nodeDef key, ?_,
    fun _ _ h hp => by rw [getPortFromNodeDefs_of_append env nodeDef key h hp],
    fun _ h hs => by rw [getPortFromNodeDefs_of_not_mem env nodeDef key h hs],
    fun h => getPortFromNodeDefs_fst_of_not_str env nodeDef key h⟩
  by_cases hstr : ∃ s, env.getFromParsedExtras nodeDef key = (some (.str s), none)
  · obtain ⟨s, h⟩ := hstr
    rcases lastIndex_cases s with ⟨hs, -⟩ | ⟨host, port, rfl, hp, -⟩
    · rw [getPortFromNodeDefs_of_not_mem env nodeDef key h hs]
      exact List.not_mem_nil _
    · rw [getPortFromNodeDefs_of_append env nodeDef key h hp]
      exact hp
  · rw [getPortFromNodeDefs_fst_of_not_str env nodeDef key fun s h => hstr ⟨s, h⟩]
    exact List.not_mem_nil _

end Port

/-! ## One remote pindex

`addGrpcClient`, the body of the first loop, is written here with its pieces
named: the host it cuts from `HostPort` (`hostOf`) and the port and certificate
it picks (`grpcPortOf`). -/

/-- `HostPort[:delimiterPos]`: the host `addGrpcClients` cuts from a node's
`HostPort`. -/
def hostOf (hostPort : String) : String :=
  String.mk (hostPort.toList.take (lastIndex hostPort ':').toNat)

/-- The port and certificate `addGrpcClients` dials a node with: under
encryption, the `bindGRPCSSL` port and the certificate when that lookup
succeeds; otherwise the `bindGRPC` port when its lookup succeeds, or `""`. -/
def grpcPortOf (env : AddEnv G) (nodeDef : NodeDef) : String × List UInt8 :=
  let port :=
    match getPortFromNodeDefs env nodeDef "bindGRPC" with
    | (bindPort, none) => bindPort
    | _ => ""
  if env.securitySetting.encryptionEnabled then
    match getPortFromNodeDefs env nodeDef "bindGRPCSSL" with
    | (bindPort, none) => (bindPort, env.securitySetting.certInBytes)
    | _ => (port, [])
  else (port, [])

/-- `onlyPIndexes` lets the pindex `name` through: it is nil, or maps `name` to
`true`. -/
def admits (onlyPIndexes : Option (String → Bool)) (name : String) : Bool :=
  onlyPIndexes.all fun only => only name

theorem any_not_eq_true_iff (onlyPIndexes : Option (String → Bool)) (name : String) :
    (onlyPIndexes.any fun only => !only name) = true ↔ admits onlyPIndexes name = false := by
  cases onlyPIndexes <;> simp [admits]

/-- The cut of `host:port` is `host`. -/
theorem hostOf_append {host port : String} (hp : ':' ∉ port.toList) :
    hostOf (host ++ ":" ++ port) = host := by
  rw [hostOf, lastIndex_append hp]
  show String.mk ((host.data ++ [':'] ++ port.data).take host.data.length) = host
  rw [List.append_assoc, List.take_left]

/-- The test of `addGrpcClients` that a `HostPort` has a port passes exactly for
`host:port` with a non-empty `port` free of `':'`. -/
theorem hasPort_iff (s : String) :
    ¬ (lastIndex s ':' < 0 ∨ (s.length : Int) - 1 ≤ lastIndex s ':') ↔
      ∃ host port, s = host ++ ":" ++ port ∧ ':' ∉ port.toList ∧ port ≠ "" := by
  constructor
  · intro h
    rcases lastIndex_cases s with ⟨-, he⟩ | ⟨host, port, rfl, hp, -⟩
    · rw [he] at h; omega
    · refine ⟨host, port, rfl, hp, (ne_empty_iff_length_pos port).2 ?_⟩
      rw [lastIndex_append hp, String.length_append, String.length_append] at h
      have : ":".length = 1 := rfl
      omega
  · rintro ⟨host, port, rfl, hp, hne⟩
    have := (ne_empty_iff_length_pos port).1 hne
    have : ":".length = 1 := rfl
    rw [lastIndex_append hp, String.length_append, String.length_append]
    omega

section Client

variable (env : AddEnv G) (mgr : M) (indexName indexUUID : String) (consistencyParams : C)
  (onlyPIndexes : Option (String → Bool))

/-- `addGrpcClient` with its pieces named. -/
theorem addGrpcClient_eq (r : RemotePlanPIndex) :
    addGrpcClient (W := W) env mgr indexName indexUUID consistencyParams onlyPIndexes r =
      if onlyPIndexes.any (fun only => !only r.planPIndex.name) then .ok none
      else if lastIndex r.nodeDef.hostPort ':' < 0 ∨
          (r.nodeDef.hostPort.length : Int) - 1 ≤ lastIndex r.nodeDef.hostPort ':' then .ok none
      else if (grpcPortOf env r.nodeDef).1 = "" then
        .error ("grpc_client: no ports found for host: " ++ hostOf r.nodeDef.hostPort)
      else
        match env.getRpcClient r.nodeDef.uuid
            (hostOf r.nodeDef.hostPort ++ ":" ++ (grpcPortOf env r.nodeDef).1)
            (grpcPortOf env r.nodeDef).2 with
        | .error _ => .ok none
        | .ok cli => .ok (some
            { mgr := mgr,
              name := "grpcClient - " ++ (hostOf r.nodeDef.hostPort ++ ":" ++ (grpcPortOf env r.nodeDef).1),
              hostPort := hostOf r.nodeDef.hostPort ++ ":" ++ (grpcPortOf env r.nodeDef).1,
              indexName := indexName, indexUUID := indexUUID,
              pIndexNames := [r.planPIndex.name], consistency := consistencyParams,
              grpcCli := cli, sc := none }) :=
  rfl

/-- The host of a `HostPort` is its part before the last `':'`, whichever way
it is written as `host:port`. -/
theorem hostOf_eq_of_hasPort {s host port : String} (hs : s = host ++ ":" ++ port)
    (hp : ':' ∉ port.toList) : hostOf s = host := by
  rw [hs, hostOf_append hp]

/-- `addGrpcClient` fails exactly for an admitted pindex whose node has a port
in its `HostPort` but advertises none, naming the node's host. -/
theorem addGrpcClient_eq_error {r : RemotePlanPIndex} {e : String} :
    addGrpcClient (W := W) env mgr indexName indexUUID consistencyParams onlyPIndexes r = .error e ↔
      admits onlyPIndexes r.planPIndex.name = true ∧
        (∃ host httpPort, r.nodeDef.hostPort = host ++ ":" ++ httpPort ∧ ':' ∉ httpPort.toList ∧
          httpPort ≠ "" ∧ e = "grpc_client: no ports found for host: " ++ host) ∧
        (grpcPortOf env r.nodeDef).1 = "" := by
  rw [addGrpcClient_eq]
  split_ifs with h₁ h₂ h₃
  · refine iff_of_false (by simp) fun ⟨ha, _⟩ => ?_
    rw [any_not_eq_true_iff, ha] at h₁
    cases h₁
  · exact iff_of_false (by simp) fun ⟨_, ⟨host, httpPort, hs, hp, hne, _⟩, _⟩ =>
      (hasPort_iff _).2 ⟨host, httpPort, hs, hp, hne⟩ h₂
  · obtain ⟨host, httpPort, hs, hp, hne⟩ := (hasPort_iff _).1 h₂
    rw [any_not_eq_true_iff, Bool.not_eq_false] at h₁
    simp only [Except.error.injEq, h₁, h₃, true_and, and_true]
    constructor
    · rintro rfl
      exact ⟨host, httpPort, hs, hp, hne, by rw [hostOf_eq_of_hasPort hs hp]⟩
    · rintro ⟨host', httpPort', hs', hp', -, rfl⟩
      rw [hostOf_eq_of_hasPort hs' hp']
  · exact iff_of_false (by split <;> simp) fun ⟨_, _, h⟩ => h₃ h

/-- A client `addGrpcClient` builds is for an admitted pindex, on a node with a
port in its `HostPort`, and dials the node's host at the port it advertises. -/
theorem addGrpcClient_eq_some {r : RemotePlanPIndex} {c : GrpcClient M C G W}
    (h : addGrpcClient env mgr indexName indexUUID consistencyParams onlyPIndexes r = .ok (some c)) :
    admits onlyPIndexes r.planPIndex.name = true ∧
      (∃ host httpPort, r.nodeDef.hostPort = host ++ ":" ++ httpPort ∧ ':' ∉ httpPort.toList ∧
        httpPort ≠ "" ∧ c.hostPort = host ++ ":" ++ (grpcPortOf env r.nodeDef).1) ∧
      (grpcPortOf env r.nodeDef).1 ≠ "" ∧ c.pIndexNames = [r.planPIndex.name] := by
  rw [addGrpcClient_eq] at h
  split_ifs at h with h₁ h₂ h₃
  · cases h
  · cases h
  split at h
  · cases h
  · cases h
    obtain ⟨host, httpPort, hs, hp, hne⟩ := (hasPort_iff _).1 h₂
    rw [any_not_eq_true_iff, Bool.not_eq_false] at h₁
    exact ⟨h₁, ⟨host, httpPort, hs, hp, hne, by rw [hostOf_eq_of_hasPort hs hp]⟩, h₃, rfl⟩

end Client

/-! ## The whole plan -/

section Plan

variable (env : AddEnv G) (mgr : M) (indexName indexUUID : String) (consistencyParams : C)
  (onlyPIndexes : Option (String → Bool))

/-- The first loop fails only with the error of some pindex's client. -/
theorem remoteClientsOf_eq_error : ∀ {rs : List RemotePlanPIndex} {e : String},
    remoteClientsOf (W := W) env mgr indexName indexUUID consistencyParams onlyPIndexes rs = .error e →
      ∃ r ∈ rs,
        addGrpcClient (W := W) env mgr indexName indexUUID consistencyParams onlyPIndexes r = .error e
  | [], _, h => by cases h
  | r :: rs, e, h => by
    simp only [remoteClientsOf, bind, Except.bind, pure, Except.pure] at h
    split at h
    · cases h
      exact ⟨r, List.mem_cons_self _ _, ‹_›⟩
    · split at h
      · cases h
        obtain ⟨r', hr', he⟩ := remoteClientsOf_eq_error ‹_›
        exact ⟨r', List.mem_cons_of_mem _ hr', he⟩
      · cases h

/-- The first loop fails as soon as some pindex's client fails. -/
theorem remoteClientsOf_error_of_mem :
    ∀ {rs : List RemotePlanPIndex} {r : RemotePlanPIndex} {e : String}, r ∈ rs →
      addGrpcClient (W := W) env mgr indexName indexUUID consistencyParams onlyPIndexes r = .error e →
        ∃ e', remoteClientsOf (W := W) env mgr indexName indexUUID consistencyParams onlyPIndexes rs =
          .error e'
  | r₀ :: rs, r, e, hr, he => by
    simp only [remoteClientsOf, bind, Except.bind, pure, Except.pure]
    rcases List.mem_cons.1 hr with rfl | hr
    · rw [he]
      exact ⟨e, rfl⟩
    · split
      · exact ⟨_, rfl⟩
      · obtain ⟨e', he'⟩ := remoteClientsOf_error_of_mem hr he
        rw [he']
        exact ⟨e', rfl⟩

/-- Every client of the first loop is built for a pindex of the plan. -/
theorem remoteClientsOf_mem : ∀ {rs : List RemotePlanPIndex} {cs : List (GrpcClient M C G W)},
    remoteClientsOf env mgr indexName indexUUID consistencyParams onlyPIndexes rs = .ok cs →
      ∀ c ∈ cs, ∃ r ∈ rs,
        addGrpcClient env mgr indexName indexUUID consistencyParams onlyPIndexes r = .ok (some c)
  | [], _, h => by cases h; exact fun _ h => nomatch h
  | r :: rs, cs, h => by
    simp only [remoteClientsOf, bind, Except.bind, pure, Except.pure] at h
    split at h
    · cases h
    · rename_i c hc
      split at h
      · cases h
      · rename_i cs' hcs
        cases h
        intro x hx
        rcases List.mem_append.1 hx with hx | hx
        · cases c with
          | none => cases hx
          | some c => exact ⟨r, List.mem_cons_self _ _, List.mem_singleton.1 hx ▸ hc⟩
        · obtain ⟨r', hr', he⟩ := remoteClientsOf_mem hcs x hx
          exact ⟨r', List.mem_cons_of_mem _ hr', he⟩

/-- Each pindex a client of the first loop lists is an admitted pindex of the
plan, held by a node whose host and advertised port make up the client's
`HostPort`. -/
theorem remoteClientsOf_dials {rs : List RemotePlanPIndex} {cs : List (GrpcClient M C G W)}
    (h : remoteClientsOf env mgr indexName indexUUID consistencyParams onlyPIndexes rs = .ok cs)
    {x : GrpcClient M C G W} (hx : x ∈ cs) {p : String} (hp : p ∈ x.pIndexNames) :
    ∃ r ∈ rs, r.planPIndex.name = p ∧ admits onlyPIndexes p = true ∧
      (grpcPortOf env r.nodeDef).1 ≠ "" ∧
      ∃ host httpPort, r.nodeDef.hostPort = host ++ ":" ++ httpPort ∧ ':' ∉ httpPort.toList ∧
        httpPort ≠ "" ∧ x.hostPort = host ++ ":" ++ (grpcPortOf env r.nodeDef).1 := by
  obtain ⟨r, hr, hrx⟩ := remoteClientsOf_mem env mgr indexName indexUUID consistencyParams
    onlyPIndexes h x hx
  obtain ⟨ha, ⟨host, httpPort, hs, hpp, hne, hxp⟩, hport, hnames⟩ :=
    addGrpcClient_eq_some env mgr indexName indexUUID consistencyParams onlyPIndexes hrx
  rw [hnames, List.mem_singleton] at hp
  subst hp
  exact ⟨r, hr, rfl, ha, hport, host, httpPort, hs, hpp, hne, hxp⟩

/-- `addGrpcClients` fails exactly when some admitted pindex of the plan sits on
a node whose `HostPort` has a port but which advertises no gRPC port; it then
hands out no client, and its error names the host of such a node. -/
theorem addGrpcClients_fails_iff (rs : List RemotePlanPIndex) (groupByNode : Bool) :
    ((∃ e, (addGrpcClients (W := W) env mgr indexName indexUUID rs consistencyParams onlyPIndexes
        groupByNode).2 = .error e) ↔
      ∃ r ∈ rs, admits onlyPIndexes r.planPIndex.name = true ∧
        (∃ host httpPort, r.nodeDef.hostPort = host ++ ":" ++ httpPort ∧ ':' ∉ httpPort.toList ∧
          httpPort ≠ "") ∧
        (grpcPortOf env r.nodeDef).1 = "") ∧
      ∀ e, (addGrpcClients (W := W) env mgr indexName indexUUID rs consistencyParams onlyPIndexes
          groupByNode).2 = .error e →
        (addGrpcClients (W := W) env mgr indexName indexUUID rs consistencyParams onlyPIndexes
          groupByNode).1 = [] ∧
        ∃ r ∈ rs, admits onlyPIndexes r.planPIndex.name = true ∧
          ∃ host httpPort, r.nodeDef.hostPort = host ++ ":" ++ httpPort ∧ ':' ∉ httpPort.toList ∧
            httpPort ≠ "" ∧ e = "grpc_client: no ports found for host: " ++ host := by
  unfold addGrpcClients
  cases h : remoteClientsOf (W := W) env mgr indexName indexUUID consistencyParams onlyPIndexes rs with
  | error e =>
    obtain ⟨r, hr, he⟩ := remoteClientsOf_eq_error env mgr indexName indexUUID consistencyParams
      onlyPIndexes h
    obtain ⟨ha, ⟨host, httpPort, hs, hp, hne, rfl⟩, hport⟩ :=
      (addGrpcClient_eq_error env mgr indexName indexUUID consistencyParams onlyPIndexes).1 he
    refine ⟨iff_of_true ⟨_, rfl⟩ ⟨r, hr, ha, ⟨host, httpPort, hs, hp, hne⟩, hport⟩, fun e he => ?_⟩
    cases he
    exact ⟨rfl, r, hr, ha, host, httpPort, hs, hp, hne, rfl⟩
  | ok cs =>
    refine ⟨iff_of_false (by simp) fun ⟨r, hr, ha, ⟨host, httpPort, hs, hp, hne⟩, hport⟩ => ?_,
      fun e he => by cases he⟩
    obtain ⟨e', he'⟩ := remoteClientsOf_error_of_mem env mgr indexName indexUUID consistencyParams
      onlyPIndexes hr ((addGrpcClient_eq_error env mgr indexName indexUUID consistencyParams
        onlyPIndexes).2 ⟨ha, ⟨host, httpPort, hs, hp, hne, rfl⟩, hport⟩)
    rw [h] at he'
    cases he'

/-- With or without `groupByNode`, every pindex a client of `addGrpcClients`
searches is an admitted pindex of the plan, held by a node whose host (its
`HostPort` up to the last `':'`) and advertised gRPC port make up the client's
`HostPort`. -/
theorem addGrpcClients_dials_holders (rs : List RemotePlanPIndex) (groupByNode : Bool) :
    ∀ c ∈ (addGrpcClients (W := W) env mgr indexName indexUUID rs consistencyParams onlyPIndexes
        groupByNode).1, ∀ p ∈ c.pIndexNames,
      ∃ r ∈ rs, r.planPIndex.name = p ∧ admits onlyPIndexes p = true ∧
        (grpcPortOf env r.nodeDef).1 ≠ "" ∧
        ∃ host httpPort, r.nodeDef.hostPort = host ++ ":" ++ httpPort ∧ ':' ∉ httpPort.toList ∧
          httpPort ≠ "" ∧ c.hostPort = host ++ ":" ++ (grpcPortOf env r.nodeDef).1 := by
  unfold addGrpcClients
  cases h : remoteClientsOf (W := W) env mgr indexName indexUUID consistencyParams onlyPIndexes rs with
  | error e => exact fun _ hc => nomatch hc
  | ok cs =>
    intro c hc p hp
    cases groupByNode with
    | false =>
      exact remoteClientsOf_dials env mgr indexName indexUUID consistencyParams onlyPIndexes h hc hp
    | true =>
      rw [pIndexNames_eq_of_triple (triple_eq_of_remoteClientsOf h) hc] at hp
      obtain ⟨x, hx, hpx⟩ := List.mem_flatMap.1 hp
      obtain ⟨hx, hxc⟩ := List.mem_filter.1 hx
      have hxc : x.hostPort = c.hostPort := congrArg Prod.fst (of_decide_eq_true hxc)
      rw [← hxc]
      exact remoteClientsOf_dials env mgr indexName indexUUID consistencyParams onlyPIndexes h hx hpx

/-- A node `node1:8094` advertising `bindGRPC` as `0.0.0.0:9130`, without
encryption, to which every connection succeeds. -/
def dialEnv : AddEnv Unit where
  getFromParsedExtras _ key :=
    if key = "bindGRPC" then (some (.str "0.0.0.0:9130"), none) else (none, some "no such key")
  securitySetting := ⟨false, []⟩
  getRpcClient _ _ _ := .ok ()

/-- The pindex `p1` on that node. -/
def dialPlan : List RemotePlanPIndex := [⟨⟨"p1"⟩, ⟨"node1:8094", "n1", ""⟩⟩]

/-- The client `addGrpcClients` builds for it. -/
def dialClient : GrpcClient Unit Unit Unit Unit :=
  ⟨(), "grpcClient - node1:9130", "node1:9130", "idx", "uuid", ["p1"], (), (), none⟩

/-- The client for `p1` dials `node1:9130`. -/
theorem addGrpcClients_dials_holders_node1 :
    dialClient ∈ (addGrpcClients dialEnv () "idx" "uuid" dialPlan () none false).1 ∧
      "p1" ∈ dialClient.pIndexNames ∧
      ∃ r ∈ dialPlan, r.planPIndex.name = "p1" ∧ admits none "p1" = true ∧
        (grpcPortOf dialEnv r.nodeDef).1 ≠ "" ∧
        ∃ host httpPort, r.nodeDef.hostPort = host ++ ":" ++ httpPort ∧ ':' ∉ httpPort.toList ∧
          httpPort ≠ "" ∧ dialClient.hostPort = host ++ ":" ++ (grpcPortOf dialEnv r.nodeDef).1 :=
  have e : (addGrpcClients (W := Unit) dialEnv () "idx" "uuid" dialPlan () none false).1 =
      [dialClient] := rfl
  have hc : dialClient ∈ (addGrpcClients dialEnv () "idx" "uuid" dialPlan () none false).1 :=
    e ▸ List.mem_singleton_self _
  have hp : "p1" ∈ dialClient.pIndexNames := List.mem_singleton_self _
  ⟨hc, hp, addGrpcClients_dials_holders dialEnv () "idx" "uuid" () none dialPlan false _ hc _ hp⟩

end Plan

end Cbft.Grpc
