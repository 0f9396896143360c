import Cbft.Grpc.Client
import Mathlib.Data.List.Nodup

/-!
# Grouping clients by node

`GroupGrpcClientsByHostPort` walks the clients once, keeping a Go map from the
grouping key to the merged client of that key.  We first take the map away: the
map only remembers where the client of a key sits in `rv`
(`PositionsInv`), so the loop computes `groupInto`, which appends a client's
pindex names to the merged client of the same key, or adds a merged client for
a new key.  Over `groupInto` the grouping keeps one merged client per key, and
each merged client lists exactly the pindex names of the clients of its key, in
their order (`GroupInv`).  So grouping loses and duplicates no pindex, and
`addGrpcClients` hands out the same pindexes whether or not it groups.

The grouping keeps one merged client per key, the first client of the key with
the pindex names of all.  The key is a string, and clients of different
`(HostPort, IndexName, IndexUUID)` triples share it when a field contains `'/'`,
so there is one merged client per triple only where the key determines the
triple.
-/

namespace Cbft.Grpc

variable {M C G W : Type}

/-! ## The grouping without the map -/

/-- The loop of `GroupGrpcClientsByHostPort` with the map replaced by a search of
`rv` for the key. -/
def groupInto (rv : List (GrpcClient M C G W)) (client : GrpcClient M C G W) :
    List (GrpcClient M C G W) :=
  if rv.any fun c => groupByKey c = groupByKey client then
    rv.map fun c =>
      if groupByKey c = groupByKey client then c.appendPIndexNames client.pIndexNames else c
  else rv ++ [client.newGroup.appendPIndexNames client.pIndexNames]

/-- Appending pindex names keeps the key. -/
@[simp] theorem groupByKey_appendPIndexNames (names : List String) (c : GrpcClient M C G W) :
    groupByKey (c.appendPIndexNames names) = groupByKey c := rfl

/-- The merged client made for a key has that key. -/
@[simp] theorem groupByKey_newGroup (c : GrpcClient M C G W) :
    groupByKey c.newGroup = groupByKey c := rfl

@[simp] theorem pIndexNames_appendPIndexNames (names : List String) (c : GrpcClient M C G W) :
    (c.appendPIndexNames names).pIndexNames = c.pIndexNames ++ names := rfl

@[simp] theorem pIndexNames_newGroup (c : GrpcClient M C G W) :
    c.newGroup.pIndexNames = [] := rfl

/-- A client of a key already grouped joins the group of that key. -/
theorem groupInto_of_any {rv : List (GrpcClient M C G W)} {x : GrpcClient M C G W}
    (h : ∃ c ∈ rv, groupByKey c = groupByKey x) :
    groupInto rv x = rv.map fun c =>
      if groupByKey c = groupByKey x then c.appendPIndexNames x.pIndexNames else c :=
  let ⟨c, hc, hcx⟩ := h
  if_pos (List.any_eq_true.2 ⟨c, hc, decide_eq_true hcx⟩)

/-- A client of a new key opens a group at the end. -/
theorem groupInto_of_not_any {rv : List (GrpcClient M C G W)} {x : GrpcClient M C G W}
    (h : ¬ ∃ c ∈ rv, groupByKey c = groupByKey x) :
    groupInto rv x = rv ++ [x.newGroup.appendPIndexNames x.pIndexNames] :=
  if_neg fun ha =>
    let ⟨c, hc, hcx⟩ := List.any_eq_true.1 ha
    h ⟨c, hc, of_decide_eq_true hcx⟩

/-- A group opened for a new key keeps the keys of `rv` apart. -/
theorem nodup_keys_append_newGroup {rv : List (GrpcClient M C G W)} {x : GrpcClient M C G W}
    (names : List String) (hnd : (rv.map groupByKey).Nodup)
    (hno : ∀ c ∈ rv, groupByKey c ≠ groupByKey x) :
    ((rv ++ [x.newGroup.appendPIndexNames names]).map groupByKey).Nodup := by
  rw [List.map_append, List.nodup_append]
  refine ⟨hnd, List.nodup_singleton _, fun k hk hk' => ?_⟩
  obtain ⟨c, hc, rfl⟩ := List.mem_map.1 hk
  rw [List.map_singleton, List.mem_singleton, groupByKey_appendPIndexNames, groupByKey_newGroup] at hk'
  exact hno c hc hk'

/-! ## The map holds positions -/

/-- The map of the loop holds, for each key, the position in `rv` of the client
of that key, and no two clients of `rv` share a key. -/
structure PositionsInv (m : String → Option Nat) (rv : List (GrpcClient M C G W)) : Prop where
  nodup : (rv.map groupByKey).Nodup
  pos : ∀ k, m k = rv.findIdx? fun c => groupByKey c = k

/-- Updating the clients of a key that no client has changes nothing. -/
theorem map_ite_eq_self {f : GrpcClient M C G W → GrpcClient M C G W} {k : String}
    {cs : List (GrpcClient M C G W)} (h : ∀ d ∈ cs, groupByKey d ≠ k) :
    (cs.map fun d => if groupByKey d = k then f d else d) = cs :=
  calc cs.map (fun d => if groupByKey d = k then f d else d) = cs.map id :=
        List.map_congr_left fun d hd => if_neg (h d hd)
    _ = cs := List.map_id cs

/-- Updating the one client of a key at its position is updating every client of
that key. -/
theorem modify_eq_map_of_nodup (f : GrpcClient M C G W → GrpcClient M C G W) :
    ∀ {rv : List (GrpcClient M C G W)} {i : Nat} (h : i < rv.length),
      (rv.map groupByKey).Nodup →
      rv.modify f i = rv.map fun c => if groupByKey c = groupByKey rv[i] then f c else c
  | c :: cs, 0, _, hnd => by
    have hc : ∀ d ∈ cs, groupByKey d ≠ groupByKey c := fun d hd he =>
      (List.nodup_cons.1 hnd).1 (List.mem_map.2 ⟨d, hd, he⟩)
    simp only [List.modify_zero_cons, List.getElem_cons_zero, List.map_cons, if_true,
      map_ite_eq_self hc]
  | c :: cs, i + 1, h, hnd => by
    have hi : i < cs.length := Nat.lt_of_succ_lt_succ h
    have hc : groupByKey c ≠ groupByKey cs[i] := fun he =>
      (List.nodup_cons.1 hnd).1 (List.mem_map.2 ⟨cs[i], List.getElem_mem hi, he.symm⟩)
    simp only [List.modify_succ_cons, List.getElem_cons_succ, List.map_cons, if_neg hc,
      modify_eq_map_of_nodup f hi (List.nodup_cons.1 hnd).2]

/-- Updating the last client of `rv ++ [x]`. -/
theorem modify_append_length (f : GrpcClient M C G W → GrpcClient M C G W)
    (x : GrpcClient M C G W) : ∀ rv : List (GrpcClient M C G W),
      (rv ++ [x]).modify f rv.length = rv ++ [f x]
  | [] => rfl
  | c :: cs => by
    simp only [List.cons_append, List.length_cons, List.modify_succ_cons,
      modify_append_length f x cs]

/-- Appending pindex names to the clients of one key keeps every key. -/
theorem groupByKey_comp_ite (p : GrpcClient M C G W → Prop) [DecidablePred p] (names : List String) :
    (groupByKey ∘ fun c => if p c then c.appendPIndexNames names else c) = groupByKey := by
  funext c
  simp only [Function.comp_apply, apply_ite groupByKey, groupByKey_appendPIndexNames, ite_self]

/-- One iteration of the loop computes `groupInto`, and keeps the map holding
positions. -/
theorem groupStep_refines {m : String → Option Nat} {rv : List (GrpcClient M C G W)}
    (hi : PositionsInv m rv) (client : GrpcClient M C G W) :
    (groupStep (m, rv) client).2 = groupInto rv client ∧
      PositionsInv (groupStep (m, rv) client).1 (groupStep (m, rv) client).2 := by
  cases hm : m (groupByKey client) with
  | some i =>
    obtain ⟨hlt, hk, -⟩ := List.findIdx?_eq_some_iff_getElem.1 ((hi.pos _).symm.trans hm)
    have hk : groupByKey rv[i] = groupByKey client := of_decide_eq_true hk
    simp only [groupStep, hm, groupInto_of_any ⟨rv[i], List.getElem_mem hlt, hk⟩,
      modify_eq_map_of_nodup _ hlt hi.nodup, hk, true_and]
    refine ⟨?_, fun k => ?_⟩
    · rw [List.map_map, groupByKey_comp_ite]
      exact hi.nodup
    · rw [hi.pos k, List.findIdx?_map, Function.comp_def]
      simp only [apply_ite groupByKey, groupByKey_appendPIndexNames, ite_self]
  | none =>
    have hno : ∀ c ∈ rv, groupByKey c ≠ groupByKey client := fun c hc he =>
      Bool.eq_false_iff.1 (List.findIdx?_eq_none_iff.1 ((hi.pos _).symm.trans hm) c hc)
        (decide_eq_true he)
    have hnone : rv.findIdx? (fun c => groupByKey c = groupByKey client) = none :=
      List.findIdx?_eq_none_iff.2 fun c hc => decide_eq_false (hno c hc)
    simp only [groupStep, hm, groupInto_of_not_any fun ⟨c, hc, he⟩ => hno c hc he,
      modify_append_length, true_and]
    refine ⟨nodup_keys_append_newGroup _ hi.nodup hno, fun k => ?_⟩
    by_cases hk : k = groupByKey client
    · subst hk
      simp [hnone]
    · simp [Function.update_noteq hk, hi.pos k, Ne.symm hk]

/-- The whole loop computes the fold of `groupInto`. -/
theorem foldl_groupStep_refines :
    ∀ (clients : List (GrpcClient M C G W)) {m : String → Option Nat}
      {rv : List (GrpcClient M C G W)}, PositionsInv m rv →
      (clients.foldl groupStep (m, rv)).2 = clients.foldl groupInto rv
  | [], _, _, _ => rfl
  | client :: clients, m, rv, hi => by
    have h := groupStep_refines hi client
    rw [List.foldl_cons, List.foldl_cons, ← h.1]
    exact foldl_groupStep_refines clients h.2

/-- `GroupGrpcClientsByHostPort` is the fold of `groupInto` from no client. -/
theorem groupGrpcClientsByHostPort_eq (clients : List (GrpcClient M C G W)) :
    groupGrpcClientsByHostPort clients = clients.foldl groupInto [] :=
  foldl_groupStep_refines clients ⟨List.nodup_nil, fun _ => rfl⟩

/-! ## What the grouping keeps -/

/-- After the clients `pre`, the grouped clients `rv` have one client per key,
every client of `pre` has the client of its key in `rv`, each client of `rv`
lists the pindex names of the clients of `pre` with its key in their order, and
together they list the pindex names of `pre`. -/
structure GroupInv (pre rv : List (GrpcClient M C G W)) : Prop where
  nodup : (rv.map groupByKey).Nodup
  covers : ∀ x ∈ pre, ∃ c ∈ rv, groupByKey c = groupByKey x
  names : ∀ c ∈ rv, c.pIndexNames =
    (pre.filter fun x => groupByKey x = groupByKey c).flatMap GrpcClient.pIndexNames
  perm : (rv.flatMap GrpcClient.pIndexNames).Perm (pre.flatMap GrpcClient.pIndexNames)

/-- Appending names to the one client of a key adds those names to the list of
all names. -/
theorem flatMap_map_ite_perm (names : List String) (k : String) :
    ∀ {rv : List (GrpcClient M C G W)}, (rv.map groupByKey).Nodup → (∃ c ∈ rv, groupByKey c = k) →
      ((rv.map fun c => if groupByKey c = k then c.appendPIndexNames names else c).flatMap
        GrpcClient.pIndexNames).Perm (rv.flatMap GrpcClient.pIndexNames ++ names)
  | c :: cs, hnd, hk => by
    by_cases hc : groupByKey c = k
    · have hcs : ∀ d ∈ cs, groupByKey d ≠ k := fun d hd he =>
        (List.nodup_cons.1 hnd).1 (List.mem_map.2 ⟨d, hd, he.trans hc.symm⟩)
      simp only [List.map_cons, if_pos hc, List.flatMap_cons, map_ite_eq_self hcs,
        pIndexNames_appendPIndexNames, List.append_assoc]
      exact List.perm_append_comm.append_left _
    · have hk : ∃ d ∈ cs, groupByKey d = k := by
        obtain ⟨d, hd, he⟩ := hk
        exact ⟨d, (List.mem_cons.1 hd).resolve_left (by rintro rfl; exact hc he), he⟩
      simp only [List.map_cons, if_neg hc, List.flatMap_cons, List.append_assoc]
      exact (flatMap_map_ite_perm names k (List.nodup_cons.1 hnd).2 hk).append_left _

/-- `groupInto` keeps `GroupInv` as one more client is processed. -/
theorem GroupInv.step {pre rv : List (GrpcClient M C G W)} (hi : GroupInv pre rv)
    (x : GrpcClient M C G W) : GroupInv (pre ++ [x]) (groupInto rv x) := by
  by_cases hany : ∃ c ∈ rv, groupByKey c = groupByKey x
  · obtain ⟨c₀, hc₀, hk₀⟩ := hany
    rw [groupInto_of_any ⟨c₀, hc₀, hk₀⟩]
    refine ⟨?_, fun y hy => ?_, fun c' hc' => ?_, ?_⟩
    · rw [List.map_map, groupByKey_comp_ite]
      exact hi.nodup
    · obtain ⟨c, hc, he⟩ : ∃ c ∈ rv, groupByKey c = groupByKey y := by
        rcases List.mem_append.1 hy with hy | hy
        · exact hi.covers y hy
        · exact ⟨c₀, hc₀, by rw [List.mem_singleton.1 hy, hk₀]⟩
      exact ⟨_, List.mem_map_of_mem _ hc, by simpa [apply_ite groupByKey] using he⟩
    · obtain ⟨c, hc, rfl⟩ := List.mem_map.1 hc'
      by_cases hck : groupByKey c = groupByKey x
      · simp [hck, hi.names c hc, List.filter_append]
      · simp [hck, hi.names c hc, List.filter_append, Ne.symm hck]
    · simpa using (flatMap_map_ite_perm _ _ hi.nodup ⟨c₀, hc₀, hk₀⟩).trans
        (hi.perm.append_right x.pIndexNames)
  · have hno : ∀ c ∈ rv, groupByKey c ≠ groupByKey x := fun c hc he => hany ⟨c, hc, he⟩
    rw [groupInto_of_not_any hany]
    have hpre : ∀ y ∈ pre, groupByKey y ≠ groupByKey x := fun y hy he =>
      let ⟨c, hc, hce⟩ := hi.covers y hy
      hno c hc (hce.trans he)
    refine ⟨nodup_keys_append_newGroup _ hi.nodup hno, fun y hy => ?_, fun c hc => ?_, ?_⟩
    · rcases List.mem_append.1 hy with hy | hy
      · obtain ⟨c, hc, he⟩ := hi.covers y hy
        exact ⟨c, List.mem_append_left _ hc, he⟩
      · exact ⟨_, List.mem_append_right _ (List.mem_singleton_self _),
          by simp [List.mem_singleton.1 hy]⟩
    · rcases List.mem_append.1 hc with hc | hc
      · simp [hi.names c hc, List.filter_append, Ne.symm (hno c hc)]
      · have hnil : pre.filter (fun y => groupByKey y = groupByKey x) = [] :=
          List.filter_eq_nil_iff.2 fun y hy => by simpa using hpre y hy
        simp [List.mem_singleton.1 hc, List.filter_append, hnil]
    · simpa using hi.perm.append_right x.pIndexNames

/-- `GroupInv` holds after any further clients. -/
theorem GroupInv.run : ∀ (clients : List (GrpcClient M C G W)) {pre rv : List (GrpcClient M C G W)},
    GroupInv pre rv → GroupInv (pre ++ clients) (clients.foldl groupInto rv)
  | [], _, _, hi => by simpa using hi
  | x :: xs, _, _, hi => by
    rw [List.foldl_cons, List.append_cons]
    exact GroupInv.run xs (hi.step x)

/-- What `GroupGrpcClientsByHostPort` returns satisfies `GroupInv` for all its
input. -/
theorem groupGrpcClientsByHostPort_inv (clients : List (GrpcClient M C G W)) :
    GroupInv clients (groupGrpcClientsByHostPort clients) := by
  have h := GroupInv.run clients
    (show GroupInv ([] : List (GrpcClient M C G W)) [] by constructor <;> simp)
  rwa [List.nil_append, ← groupGrpcClientsByHostPort_eq] at h

/-! ## Grouping in `addGrpcClients` -/

/-- Grouping loses and duplicates no pindex: the grouped clients list together
the pindex names of the clients up to order, each listing the names of the
clients of its key in their order.  So `addGrpcClients` fails with the same
error with or without `groupByNode`, or hands out (and adds to the collector)
clients that list the same pindex names up to order. -/
theorem groupByNode_keeps_pIndexNames (clients : List (GrpcClient M C G W)) (env : AddEnv G)
    (mgr : M) (indexName indexUUID : String) (remotePlanPIndexes : List RemotePlanPIndex)
    (consistencyParams : C) (onlyPIndexes : Option (String → Bool)) :
    ((groupGrpcClientsByHostPort clients).flatMap GrpcClient.pIndexNames).Perm
        (clients.flatMap GrpcClient.pIndexNames) ∧
      (∀ c ∈ groupGrpcClientsByHostPort clients, c.pIndexNames =
        (clients.filter fun x => groupByKey x = groupByKey c).flatMap GrpcClient.pIndexNames) ∧
      ((∃ err, addGrpcClients (W := W) env mgr indexName indexUUID remotePlanPIndexes
            consistencyParams onlyPIndexes true = ([], .error err) ∧
          addGrpcClients (W := W) env mgr indexName indexUUID remotePlanPIndexes
            consistencyParams onlyPIndexes false = ([], .error err)) ∨
        ∃ rvT rvF : List (GrpcClient M C G W),
          addGrpcClients env mgr indexName indexUUID remotePlanPIndexes consistencyParams
            onlyPIndexes true = (rvT, .ok rvT) ∧
          addGrpcClients env mgr indexName indexUUID remotePlanPIndexes consistencyParams
            onlyPIndexes false = (rvF, .ok rvF) ∧
          (rvT.flatMap GrpcClient.pIndexNames).Perm (rvF.flatMap GrpcClient.pIndexNames)) := by
  refine ⟨(groupGrpcClientsByHostPort_inv clients).perm,
    (groupGrpcClientsByHostPort_inv clients).names, ?_⟩
  unfold addGrpcClients
  cases remoteClientsOf env mgr indexName indexUUID consistencyParams onlyPIndexes
    remotePlanPIndexes with
  | error err => exact .inl ⟨err, rfl, rfl⟩
  | ok cs => exact .inr ⟨_, _, rfl, rfl, (groupGrpcClientsByHostPort_inv cs).perm⟩

/-! ## One merged client per key

The key joins the three fields with `'/'`, so two clients whose fields differ
can share a key when a field contains `'/'`; the grouping then merges them.  We
describe the grouped list by keys, through any view of the clients that tells
them apart as their keys do (`KeyedBy`), and give the two cases in which the
triple is such a view. -/

/-- The triple `(HostPort, IndexName, IndexUUID)` of a client. -/
def GrpcClient.triple (c : GrpcClient M C G W) : String × String × String :=
  (c.hostPort, c.indexName, c.indexUUID)

/-- A view of clients that tells the clients of `S` apart as their keys do. -/
def KeyedBy {β : Type} (φ : GrpcClient M C G W → β) (S : List (GrpcClient M C G W)) : Prop :=
  ∀ x ∈ S, ∀ y ∈ S, groupByKey x = groupByKey y ↔ φ x = φ y

/-- A list whose clients agree in key and view with clients of `S` is keyed as `S` is. -/
theorem KeyedBy.of_agree {β : Type} {φ : GrpcClient M C G W → β} {S S' : List (GrpcClient M C G W)}
    (hk : KeyedBy φ S) (h : ∀ z ∈ S', ∃ z₀ ∈ S, groupByKey z = groupByKey z₀ ∧ φ z = φ z₀) :
    KeyedBy φ S' := fun y hy z hz => by
  obtain ⟨y₀, hy₀, hky, hφy⟩ := h y hy
  obtain ⟨z₀, hz₀, hkz, hφz⟩ := h z hz
  rw [hky, hkz, hφy, hφz]
  exact hk y₀ hy₀ z₀ hz₀

section View

variable {β : Type} [BEq β] [LawfulBEq β] (φ : GrpcClient M C G W → β)
  (hφa : ∀ names c, φ (GrpcClient.appendPIndexNames names c) = φ c)
  (hφn : ∀ c : GrpcClient M C G W, φ c.newGroup = φ c)
include hφa hφn

/-- Grouping keeps the views of the clients with repeats removed, each at its
first occurrence, for a view that tells clients apart as their keys do. -/
theorem map_foldl_groupInto : ∀ (clients rv : List (GrpcClient M C G W)),
    KeyedBy φ (rv ++ clients) →
      (clients.foldl groupInto rv).map φ = List.eraseDups.loop (clients.map φ) (rv.map φ).reverse
  | [], rv, _ => by simp [List.eraseDups.loop]
  | x :: xs, rv, hk => by
    have hx : x ∈ rv ++ x :: xs := List.mem_append_right _ (List.mem_cons_self _ _)
    have hxs : ∀ z ∈ xs, z ∈ rv ++ x :: xs := fun z hz =>
      List.mem_append_right _ (List.mem_cons_of_mem _ hz)
    rw [List.foldl_cons, List.map_cons, List.eraseDups.loop]
    by_cases hany : ∃ c ∈ rv, groupByKey c = groupByKey x
    · obtain ⟨c, hc, hcx⟩ := hany
      have hmem : φ x ∈ (rv.map φ).reverse :=
        List.mem_reverse.2 (List.mem_map.2 ⟨c, hc, (hk c (List.mem_append_left _ hc) x hx).1 hcx⟩)
      rw [List.elem_eq_mem, decide_eq_true hmem, groupInto_of_any ⟨c, hc, hcx⟩]
      dsimp only
      rw [map_foldl_groupInto xs _ (hk.of_agree ?_)]
      · simp only [List.map_map, Function.comp_def, apply_ite φ, hφa, ite_self]
      · intro z hz
        rcases List.mem_append.1 hz with hz | hz
        · obtain ⟨d, hd, rfl⟩ := List.mem_map.1 hz
          refine ⟨d, List.mem_append_left _ hd, ?_, ?_⟩ <;> split_ifs <;> simp [hφa]
        · exact ⟨z, hxs z hz, rfl, rfl⟩
    · have hnot : φ x ∉ (rv.map φ).reverse := fun hm => by
        obtain ⟨c, hc, hcx⟩ := List.mem_map.1 (List.mem_reverse.1 hm)
        exact hany ⟨c, hc, (hk c (List.mem_append_left _ hc) x hx).2 hcx⟩
      rw [List.elem_eq_mem, decide_eq_false hnot, groupInto_of_not_any hany]
      dsimp only
      rw [map_foldl_groupInto xs _ (hk.of_agree ?_)]
      · simp [hφa, hφn]
      · intro z hz
        simp only [List.mem_append, List.mem_singleton] at hz
        rcases hz with (hz | rfl) | hz
        · exact ⟨z, List.mem_append_left _ hz, rfl, rfl⟩
        · exact ⟨x, hx, rfl, by rw [hφa, hφn]⟩
        · exact ⟨z, hxs z hz, rfl, rfl⟩

/-- The grouped clients' views are the views of the input with repeats removed. -/
theorem map_groupGrpcClientsByHostPort (clients : List (GrpcClient M C G W))
    (hk : KeyedBy φ clients) :
    (groupGrpcClientsByHostPort clients).map φ = (clients.map φ).eraseDups := by
  rw [groupGrpcClientsByHostPort_eq]
  exact map_foldl_groupInto φ hφa hφn clients [] hk

end View

/-- Each grouped client is the group made for the first client of `pre` with its
key, holding its own pindex names. -/
def FirstOf (pre rv : List (GrpcClient M C G W)) : Prop :=
  ∀ c ∈ rv, ∃ x, pre.find? (fun y => groupByKey y = groupByKey c) = some x ∧
    c = { x.newGroup with pIndexNames := c.pIndexNames }

/-- `groupInto` keeps `FirstOf` as one more client is processed. -/
theorem FirstOf.step {pre rv : List (GrpcClient M C G W)} (hg : GroupInv pre rv)
    (hf : FirstOf pre rv) (x : GrpcClient M C G W) : FirstOf (pre ++ [x]) (groupInto rv x) := by
  have old : ∀ c ∈ rv, ∀ c' : GrpcClient M C G W, groupByKey c' = groupByKey c →
      c' = { c with pIndexNames := c'.pIndexNames } →
      ∃ x', (pre ++ [x]).find? (fun y => groupByKey y = groupByKey c') = some x' ∧
        c' = { x'.newGroup with pIndexNames := c'.pIndexNames } := by
    intro c hc c' hk hc'
    obtain ⟨x', hfind, hx'⟩ := hf c hc
    refine ⟨x', by rw [List.find?_append, hk, hfind]; rfl, ?_⟩
    rw [hc', hx']
  by_cases hany : ∃ c ∈ rv, groupByKey c = groupByKey x
  · rw [groupInto_of_any hany]
    intro c' hc'
    obtain ⟨c, hc, rfl⟩ := List.mem_map.1 hc'
    exact old c hc _ (by split_ifs <;> rfl) (by split_ifs <;> rfl)
  · rw [groupInto_of_not_any hany]
    intro c' hc'
    rcases List.mem_append.1 hc' with hc' | hc'
    · exact old c' hc' c' rfl rfl
    · rw [List.mem_singleton.1 hc']
      have hpre : pre.find? (fun y => groupByKey y = groupByKey x) = none :=
        List.find?_eq_none.2 fun y hy he => by
          obtain ⟨c, hc, hce⟩ := hg.covers y hy
          exact hany ⟨c, hc, hce.trans (of_decide_eq_true he)⟩
      refine ⟨x, ?_, rfl⟩
      simp [List.find?_append, hpre]

/-- `FirstOf` holds after any further clients. -/
theorem FirstOf.run : ∀ (clients : List (GrpcClient M C G W)) {pre rv : List (GrpcClient M C G W)},
    GroupInv pre rv → FirstOf pre rv → FirstOf (pre ++ clients) (clients.foldl groupInto rv)
  | [], _, _, _, hf => by simpa using hf
  | x :: xs, _, _, hg, hf => by
    rw [List.foldl_cons, List.append_cons]
    exact FirstOf.run xs (hg.step x) (hf.step hg x)

/-- Each client `GroupGrpcClientsByHostPort` returns is the group made for the
first client of its key. -/
theorem groupGrpcClientsByHostPort_firstOf (clients : List (GrpcClient M C G W)) :
    FirstOf clients (groupGrpcClientsByHostPort clients) := by
  rw [groupGrpcClientsByHostPort_eq]
  exact FirstOf.run clients (groupGrpcClientsByHostPort_inv []) fun _ h => nomatch h

/-- A list is cut at the first occurrence of an element in one way only. -/
theorem append_cons_inj_of_not_mem_left {α : Type} {s : α} :
    ∀ {a b c d : List α}, s ∉ a → s ∉ c → a ++ s :: b = c ++ s :: d → a = c ∧ b = d
  | [], _, [], _, _, _, h => ⟨rfl, (List.cons.inj h).2⟩
  | [], _, _ :: _, _, _, hc, h => absurd (List.cons.inj h).1 fun e => hc (e ▸ List.mem_cons_self _ _)
  | _ :: _, _, [], _, ha, _, h => absurd (List.cons.inj h).1 fun e => ha (e ▸ List.mem_cons_self _ _)
  | _ :: _, _, _ :: _, _, ha, hc, h => by
    rw [List.cons_append, List.cons_append] at h
    obtain ⟨rfl, ht⟩ := List.cons.inj h
    obtain ⟨rfl, rfl⟩ := append_cons_inj_of_not_mem_left (List.not_mem_of_not_mem_cons ha)
      (List.not_mem_of_not_mem_cons hc) ht
    exact ⟨rfl, rfl⟩

/-- No field of the triple contains `'/'`. -/
def GrpcClient.SlashFree (c : GrpcClient M C G W) : Prop :=
  '/' ∉ c.hostPort.toList ∧ '/' ∉ c.indexName.toList ∧ '/' ∉ c.indexUUID.toList

/-- The key is a function of the triple. -/
theorem groupByKey_eq_of_triple {c d : GrpcClient M C G W} (h : c.triple = d.triple) :
    groupByKey c = groupByKey d := by
  simp only [GrpcClient.triple, Prod.mk.injEq] at h
  simp only [groupByKey, h]

/-- Without `'/'` in any field, the key determines the triple. -/
theorem triple_eq_of_slashFree {c d : GrpcClient M C G W} (hc : c.SlashFree) (hd : d.SlashFree)
    (h : groupByKey c = groupByKey d) : c.triple = d.triple := by
  have h' := congrArg String.data h
  have hs : "/".data = ['/'] := rfl
  simp only [groupByKey, String.data_append, hs, List.append_assoc, List.singleton_append] at h'
  obtain ⟨h₁, h'⟩ := append_cons_inj_of_not_mem_left hc.1 hd.1 h'
  obtain ⟨h₂, h₃⟩ := append_cons_inj_of_not_mem_left hc.2.1 hd.2.1 h'
  simp only [GrpcClient.triple, String.ext h₁, String.ext h₂, String.ext h₃]

/-- Clients of one index share a key exactly when they share a `HostPort`. -/
theorem triple_eq_of_index {c d : GrpcClient M C G W} (hn : c.indexName = d.indexName)
    (hu : c.indexUUID = d.indexUUID) (h : groupByKey c = groupByKey d) : c.triple = d.triple := by
  have h' := congrArg String.data h
  simp only [groupByKey, String.data_append, hn, hu, List.append_cancel_right_eq] at h'
  simp only [GrpcClient.triple, hn, hu, String.ext h']

/-- A client the first loop of `addGrpcClients` builds carries the loop's index. -/
theorem addGrpcClient_index {env : AddEnv G} {mgr : M} {indexName indexUUID : String}
    {consistencyParams : C} {onlyPIndexes : Option (String → Bool)} {r : RemotePlanPIndex}
    {c : GrpcClient M C G W}
    (h : addGrpcClient env mgr indexName indexUUID consistencyParams onlyPIndexes r = .ok (some c)) :
    c.indexName = indexName ∧ c.indexUUID = indexUUID := by
  unfold addGrpcClient at h
  generalize getPortFromNodeDefs env r.nodeDef "bindGRPC" = p at h
  generalize getPortFromNodeDefs env r.nodeDef "bindGRPCSSL" = pSSL at h
  generalize env.getRpcClient = getRpcClient at h
  dsimp only at h
  -- every branch but the one that builds the client returns `.ok none` or an error
  split_ifs at h <;> (try split at h) <;> cases h <;> exact ⟨rfl, rfl⟩

/-- All the clients of one `addGrpcClients` call carry its index. -/
theorem remoteClientsOf_index {env : AddEnv G} {mgr : M} {indexName indexUUID : String}
    {consistencyParams : C} {onlyPIndexes : Option (String → Bool)} :
    ∀ {rs : List RemotePlanPIndex} {cs : List (GrpcClient M C G W)},
      remoteClientsOf env mgr indexName indexUUID consistencyParams onlyPIndexes rs = .ok cs →
        ∀ c ∈ cs, c.indexName = indexName ∧ c.indexUUID = indexUUID
  | [], _, h => by cases h; exact fun _ h => nomatch h
  | r :: rs, cs, h => by
    simp only [remoteClientsOf, bind, Except.bind, pure, Except.pure] at h
    split at h
    · cases h
    · rename_i c hc
      split at h
      · cases h
      · rename_i cs' hcs
        cases h
        intro x hx
        rcases List.mem_append.1 hx with hx | hx
        · cases c with
          | none => cases hx
          | some c => exact (List.mem_singleton.1 hx) ▸ addGrpcClient_index hc
        · exact remoteClientsOf_index hcs x hx

/-- Among the clients of one `addGrpcClients` call the key determines the triple. -/
theorem triple_eq_of_remoteClientsOf {env : AddEnv G} {mgr : M} {indexName indexUUID : String}
    {consistencyParams : C} {onlyPIndexes : Option (String → Bool)} {rs : List RemotePlanPIndex}
    {cs : List (GrpcClient M C G W)}
    (h : remoteClientsOf env mgr indexName indexUUID consistencyParams onlyPIndexes rs = .ok cs) :
    ∀ x ∈ cs, ∀ y ∈ cs, groupByKey x = groupByKey y → x.triple = y.triple := fun x hx y hy =>
  have hx := remoteClientsOf_index h x hx
  have hy := remoteClientsOf_index h y hy
  triple_eq_of_index (hx.1.trans hy.1.symm) (hx.2.trans hy.2.symm)

/-- Where the key determines the triple, a grouped client lists the pindex names of
the clients of its triple. -/
theorem pIndexNames_eq_of_triple {clients : List (GrpcClient M C G W)}
    (hk : ∀ x ∈ clients, ∀ y ∈ clients, groupByKey x = groupByKey y → x.triple = y.triple)
    {c : GrpcClient M C G W} (hc : c ∈ groupGrpcClientsByHostPort clients) :
    c.pIndexNames = (clients.filter fun y => y.triple = c.triple).flatMap GrpcClient.pIndexNames := by
  obtain ⟨x, hx, hcx⟩ := groupGrpcClientsByHostPort_firstOf clients c hc
  have hxc := List.find?_some hx
  simp only [decide_eq_true_eq] at hxc
  have hct : c.triple = x.triple := by rw [hcx]; rfl
  rw [(groupGrpcClientsByHostPort_inv clients).names c hc]
  congr 1
  refine List.filter_congr fun y hy => ?_
  rw [hct, ← hxc]
  exact decide_eq_decide.2 ⟨hk y hy x (List.mem_of_find?_eq_some hx), groupByKey_eq_of_triple⟩

/-- The grouping keeps one merged client per key, in the order in which the keys
first occur.  Each merged client is the group made for the first client of its
key, holding the pindex names of the clients of that key.  Where the key
determines the triple, the same holds of triples: when no field contains `'/'`,
and for clients of one index, which all the clients of one `addGrpcClients` call
are. -/
theorem groupGrpcClientsByHostPort_one_per_key (clients : List (GrpcClient M C G W)) :
    (groupGrpcClientsByHostPort clients).map groupByKey = (clients.map groupByKey).eraseDups ∧
      (∀ c ∈ groupGrpcClientsByHostPort clients, ∃ x,
        clients.find? (fun y => groupByKey y = groupByKey c) = some x ∧
          c = { x.newGroup with pIndexNames := c.pIndexNames } ∧
          c.pIndexNames =
            (clients.filter fun y => groupByKey y = groupByKey c).flatMap GrpcClient.pIndexNames) ∧
      ((∀ x ∈ clients, ∀ y ∈ clients, groupByKey x = groupByKey y → x.triple = y.triple) →
        (groupGrpcClientsByHostPort clients).map GrpcClient.triple =
            (clients.map GrpcClient.triple).eraseDups ∧
          ∀ c ∈ groupGrpcClientsByHostPort clients,
            c.pIndexNames = (clients.filter fun y => y.triple = c.triple).flatMap GrpcClient.pIndexNames) ∧
      (∀ c d : GrpcClient M C G W, c.SlashFree → d.SlashFree → groupByKey c = groupByKey d →
        c.triple = d.triple) ∧
      (∀ c d : GrpcClient M C G W, c.indexName = d.indexName → c.indexUUID = d.indexUUID →
        groupByKey c = groupByKey d → c.triple = d.triple) ∧
      (∀ (env : AddEnv G) (mgr : M) (indexName indexUUID : String) (consistencyParams : C)
          (onlyPIndexes : Option (String → Bool)) (rs : List RemotePlanPIndex)
          (cs : List (GrpcClient M C G W)),
        remoteClientsOf env mgr indexName indexUUID consistencyParams onlyPIndexes rs = .ok cs →
          ∀ x ∈ cs, ∀ y ∈ cs, groupByKey x = groupByKey y → x.triple = y.triple) := by
  refine ⟨map_groupGrpcClientsByHostPort groupByKey (fun _ _ => rfl) (fun _ => rfl) clients
      fun _ _ _ _ => Iff.rfl, fun c hc => ?_, fun hk => ⟨?_, fun _ => pIndexNames_eq_of_triple hk⟩,
    fun _ _ => triple_eq_of_slashFree, fun _ _ => triple_eq_of_index,
    fun _ _ _ _ _ _ _ _ => triple_eq_of_remoteClientsOf⟩
  · obtain ⟨x, hx, hcx⟩ := groupGrpcClientsByHostPort_firstOf clients c hc
    exact ⟨x, hx, hcx, (groupGrpcClientsByHostPort_inv clients).names c hc⟩
  · exact map_groupGrpcClientsByHostPort GrpcClient.triple (fun _ _ => rfl) (fun _ => rfl) clients
      fun x hx y hy => ⟨hk x hx y hy, groupByKey_eq_of_triple⟩

/-- Two clients of different triples whose keys are both `"a/b/c/d"`. -/
def slashClients : List (GrpcClient Unit Unit Unit Unit) :=
  [⟨(), "grpcClient - a/b", "a/b", "c", "d", ["p"], (), (), none⟩,
   ⟨(), "grpcClient - a", "a", "b/c", "d", ["q"], (), (), none⟩]

/-- The two clients of `slashClients` are grouped into one, which carries the
triple of the first and the pindexes of both. -/
theorem groupGrpcClientsByHostPort_merges_colliding_triples :
    (groupGrpcClientsByHostPort slashClients).map (fun c => (c.triple, c.pIndexNames)) =
        [(("a/b", "c", "d"), ["p", "q"])] ∧
      slashClients.map (fun c => (c.triple, c.pIndexNames)) =
        [(("a/b", "c", "d"), ["p"]), (("a", "b/c", "d"), ["q"])] := by
  decide

/-! ## Grouping twice

On clients whose keys are already distinct, each client opens its own group:
grouping renames it to its key and drops its stream handler.  The clients the
grouping returns have distinct keys, and each is already named by its key with
no handler, so grouping them again changes nothing. -/

/-- Clients of keys not seen before each open a group of their own. -/
theorem foldl_groupInto_of_nodup : ∀ (clients rv : List (GrpcClient M C G W)),
    ((rv ++ clients).map groupByKey).Nodup →
      clients.foldl groupInto rv = rv ++ clients.map fun c => c.newGroup.appendPIndexNames c.pIndexNames
  | [], rv, _ => by simp
  | x :: xs, rv, hnd => by
    have hno : ¬ ∃ c ∈ rv, groupByKey c = groupByKey x := fun ⟨c, hc, he⟩ =>
      List.disjoint_of_nodup_append (by simpa [List.map_append] using hnd)
        (List.mem_map_of_mem _ hc) (by rw [he]; exact List.mem_map_of_mem _ (List.mem_cons_self _ _))
    rw [List.foldl_cons, groupInto_of_not_any hno, foldl_groupInto_of_nodup xs _ (by simpa using hnd)]
    simp

/-- A grouped client, named by its key with no handler, is its own group. -/
theorem newGroup_appendPIndexNames_of_firstOf {c x : GrpcClient M C G W}
    (h : c = { x.newGroup with pIndexNames := c.pIndexNames }) :
    c.newGroup.appendPIndexNames c.pIndexNames = c := by
  rw [h]
  rfl

/-- On clients with distinct keys, grouping gives each client a group of its own,
named by its key, with no stream handler; and grouping the grouped clients
again changes nothing. -/
theorem groupGrpcClientsByHostPort_idempotent (clients : List (GrpcClient M C G W)) :
    ((clients.map groupByKey).Nodup →
      groupGrpcClientsByHostPort clients =
        clients.map fun c => c.newGroup.appendPIndexNames c.pIndexNames) ∧
      groupGrpcClientsByHostPort (groupGrpcClientsByHostPort clients) =
        groupGrpcClientsByHostPort clients := by
  have of_nodup : ∀ cs : List (GrpcClient M C G W), (cs.map groupByKey).Nodup →
      groupGrpcClientsByHostPort cs = cs.map fun c => c.newGroup.appendPIndexNames c.pIndexNames :=
    fun cs hnd => by rw [groupGrpcClientsByHostPort_eq, foldl_groupInto_of_nodup cs [] hnd]; rfl
  refine ⟨of_nodup clients, ?_⟩
  rw [of_nodup _ (groupGrpcClientsByHostPort_inv clients).nodup]
  conv_rhs => rw [← List.map_id (groupGrpcClientsByHostPort clients)]
  refine List.map_congr_left fun c hc => ?_
  obtain ⟨x, -, hcx⟩ := groupGrpcClientsByHostPort_firstOf clients c hc
  exact newGroup_appendPIndexNames_of_firstOf hcx

/-! ## Document counts of grouped clients -/

/-- Two pindexes `p1` and `p2` placed on the node `node1:8094`. -/
def twoPIndexPlan : List RemotePlanPIndex :=
  [⟨⟨"p1"⟩, ⟨"node1:8094", "n1", ""⟩⟩, ⟨⟨"p2"⟩, ⟨"node1:8094", "n1", ""⟩⟩]

/-- A node whose gRPC port is 9130, without encryption, to which every
connection succeeds. -/
def grpcPortEnv : AddEnv Unit where
  getFromParsedExtras _ key :=
    if key = "bindGRPC" then (some (.str ":9130"), none) else (none, some "no such key")
  securitySetting := ⟨false, []⟩
  getRpcClient _ _ _ := .ok ()

/-- A server with one document in `p1` and two in `p2`. -/
def twoPIndexCounts (_ : Unit) (req : DocCountRequest) : Except String (BitVec 64) :=
  .ok (if req.indexName = "p1" then 1 else 2)

/-- With both pindexes on one node, the grouped client's `DocCount` reports the
count of `p1` alone, while the ungrouped clients report 1 and 2: the sums are 1
and 3. -/
theorem docCount_groupByNode_first_pindex :
    (addGrpcClients grpcPortEnv () "idx" "uuid" twoPIndexPlan () none true).1.map
        (GrpcClient.docCount (W := Unit) twoPIndexCounts) = [some (1, none)] ∧
      (addGrpcClients grpcPortEnv () "idx" "uuid" twoPIndexPlan () none false).1.map
        (GrpcClient.docCount (W := Unit) twoPIndexCounts) = [some (1, none), some (2, none)] := by
  decide

end Cbft.Grpc
