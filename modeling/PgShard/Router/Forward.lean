import PgShard.Plan.WriteRouting
import PgShard.Router.Dispatch

/-! Where a router sends a write, against the topology it was built from. -/

namespace PgShard.Router

open Topo

variable {topo : Topology} {router : Router} {xxh64 : Xxh64} {freshness : Option Freshness} {wall : Nat}
  {bootNow : Option Nat} {id : ShardId} {node : NodeEnum} {f : Forward}

theorem servingShards_primaries {shards : List ShardEntry} {serving serving' : List (KeyRange × ShardId)}
    {primaries primaries' : List (ShardId × Option Instance)} (apart : (primaries.map Prod.fst).Nodup)
    (looped : servingShards shards serving primaries = .ok (serving', primaries')) :
    primaries' = primaries ++ (shards.filter (·.state == .serving)).map (fun s => (⟨s.name⟩, s.primary)) ∧
      (primaries'.map Prod.fst).Nodup := by
  induction shards generalizing serving primaries with
  | nil =>
    cases looped
    exact ⟨by simp, apart⟩
  | cons shard rest ih =>
    simp only [servingShards] at looped
    split_ifs at looped with other known
    · rw [List.filter_cons_of_neg (by simpa using other)]
      exact ih apart looped
    · have fresh : ∀ primary, (⟨shard.name⟩, primary) ∉ primaries := by simpa using known
      have apart' : ((primaries ++ [((⟨shard.name⟩ : ShardId), shard.primary)]).map Prod.fst).Nodup := by
        rw [List.map_append, List.nodup_append]
        refine ⟨apart, List.nodup_singleton _, fun a old b new same => ?_⟩
        obtain ⟨⟨_, primary⟩, listed, rfl⟩ := List.mem_map.mp old
        cases same.trans (List.mem_singleton.mp new)
        exact fresh primary listed
      rw [List.filter_cons_of_pos (by simpa using other), List.map_cons, List.append_cons]
      exact ih apart' looped

theorem build_primaries (built : build topo = .ok router) :
    router.primaries = (topo.shards.filter (·.state == .serving)).map (fun s => (⟨s.name⟩, s.primary)) ∧
      (router.primaries.map Prod.fst).Nodup := by
  unfold build at built
  split_ifs at built
  obtain ⟨_, _, built⟩ := Checked.bind_ok built
  obtain ⟨⟨_, primaries⟩, looped, built⟩ := Checked.bind_ok built
  have listed := servingShards_primaries (by exact List.nodup_nil) looped
  dsimp only at built
  split at built
  · cases built
  · cases built
    exact listed

/-- A serving shard holds exactly what is routed to its name, since no two of them share one. -/
theorem route_iff_contains (built : build topo = .ok router) {shard : ShardEntry} (listed : shard ∈ topo.shards)
    (serving : shard.state = .serving) (id : KeyspaceId) :
    router.catalog.route id = ⟨shard.name⟩ ↔ shard.keyRange.contains id = true := by
  obtain ⟨owner, inTopo, serves, inside, routed, only⟩ := build_routes built id
  rw [routed]
  constructor
  · intro same
    obtain ⟨primaries, apart⟩ := build_primaries built
    rw [primaries, List.map_map] at apart
    have one : owner = shard := List.inj_on_of_nodup_map apart (List.mem_filter.mpr ⟨inTopo, by simpa using serves⟩)
      (List.mem_filter.mpr ⟨listed, by simpa using serving⟩) same
    exact one ▸ inside
  · intro holds
    rw [(only shard listed serving holds).2]

theorem target_ok (built : build topo = .ok router) {t : Target} (found : target router id = .ok t) :
    ∃ shard ∈ topo.shards, shard.state = .serving ∧ id = ⟨shard.name⟩ ∧ shard.primary = some t.endpoint ∧
      t.database = shard.name := by
  unfold target at found
  split at found
  · rename_i name endpoint first
    cases found
    have listed := List.mem_of_find?_eq_some first
    rw [(build_primaries built).1] at listed
    obtain ⟨shard, member, same⟩ := List.mem_map.mp listed
    obtain ⟨rfl, primary⟩ := Prod.mk.inj same
    obtain ⟨inTopo, serving⟩ := List.mem_filter.mp member
    have same : ⟨shard.name⟩ = id := by simpa using List.find?_some first
    exact ⟨shard, inTopo, by simpa using serving, same.symm, primary, congrArg ShardId.id same.symm⟩
  · cases found
  · cases found

theorem target_error {route : Route} (missing : target router id = .error route) :
    ∃ reason, route = .unavailable reason := by
  unfold target at missing
  split at missing
  · cases missing
  · cases missing
    exact ⟨_, rfl⟩
  · cases missing
    exact ⟨_, rfl⟩

/-- A statement goes to the primary of a serving shard that is right for it, and whose range holds exactly what is
routed to its name. -/
def Forward.ReachesOwner (topo : Topology) (router : Router) (right : ShardId → Prop) (f : Forward) : Prop :=
  ∃ shard ∈ topo.shards, shard.state = .serving ∧ right ⟨shard.name⟩ ∧
    (∀ id, router.catalog.route id = ⟨shard.name⟩ ↔ shard.keyRange.contains id = true) ∧
    ∃ endpoint, shard.primary = some endpoint ∧ f = .shard ⟨endpoint, shard.name⟩ false

/-- A write that is forwarded is within the lease of the topology. -/
theorem live_of_forwarded (built : build topo = .ok router) (write : (classify (some node)).isWrite = true)
    (forwarded : doQuery xxh64 router freshness wall bootNow [some node] = .ok (some f)) {confirmed : Freshness}
    (last : freshness = some confirmed) : leaseExpired (confirmed.age wall bootNow) topo.writeLeaseSeconds = false := by
  rw [← (build_ok built).2.2.1]
  by_contra expired
  rw [Bool.not_eq_false] at expired
  rw [last, doQuery_refused write expired] at forwarded
  cases forwarded

theorem reachesOwner_of_exact (built : build topo = .ok router) (write : (classify (some node)).isWrite = true)
    {right : ShardId → Prop} (settled : ((plan xxh64 (classify (some node)) node router.vschema router.catalog).atBind
      xxh64 [] router.catalog).Exact right)
    (forwarded : doQuery xxh64 router freshness wall bootNow [some node] = .ok (some f)) :
    f.ReachesOwner topo router right := by
  have live : leaseCheck freshness router.writeLease wall bootNow [some node] = .ok false := by
    cases freshness with
    | none => rfl
    | some confirmed => simp [leaseCheck, (build_ok built).2.2.1, live_of_forwarded built write forwarded rfl]
  obtain ⟨p, planned⟩ : ∃ p, plan xxh64 (classify (some node)) node router.vschema router.catalog = p := ⟨_, rfl⟩
  have routed : routeParsed xxh64 router [some node] = [resolve router p] := by
    rw [← planned]
    rfl
  rw [planned] at settled
  simp only [doQuery, routed, dispatch, live] at forwarded
  obtain ⟨_, sent, ⟨⟩⟩ := Checked.map_ok forwarded
  cases p with
  | singleShard id =>
    obtain ⟨reason, rejected⟩ | ⟨_, ⟨⟩, right⟩ := settled
    · cases rejected
    cases found : target router id with
    | ok t =>
      simp only [resolve, found] at sent
      cases sent
      obtain ⟨shard, listed, serving, rfl, primary, named⟩ := target_ok built found
      exact ⟨shard, listed, serving, right, route_iff_contains built listed serving, t.endpoint, primary, named ▸ rfl⟩
    | error unavailable =>
      obtain ⟨reason, rfl⟩ := target_error found
      simp only [resolve, found] at sent
      cases sent
  -- A plan that waits for parameters is turned away on the simple-query path.
  | parameterized param => cases sent
  | reject code reason => cases sent
  | scatter | broadcast | unsharded | routerLocal =>
    obtain ⟨reason, rejected⟩ | ⟨_, same, _⟩ := settled
    · cases rejected
    · cases same

/-- An INSERT, UPDATE or DELETE on a sharded table that is forwarded goes to the primary of the shard whose range
holds the keys of all rows it writes; and no write is forwarded past the lease of the topology. -/
theorem write_reaches_owner (built : build topo = .ok router)
    (forwarded : doQuery xxh64 router freshness wall bootNow [some node] = .ok (some f)) :
    (∀ (t : WriteTarget) (key shardFn : String) (keyType : Option ScalarType) (sequences : List SequenceBinding),
      router.vschema.get (rangeVarTable t.rangeVar) = some (.sharded key keyType shardFn sequences) →
      t.columns[t.keyIndex]? = some key →
      (∀ s : InsertStmt, node = .insertStmt s → s.relation = some t.rangeVar →
        f.ReachesOwner topo router (InsertRoutesTo xxh64 key keyType [] router.catalog s)) ∧
      (∀ (b : Backend) (s : UpdateStmt), b.KeyEquality t.toFromTable [] keyType → node = .updateStmt s →
        s.relation = some t.rangeVar → f.ReachesOwner topo router fun shard => key ∉ assignedColumns s.targetList ∧
          MatchesRouteTo xxh64 b t.toFromTable keyType [] router.catalog s.whereClause shard) ∧
      ∀ (b : Backend) (s : DeleteStmt), b.KeyEquality t.toFromTable [] keyType → node = .deleteStmt s →
        s.relation = some t.rangeVar →
        f.ReachesOwner topo router (MatchesRouteTo xxh64 b t.toFromTable keyType [] router.catalog s.whereClause)) ∧
    ((classify (some node)).isWrite = true → ∀ confirmed, freshness = some confirmed →
      leaseExpired (confirmed.age wall bootNow) topo.writeLeaseSeconds = false) := by
  refine ⟨fun t key shardFn keyType sequences sharded keyColumn => ?_, fun write confirmed last =>
    live_of_forwarded built write forwarded last⟩
  have placed := placement_sharded sharded
  have known := VSchema.shardFunction_known sharded
  have keeps := WriteTarget.keepsKey keyColumn
  refine ⟨?_, ?_, ?_⟩
  · rintro s rfl relation
    refine reachesOwner_of_exact built rfl ?_ forwarded
    refine (planInsert_resolution placed relation).elim (fun rejected => .of_reject rejected) ?_
    rintro ⟨values, read, writes⟩
    exact writes.exact known fun shard covers => insertRoutesTo_of_covers read covers
  · rintro b s agrees rfl relation
    refine reachesOwner_of_exact built rfl ?_ forwarded
    refine (planUpdate_resolution placed relation).elim (fun rejected => .of_reject rejected) ?_
    rintro ⟨unset, writes⟩
    exact writes.exact known fun shard covers =>
      ⟨setsColumn_eq_false unset, matchesRouteTo_of_covers agrees keeps covers⟩
  · rintro b s agrees rfl relation
    refine reachesOwner_of_exact built rfl ?_ forwarded
    refine (planDelete_resolution placed relation).elim (fun rejected => .of_reject rejected) fun writes => ?_
    exact writes.exact known fun shard covers => matchesRouteTo_of_covers agrees keeps covers

def ordersTopology : Topology where
  epoch := 1
  topologyGeneration := 1
  shards := [⟨"-40", .below 0x4000000000000000 (by decide), .serving, some ⟨"low-0", "low", 5432, true⟩, []⟩,
    ⟨"40-", .atLeast 0x4000000000000000, .serving, some ⟨"high-0", "high", 5432, true⟩, []⟩]
  tables := [⟨"public", "orders", .sharded, some "customer_id", some .int, []⟩]

/-- A DELETE of one customer, ten seconds after the topology was confirmed. -/
theorem write_reaches_owner_delete : ∃ router f, build ordersTopology = .ok router ∧
    doQuery goldenXxh64 router (some ⟨100, 100⟩) 110 (some 110) [some (.deleteStmt deleteOrder)] = .ok (some f) ∧
    f.ReachesOwner ordersTopology router (MatchesRouteTo goldenXxh64 (comparingBackend (some .int) (.int64 0))
      ordersTarget.toFromTable (some .int) [] router.catalog deleteOrder.whereClause) := by
  have runs : (build ordersTopology).toOption.any (fun router =>
      router.vschema.get ⟨"public", "orders"⟩ == some (.sharded "customer_id" (some .int) "xxhash64_v1" []) &&
      doQuery goldenXxh64 router (some ⟨100, 100⟩) 110 (some 110) [some (.deleteStmt deleteOrder)] ==
        .ok (some (.shard ⟨⟨"high-0", "high", 5432, true⟩, "40-"⟩ false))) = true := by decide +kernel
  obtain ⟨router, built, runs⟩ := Checked.exists_of_any runs
  obtain ⟨sharded, forwarded⟩ := (Bool.and_eq_true _ _).mp runs
  have forwarded := eq_of_beq forwarded
  have reaches := (write_reaches_owner built forwarded).1 ordersTarget _ _ _ _ (eq_of_beq sharded) rfl
  exact ⟨router, _, built, forwarded, reaches.2.2 _ deleteOrder comparingBackend_keyEquality rfl rfl⟩

end PgShard.Router
