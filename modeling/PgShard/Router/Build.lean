import PgShard.Core.VSchema
import PgShard.Plan.Catalog
import PgShard.Topo.Model

/-! The router's snapshot of one topology epoch. -/

namespace PgShard

open Topo

inductive BuildError
  | missingShardKey (table : TableName)
  | missingShardKeyType (table : TableName)
  | duplicateShard (name : String)
  | unsupportedGates (count : Nat)
  | vschema (e : VSchemaError)
  | partition (e : PartitionError)
  deriving DecidableEq

structure Router where
  epoch : Nat
  vschema : VSchema
  catalog : ShardCatalog
  primaries : List (ShardId × Option Instance)
  system : Option Instance
  writeLease : Nat

namespace Router

def mapShardKeyType : ShardKeyType → ScalarType
  | .int => .int
  | .text => .text
  | .uuid => .uuid
  | .bytea => .bytea

def tableDef (hashFunction : String) (name : TableName) (t : TableEntry) : Except BuildError TableDef :=
  match t.tableType with
  | .global => .ok .global
  | .sharded =>
    match t.shardKeyColumn with
    | none => .error (.missingShardKey name)
    | some column =>
      match t.shardKeyType with
      | none => .error (.missingShardKeyType name)
      | some keyType => .ok (.sharded column (some (mapShardKeyType keyType)) hashFunction
          (t.sequences.map fun s => ⟨s.column, s.sequence⟩))

def buildVschema (topo : Topology) : Except BuildError VSchema :=
  topo.tables.foldlM (fun vschema t => do
    let name : TableName := ⟨t.schema, t.name⟩
    let definition ← tableDef topo.hashFunction name t
    match vschema.insert name definition with
    | .ok vschema => .ok vschema
    | .error e => .error (.vschema e)) VSchema.empty

def servingShards : List ShardEntry → List (KeyRange × ShardId) → List (ShardId × Option Instance) →
    Except BuildError (List (KeyRange × ShardId) × List (ShardId × Option Instance))
  | [], serving, primaries => .ok (serving, primaries)
  | shard :: rest, serving, primaries =>
    if shard.state ≠ .serving then servingShards rest serving primaries
    else
      let id : ShardId := ⟨shard.name⟩
      if primaries.any (·.1 == id) then .error (.duplicateShard shard.name)
      else servingShards rest (serving ++ [(shard.keyRange, id)]) (primaries ++ [(id, shard.primary)])

def sortServing (serving : List (KeyRange × ShardId)) : List (KeyRange × ShardId) :=
  serving.insertionSort fun a b => a.1.start ≤ b.1.start

/-- `Router::build`: a topology with gates is refused. -/
def build (topo : Topology) : Except BuildError Router :=
  if !topo.gates.isEmpty then .error (.unsupportedGates topo.gates.length)
  else do
    let vschema ← buildVschema topo
    let (serving, primaries) ← servingShards topo.shards [] []
    match ShardCatalog.new (sortServing serving) with
    | .error e => .error (.partition e)
    | .ok catalog =>
      .ok { epoch := topo.epoch, vschema, catalog, primaries, system := topo.sequenceEndpoint,
            writeLease := topo.writeLeaseSeconds }

section Owners

variable {topo : Topology} {router : Router} {id : KeyspaceId}

theorem servingShards_ok {shards : List ShardEntry} {serving serving' : List (KeyRange × ShardId)}
    {primaries primaries' : List (ShardId × Option Instance)}
    (looped : servingShards shards serving primaries = .ok (serving', primaries')) :
    serving' = serving ++ (shards.filter (·.state == .serving)).map fun s => (s.keyRange, ⟨s.name⟩) := by
  induction shards generalizing serving primaries with
  | nil =>
    cases looped
    simp
  | cons shard rest ih =>
    simp only [servingShards] at looped
    split_ifs at looped with other
    · rw [ih looped, List.filter_cons_of_neg (by simpa using other)]
    · rw [ih looped, List.filter_cons_of_pos (by simpa using other), List.map_cons, List.append_assoc]
      rfl

theorem build_ok (built : build topo = .ok router) :
    router.epoch = topo.epoch ∧ topo.gates = [] ∧ router.writeLease = topo.writeLeaseSeconds ∧
      router.catalog.shards = sortServing ((topo.shards.filter (·.state == .serving)).map fun s => (s.keyRange, ⟨s.name⟩)) := by
  unfold build at built
  split_ifs at built with gated
  obtain ⟨vschema, _, built⟩ := Checked.bind_ok built
  obtain ⟨⟨serving, primaries⟩, looped, built⟩ := Checked.bind_ok built
  have listed := servingShards_ok looped
  dsimp only at built
  split at built
  · cases built
  · rename_i catalog made
    cases built
    exact ⟨rfl, by simpa using gated, rfl, (ShardCatalog.new_shards made).trans (congrArg sortServing listed)⟩

/-- Every id has one owner among the serving shards of a topology that builds, and is
routed to it. -/
theorem build_routes (built : build topo = .ok router) (id : KeyspaceId) :
    ∃ shard ∈ topo.shards, shard.state = .serving ∧ shard.keyRange.contains id = true ∧
      router.catalog.route id = ⟨shard.name⟩ ∧
      ∀ other ∈ topo.shards, other.state = .serving → other.keyRange.contains id = true →
        other.keyRange = shard.keyRange ∧ other.name = shard.name := by
  obtain ⟨_, _, _, shards⟩ := build_ok built
  have listed : ∀ s, s ∈ router.catalog.shards ↔
      ∃ shard ∈ topo.shards, shard.state = .serving ∧ (shard.keyRange, ⟨shard.name⟩) = s := by
    intro s
    rw [shards, sortServing, List.mem_insertionSort, List.mem_map]
    simp only [List.mem_filter, beq_iff_eq, and_assoc]
  obtain ⟨r, member, inside, only⟩ := router.catalog.route_unique id
  obtain ⟨shard, inTopo, serving, same⟩ := (listed _).mp member
  obtain ⟨rfl, name⟩ := Prod.mk.inj same
  refine ⟨shard, inTopo, serving, inside, name.symm, fun other inTopo' serving' inside' => ?_⟩
  have one := only _ ((listed _).mpr ⟨other, inTopo', serving', rfl⟩) inside'
  obtain ⟨range, id'⟩ := Prod.mk.inj one
  exact ⟨range, ShardId.mk.inj (id'.trans name.symm)⟩

theorem build_owners (built : build topo = .ok router) (id : KeyspaceId) :
    owners topo.servingRanges id = 1 := by
  obtain ⟨_, _, _, shards⟩ := build_ok built
  have valid := router.catalog.partition
  rw [shards] at valid
  have sorted : ((sortServing ((topo.shards.filter (·.state == .serving)).map fun s => (s.keyRange, ⟨s.name⟩))).map
      Prod.fst).Perm topo.servingRanges := by
    refine ((List.perm_insertionSort _ _).map _).trans (.of_eq ?_)
    rw [List.map_map]
    rfl
  rw [← validatePartition_owners valid id]
  exact (sorted.countP_eq _).symm

end Owners

/-- Sorted ranges pass exactly if each id is in one of them; the topology and the router
accept a serving set only then; and an accepted set routes each id to the one shard that
contains it. -/
theorem partition_exact :
    (∀ ranges : List KeyRange, validatePartition (sortByStart ranges) = .ok () ↔ ∀ id, owners ranges id = 1) ∧
    (∀ topo : Topology, validate topo = .ok () → ∀ id, owners topo.servingRanges id = 1) ∧
    (∀ (topo : Topology) (router : Router), build topo = .ok router → ∀ id, owners topo.servingRanges id = 1 ∧
      ∃ shard ∈ topo.shards, shard.state = .serving ∧ shard.keyRange.contains id = true ∧
        router.catalog.route id = ⟨shard.name⟩) ∧
    ∀ (shards : List (KeyRange × ShardId)) (catalog : ShardCatalog), ShardCatalog.new shards = .ok catalog →
      ∀ id, ∃ r, (r, catalog.route id) ∈ shards ∧ r.contains id = true ∧
        ∀ s ∈ shards, s.1.contains id = true → s = (r, catalog.route id) := by
  refine ⟨fun ranges => validatePartition_sortByStart_iff, fun topo valid => validate_owners valid,
    fun topo router built id => ⟨build_owners built id, ?_⟩, fun shards catalog made id => ?_⟩
  · obtain ⟨shard, listed, serving, inside, routed, _⟩ := build_routes built id
    exact ⟨shard, listed, serving, inside, routed⟩
  · rw [← ShardCatalog.new_shards made]
    exact catalog.route_unique id

def splitTopology : Topology where
  epoch := 1
  topologyGeneration := 1
  shards := [⟨"main-80-max", .atLeast (2 ^ 63), .serving, none, []⟩,
    ⟨"main-min-80", .below (2 ^ 63) (by decide), .serving, none, []⟩]

theorem partition_exact_split : validate splitTopology = .ok () ∧
    ∃ router, build splitTopology = .ok router ∧ ∀ id, owners splitTopology.servingRanges id = 1 ∧
      ∃ shard ∈ splitTopology.shards, shard.state = .serving ∧ shard.keyRange.contains id = true ∧
        router.catalog.route id = ⟨shard.name⟩ := by
  have valid : validate splitTopology = .ok () := by decide +kernel
  have builds : (build splitTopology).isOk = true := by decide +kernel
  cases built : build splitTopology with
  | error e =>
    rw [built] at builds
    cases builds
  | ok router => exact ⟨valid, router, rfl, partition_exact.2.2.1 splitTopology router built⟩

end Router

end PgShard
