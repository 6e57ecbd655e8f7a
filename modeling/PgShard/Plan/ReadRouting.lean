import PgShard.Plan.Bounds

namespace PgShard

variable {xxh64 : Xxh64} {params : List ScalarValue} {shards : ShardCatalog} {hit : List ShardId} {s : SelectStmt}
  {vschema : VSchema} {key shardFn : String} {keyType : Option ScalarType}

def Plan.shardSet : Plan → Option (List ShardId)
  | .singleShard s => some [s]
  | .scatter hit => some hit
  | _ => none

def Plan.boundShardSet (xxh64 : Xxh64) (params : List ScalarValue) (shards : ShardCatalog) :
    Plan → Option (List ShardId)
  | .parameterized param => (resolveBound xxh64 param params shards).shardSet
  | p => p.shardSet

theorem readFromShards_boundShardSet
    (hit : List ShardId) : (readFromShards hit).boundShardSet xxh64 params shards = some hit := by
  match hit with
  | [] => rfl
  | [s] => rfl
  | s :: t :: rest => rfl

theorem resolveBound_shardSet {param : Parameterized} (known : param.shardFunction = "xxhash64_v1")
    (resolved : (resolveBound xxh64 param params shards).shardSet = some hit) :
    resolveIndices xxh64.v1 param.keyType params shards [] param.paramIndices = .ok hit := by
  unfold resolveBound at resolved
  rw [shardFunction_ok_iff.mpr ⟨known, rfl⟩] at resolved
  simp only at resolved
  split at resolved
  · rename_i rejection failed
    obtain ⟨reason, rfl⟩ := resolveIndices_error failed
    cases resolved
  · cases resolved
  · rename_i s single
    rw [single]
    cases resolved
    rfl
  · rename_i many _ _ found
    split at resolved
    · cases resolved
    · cases resolved
      exact found

theorem planSetOp_boundShardSet : (planSetOp s vschema).boundShardSet xxh64 params shards = none := by
  unfold planSetOp
  dsimp only
  repeat' split
  all_goals rfl

theorem analyzeFrom_table (rv : RangeVar) : analyzeFrom [some (.rangeVar rv)] = ⟨[rangeVarTable rv], true⟩ := rfl

theorem placement_sharded {table : TableName} {sequences : List SequenceBinding}
    (found : vschema.get table = some (.sharded key keyType shardFn sequences)) :
    placement vschema table = .sharded key keyType shardFn (VSchema.shardFunction_known found) := by
  unfold placement
  split
  · rename_i same
    rw [found] at same
    cases same
    rfl
  · rename_i same
    rw [found] at same
    cases same
  · rename_i same
    rw [found] at same
    cases same

theorem planSelect_shardSet
    {rv : RangeVar} {known : shardFn = "xxhash64_v1"} (plain : s.fromClause = [some (.rangeVar rv)])
    (placed : placement vschema (rangeVarTable rv) = .sharded key keyType shardFn known)
    (planned : (planSelect xxh64 s vschema shards).boundShardSet xxh64 params shards = some hit) :
    hit = shards.all ∨ Resolution.Covers xxh64 keyType params shards hit
      (routeValues xxh64 (whereKeyValues s.whereClause key) keyType shardFn known shards) := by
  unfold planSelect at planned
  split at planned
  · cases planned
  split at planned
  · rename_i setOp
    exact absurd planned (by simp [planSetOp_boundShardSet])
  have single : ([rangeVarTable rv].map (placement vschema)).filter Placement.isSharded =
      [.sharded key keyType shardFn known] := by
    simp [placed, Placement.isSharded]
  simp only [plain, analyzeFrom_table, single] at planned
  split at planned
  · cases planned
  split at planned
  · cases planned
  split at planned
  · cases planned
  split at planned
  · exact .inl (Option.some.inj planned).symm
  · exact .inl (Option.some.inj planned).symm
  · exact .inl (Option.some.inj planned).symm
  · rename_i indices resolved
    rw [resolved]
    exact .inr (.bound (resolveBound_shardSet known planned))
  · rename_i result resolved
    rw [resolved]
    rw [readFromShards_boundShardSet] at planned
    cases planned
    exact .inr .literal

/-- No SELECT on this table misses the owner of a row it matches, whatever its
WHERE clause, parameters and catalog, on a backend whose `=` agrees with the
coerced key values. -/
def NeverUnderRoutes (xxh64 : Xxh64) (vschema : VSchema) (t : FromTable) (keyType : Option ScalarType) : Prop :=
  ∀ (b : Backend) (params : List ScalarValue) (shards : ShardCatalog) (kind : StatementKind) (s : SelectStmt)
    (hit : List ShardId) (row : b.Row) (k : ScalarValue),
    b.KeyEquality t params keyType → s.fromClause = [some (.rangeVar t.rangeVar)] →
    (plan xxh64 kind (.selectStmt s) vschema shards).boundShardSet xxh64 params shards = some hit →
    satisfies b t params row s.whereClause → rowKey b t row keyType = some k →
    shards.route (xxh64.v1.keyspaceId k) ∈ hit

/-- The hash tells two literals of the key's type apart. -/
def Xxh64.Separates (xxh64 : Xxh64) (keyType : Option ScalarType) : Prop :=
  ∃ (c d : ConstVal) (v w k l : ScalarValue),
    scalarFromConst ⟨false, some c⟩ = some v ∧ canonicalKey keyType v = some k ∧
    scalarFromConst ⟨false, some d⟩ = some w ∧ canonicalKey keyType w = some l ∧
    xxh64.v1.keyspaceId k ≠ xxh64.v1.keyspaceId l

theorem plan_selectStmt_shardSet {kind : StatementKind}
    (planned : (plan xxh64 kind (.selectStmt s) vschema shards).boundShardSet xxh64 params shards = some hit) :
    (planSelect xxh64 s vschema shards).boundShardSet xxh64 params shards = some hit := by
  cases kind with
  | select => exact planned
  | _ => cases planned

theorem neverUnderRoutes_of_keepsKey {t : FromTable} {sequences : List SequenceBinding}
    (sharded : vschema.get (rangeVarTable t.rangeVar) = some (.sharded key keyType shardFn sequences))
    (keeps : t.KeepsKey key) : NeverUnderRoutes xxh64 vschema t keyType := by
  intro b params shards kind s hit row k agrees plain planned holds own
  have placed := placement_sharded sharded
  rcases planSelect_shardSet plain placed (plan_selectStmt_shardSet planned) with every | covers
  · rw [every]
    exact shards.route_mem_all _
  · refine covers.owner_mem (whereKeyValues_bounds agrees keeps holds ?_) own
    intro empty
    rw [empty] at covers
    cases covers

end PgShard
