import PgShard.Lib.Checked
import PgShard.Plan.RenamedKey

namespace PgShard

variable {params : List ScalarValue} {p : Plan} {s : InsertStmt}

/-- The target table of an UPDATE or DELETE. The grammar gives it an alias
name at most, never a column list. -/
structure WriteTarget extends FromTable where
  plainAlias : toFromTable.aliasColumns = []

theorem WriteTarget.keepsKey {t : WriteTarget} {key : String} (keyColumn : t.columns[t.keyIndex]? = some key) :
    t.KeepsKey key := by
  left
  simpa [FromTable.visibleColumns, t.plainAlias] using keyColumn

/-- The plan that runs once the parameters are bound. -/
def Plan.atBind (xxh64 : Xxh64) (params : List ScalarValue) (shards : ShardCatalog) : Plan → Plan
  | .parameterized param => resolveBound xxh64 param params shards
  | p => p

/-- A plan is rejected, or it targets one shard and that shard is right. -/
def Plan.Exact (right : ShardId → Prop) (p : Plan) : Prop :=
  (∃ reason, p = PgShard.reject reason) ∨ ∃ shard, p = .singleShard shard ∧ right shard

/-- What a resolved set of key values may become as a write. -/
inductive WritesResolution (shardFn : String) (keyType : Option ScalarType) : Resolution → Plan → Prop
  | reject {r : Resolution} (reason : String) : WritesResolution shardFn keyType r (reject reason)
  | single {shard : ShardId} : WritesResolution shardFn keyType (.shards [shard]) (.singleShard shard)
  | params {indices : List Nat} :
      WritesResolution shardFn keyType (.params indices) (.parameterized ⟨shardFn, keyType, indices, true⟩)

theorem writeToShards_resolution {shardFn : String} {keyType : Option ScalarType} (hit : List ShardId)
    (table : TableName) : WritesResolution shardFn keyType (.shards hit) (writeToShards hit table) := by
  match hit with
  | [] => exact .reject _
  | [shard] => exact .single
  | _ :: _ :: _ => exact .reject _

theorem planKeyedWrite_resolution (xxh64 : Xxh64) (values : List KeyVal) (keyType : Option ScalarType)
    (shardFn : String) (known : shardFn = "xxhash64_v1") (shards : ShardCatalog) (table : TableName)
    (key verb : String) :
    WritesResolution shardFn keyType (routeValues xxh64 values keyType shardFn known shards)
      (planKeyedWrite xxh64 values keyType shardFn known shards table key verb) := by
  unfold planKeyedWrite
  cases routeValues xxh64 values keyType shardFn known shards with
  | unkeyed | mixed | uncoercible => exact .reject _
  | params indices => exact .params
  | shards hit => exact writeToShards_resolution hit table

theorem resolveBound_write {xxh64 : Xxh64} {param : Parameterized}
    {shards : ShardCatalog} (known : param.shardFunction = "xxhash64_v1") (write : param.write = true) :
    (∃ reason, resolveBound xxh64 param params shards = reject reason) ∨
      ∃ shard, resolveBound xxh64 param params shards = .singleShard shard ∧
        resolveIndices xxh64.v1 param.keyType params shards [] param.paramIndices = .ok [shard] := by
  unfold resolveBound
  rw [shardFunction_ok_iff.mpr ⟨known, rfl⟩]
  simp only
  split
  · rename_i rejection failed
    obtain ⟨reason, rfl⟩ := resolveIndices_error failed
    exact .inl ⟨reason, rfl⟩
  · exact .inl ⟨_, rfl⟩
  · rename_i shard found
    exact .inr ⟨shard, rfl, found⟩
  · rw [if_pos write]
    exact .inl ⟨_, rfl⟩

theorem WritesResolution.exact {xxh64 : Xxh64} {shardFn : String} {keyType : Option ScalarType}
    {r : Resolution} {shards : ShardCatalog} {right : ShardId → Prop}
    (writes : WritesResolution shardFn keyType r p) (known : shardFn = "xxhash64_v1")
    (covered : ∀ shard, Resolution.Covers xxh64 keyType params shards [shard] r → right shard) :
    (p.atBind xxh64 params shards).Exact right := by
  cases writes with
  | reject reason => exact .inl ⟨reason, rfl⟩
  | single => exact .inr ⟨_, rfl, covered _ .literal⟩
  | @params indices =>
    have atBind : (∃ reason, resolveBound xxh64 ⟨shardFn, keyType, indices, true⟩ params shards = _) ∨ _ :=
      resolveBound_write known rfl
    rcases atBind with ⟨reason, rejected⟩ | ⟨shard, single, resolved⟩
    · exact .inl ⟨reason, rejected⟩
    · exact .inr ⟨shard, single, covered shard (.bound resolved)⟩

/-- The cell of one VALUES row that the column list assigns to the key column
holds a literal or bound value of the key's type, and `shard` owns it. -/
def RowRoutesTo (xxh64 : Xxh64) (keyType : Option ScalarType) (params : List ScalarValue) (shards : ShardCatalog)
    (idx : Nat) (row : Node) (shard : ShardId) : Prop :=
  ∃ items cell kv v id, row = some (.list items) ∧ items[idx]? = some (some cell) ∧ keyVal cell = some kv ∧
    kv.value params = some v ∧ keyId xxh64.v1 keyType v = some id ∧ shards.route id = shard

/-- The statement lists the key column and gives rows of `VALUES`, each of
whose keys is owned by `shard`. -/
def InsertRoutesTo (xxh64 : Xxh64) (key : String) (keyType : Option ScalarType) (params : List ScalarValue)
    (shards : ShardCatalog) (s : InsertStmt) (shard : ShardId) : Prop :=
  ∃ idx sel, (s.cols[idx]?.map (isColumnTarget key)) = some true ∧ s.selectStmt = some (.selectStmt sel) ∧
    sel.valuesLists ≠ [] ∧ ∀ row ∈ sel.valuesLists, RowRoutesTo xxh64 keyType params shards idx row shard

/-- The columns an UPDATE assigns: every `SET` item, in its single or its
multi-column form, is one target. -/
def assignedColumns (targetList : List Node) : List String :=
  targetList.filterMap fun target =>
    match target with
    | some (.resTarget name _ _) => some name
    | _ => none

/-- Every row that satisfies the WHERE clause is owned by `shard`. -/
def MatchesRouteTo (xxh64 : Xxh64) (b : Backend) (t : FromTable) (keyType : Option ScalarType)
    (params : List ScalarValue) (shards : ShardCatalog) (whereClause : Node) (shard : ShardId) : Prop :=
  ∀ row : b.Row, satisfies b t params row whereClause →
    ∃ k, rowKey b t row keyType = some k ∧ shards.route (xxh64.v1.keyspaceId k) = shard

theorem setsColumn_eq_false {targetList : List Node} {key : String} (unset : setsColumn targetList key = false) :
    key ∉ assignedColumns targetList := by
  intro assigned
  obtain ⟨target, member, names⟩ := List.mem_filterMap.mp assigned
  have different := List.any_eq_false.mp unset target member
  split at names
  · cases names
    simp [isColumnTarget] at different
  · cases names

theorem rowKeyValue_eq_some {idx : Nat} {row : Node} {kv : KeyVal} (read : rowKeyValue idx row = some kv) :
    ∃ items cell, row = some (.list items) ∧ items[idx]? = some (some cell) ∧ keyVal cell = some kv := by
  unfold rowKeyValue at read
  split at read
  · rename_i items
    obtain ⟨node, found, read⟩ := Option.bind_eq_some_iff.mp read
    obtain ⟨cell, rfl, read⟩ := Option.bind_eq_some_iff.mp read
    exact ⟨items, cell, rfl, found, read⟩
  · cases read

theorem insertKeyValues_eq_some {key : String} {values : List KeyVal}
    (read : insertKeyValues s key = some values) :
    ∃ idx sel, (s.cols[idx]?.map (isColumnTarget key)) = some true ∧ s.selectStmt = some (.selectStmt sel) ∧
      sel.valuesLists ≠ [] ∧ sel.valuesLists.mapM (rowKeyValue idx) = some values := by
  unfold insertKeyValues at read
  split at read
  · cases read
  · rename_i idx found
    split at read
    · rename_i sel source
      split at read
      · cases read
      · rename_i rows
        obtain ⟨bound, listed, _⟩ := List.findIdx?_eq_some_iff_getElem.mp found
        refine ⟨idx, sel, ?_, source, ?_, read⟩
        · rw [List.getElem?_eq_getElem bound]
          exact congrArg some listed
        · intro empty
          exact rows (by simp [empty])
    · cases read

theorem onConflictRejection_reject {oc : Option OnConflictClause} {table : TableName} {key : String}
    (rejected : onConflictRejection oc table key = some p) : ∃ reason, p = reject reason := by
  unfold onConflictRejection at rejected
  split at rejected
  · cases rejected
  · split at rejected
    · cases rejected
      exact ⟨_, rfl⟩
    · split at rejected
      · cases rejected
        exact ⟨_, rfl⟩
      · cases rejected

section

variable {xxh64 : Xxh64} {vschema : VSchema} {shards : ShardCatalog} {rv : RangeVar} {key shardFn : String}
  {keyType : Option ScalarType} {known : shardFn = "xxhash64_v1"}
  (placed : placement vschema (rangeVarTable rv) = .sharded key keyType shardFn known)
include placed

theorem planInsert_resolution (relation : s.relation = some rv) :
    (∃ reason, planInsert xxh64 s vschema shards = reject reason) ∨
      ∃ values, insertKeyValues s key = some values ∧
        WritesResolution shardFn keyType (routeValues xxh64 values keyType shardFn known shards)
          (planInsert xxh64 s vschema shards) := by
  unfold planInsert
  simp only [relation, placed]
  split
  · exact .inl ⟨_, rfl⟩
  split
  · exact .inl ⟨_, rfl⟩
  split
  · rename_i rejection rejected
    exact .inl (onConflictRejection_reject rejected)
  split
  · exact .inl ⟨_, rfl⟩
  · rename_i values read
    refine .inr ⟨values, read, ?_⟩
    cases routeValues xxh64 values keyType shardFn known shards with
    | unkeyed | mixed | uncoercible => exact .reject _
    | params indices => exact .params
    | shards hit => exact writeToShards_resolution hit _

theorem planUpdate_resolution {s : UpdateStmt} (relation : s.relation = some rv) :
    (∃ reason, planUpdate xxh64 s vschema shards = reject reason) ∨
      setsColumn s.targetList key = false ∧ WritesResolution shardFn keyType
        (routeValues xxh64 (whereKeyValues s.whereClause key) keyType shardFn known shards)
        (planUpdate xxh64 s vschema shards) := by
  unfold planUpdate
  simp only [relation, placed]
  split
  · exact .inl ⟨_, rfl⟩
  rename_i unset
  split
  · exact .inl ⟨_, rfl⟩
  split
  · exact .inl ⟨_, rfl⟩
  split
  · exact .inl ⟨_, rfl⟩
  · exact .inr ⟨by simpa using unset, planKeyedWrite_resolution _ _ _ _ _ _ _ _ _⟩

theorem planDelete_resolution {s : DeleteStmt} (relation : s.relation = some rv) :
    (∃ reason, planDelete xxh64 s vschema shards = reject reason) ∨ WritesResolution shardFn keyType
        (routeValues xxh64 (whereKeyValues s.whereClause key) keyType shardFn known shards)
        (planDelete xxh64 s vschema shards) := by
  unfold planDelete
  simp only [relation, placed]
  split
  · exact .inl ⟨_, rfl⟩
  split
  · exact .inl ⟨_, rfl⟩
  split
  · exact .inl ⟨_, rfl⟩
  · exact .inr (planKeyedWrite_resolution _ _ _ _ _ _ _ _ _)

end

theorem Plan.Exact.of_reject {xxh64 : Xxh64} {shards : ShardCatalog}
    {right : ShardId → Prop} (rejected : ∃ reason, p = PgShard.reject reason) :
    (p.atBind xxh64 params shards).Exact right := by
  obtain ⟨reason, rfl⟩ := rejected
  exact .inl ⟨reason, rfl⟩

theorem matchesRouteTo_of_covers {xxh64 : Xxh64} {b : Backend} {t : FromTable}
    {shards : ShardCatalog} {key shardFn : String} {keyType : Option ScalarType}
    {known : shardFn = "xxhash64_v1"} {whereClause : Node} {shard : ShardId}
    (agrees : b.KeyEquality t params keyType) (keeps : t.KeepsKey key)
    (covers : Resolution.Covers xxh64 keyType params shards [shard]
      (routeValues xxh64 (whereKeyValues whereClause key) keyType shardFn known shards)) :
    MatchesRouteTo xxh64 b t keyType params shards whereClause shard := by
  intro row holds
  have keyed : whereKeyValues whereClause key ≠ [] := by
    intro empty
    rw [empty] at covers
    cases covers
  obtain ⟨kv, member, bounds⟩ := whereKeyValues_bounds agrees keeps holds keyed
  obtain ⟨v, id, value, found, owner⟩ := covers.value_hit member
  obtain ⟨k, canonical, rfl⟩ := Option.map_eq_some_iff.mp found
  obtain ⟨w, same, agree⟩ := bounds
  rw [value] at same
  cases same
  exact ⟨k, agree k canonical, List.mem_singleton.mp owner⟩

theorem insertRoutesTo_of_covers {xxh64 : Xxh64} {shards : ShardCatalog}
    {key shardFn : String} {keyType : Option ScalarType} {known : shardFn = "xxhash64_v1"}
    {values : List KeyVal} {shard : ShardId} (read : insertKeyValues s key = some values)
    (covers : Resolution.Covers xxh64 keyType params shards [shard]
      (routeValues xxh64 values keyType shardFn known shards)) :
    InsertRoutesTo xxh64 key keyType params shards s shard := by
  obtain ⟨idx, sel, listed, source, rows, mapped⟩ := insertKeyValues_eq_some read
  refine ⟨idx, sel, listed, source, rows, fun row inside => ?_⟩
  obtain ⟨kv, member, image⟩ := Checked.exists_of_forall₂ (Checked.forall₂_of_mapM mapped) inside
  obtain ⟨items, cell, shape, found, readCell⟩ := rowKeyValue_eq_some image
  obtain ⟨v, id, value, hashed, owner⟩ := covers.value_hit member
  exact ⟨items, cell, kv, v, id, shape, found, readCell, value, hashed, List.mem_singleton.mp owner⟩

/-- Write routing is exact: on a sharded table an INSERT, UPDATE or DELETE is
rejected, or goes to the one shard that owns every row it writes, and an
UPDATE that is not rejected leaves the shard key alone. -/
theorem write_routing_exact {xxh64 : Xxh64} {vschema : VSchema} {shards : ShardCatalog} {t : WriteTarget}
    {key shardFn : String} {keyType : Option ScalarType} {sequences : List SequenceBinding}
    (sharded : vschema.get (rangeVarTable t.rangeVar) = some (.sharded key keyType shardFn sequences))
    (keyColumn : t.columns[t.keyIndex]? = some key) (params : List ScalarValue) :
    (∀ s : InsertStmt, s.relation = some t.rangeVar →
      ((plan xxh64 (classify (some (.insertStmt s))) (.insertStmt s) vschema shards).atBind
        xxh64 params shards).Exact (InsertRoutesTo xxh64 key keyType params shards s)) ∧
    (∀ (b : Backend) (s : UpdateStmt), b.KeyEquality t.toFromTable params keyType →
      s.relation = some t.rangeVar →
      ((plan xxh64 (classify (some (.updateStmt s))) (.updateStmt s) vschema shards).atBind
        xxh64 params shards).Exact fun shard => key ∉ assignedColumns s.targetList ∧
          MatchesRouteTo xxh64 b t.toFromTable keyType params shards s.whereClause shard) ∧
    (∀ (b : Backend) (s : DeleteStmt), b.KeyEquality t.toFromTable params keyType →
      s.relation = some t.rangeVar →
      ((plan xxh64 (classify (some (.deleteStmt s))) (.deleteStmt s) vschema shards).atBind
        xxh64 params shards).Exact
          (MatchesRouteTo xxh64 b t.toFromTable keyType params shards s.whereClause)) := by
  have placed := placement_sharded sharded
  have known := VSchema.shardFunction_known sharded
  have keeps := WriteTarget.keepsKey keyColumn
  refine ⟨fun s relation => ?_, fun b s agrees relation => ?_, fun b s agrees relation => ?_⟩
  · rcases planInsert_resolution placed relation with rejected | ⟨values, read, writes⟩
    · exact .of_reject rejected
    · exact writes.exact known fun shard covers => insertRoutesTo_of_covers read covers
  · rcases planUpdate_resolution placed relation with rejected | ⟨unset, writes⟩
    · exact .of_reject rejected
    · exact writes.exact known fun shard covers =>
        ⟨setsColumn_eq_false unset, matchesRouteTo_of_covers agrees keeps covers⟩
  · rcases planDelete_resolution placed relation with rejected | writes
    · exact .of_reject rejected
    · exact writes.exact known fun shard covers => matchesRouteTo_of_covers agrees keeps covers

def ordersTarget : WriteTarget := ⟨ordersAs [] (by decide), rfl⟩

def deleteOrder : DeleteStmt where
  relation := some ordersTarget.rangeVar
  usingClause := []
  whereClause := (keyLookup ordersTarget.rangeVar "customer_id" (.ival 1)).whereClause
  returningList := []
  withClause := none

theorem deleteOrder_exact :
    ((plan goldenXxh64 .delete (.deleteStmt deleteOrder) ordersSchema halves).atBind goldenXxh64 [] halves).Exact
      (MatchesRouteTo goldenXxh64 (comparingBackend (some .int) (.int64 0)) ordersTarget.toFromTable (some .int) []
        halves deleteOrder.whereClause) :=
  (write_routing_exact (t := ordersTarget) rfl rfl []).2.2 _ deleteOrder comparingBackend_keyEquality rfl

end PgShard
