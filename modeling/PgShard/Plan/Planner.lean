import PgShard.Plan.Catalog
import PgShard.Plan.Extract
import PgShard.Lib.Quote

namespace PgShard

def crossShard : String := "0A000"

def undefinedTable : String := "42P01"

/-- A plan that still needs the bound values at the 1-based `paramIndices`. -/
structure Parameterized where
  shardFunction : String
  keyType : Option ScalarType
  paramIndices : List Nat
  write : Bool
  deriving DecidableEq

inductive Plan
  | singleShard (shard : ShardId)
  | scatter (shards : List ShardId)
  | broadcast (shards : List ShardId)
  | unsharded
  | routerLocal
  | parameterized (param : Parameterized)
  | reject (code reason : String)
  deriving DecidableEq

def reject (reason : String) : Plan := .reject crossShard reason

def isCatalogSchema (t : TableName) : Bool :=
  t.schema == "pg_catalog" || t.schema == "information_schema"

def rejectUnknown (t : TableName) : Plan :=
  .reject undefinedTable ("relation " ++ t.display ++
    " is not in the sharding configuration; qualify catalog reads with pg_catalog")

def insertShard (s : ShardId) : List ShardId → List ShardId
  | [] => [s]
  | t :: rest => if s = t then t :: rest else if s.id < t.id then s :: t :: rest else t :: insertShard s rest

@[simp] theorem mem_insertShard {s t : ShardId} {hit : List ShardId} :
    s ∈ insertShard t hit ↔ s = t ∨ s ∈ hit := by
  induction hit with
  | nil => simp [insertShard]
  | cons u rest ih =>
    unfold insertShard
    split
    · rename_i same
      simp [same]
    · split
      · simp
      · simp only [List.mem_cons, ih]
        tauto

def keyId (f : ShardFunction) (keyType : Option ScalarType) (v : ScalarValue) : Option KeyspaceId :=
  (canonicalKey keyType v).map f.keyspaceId

def resolveIndices (f : ShardFunction) (keyType : Option ScalarType) (values : List ScalarValue)
    (shards : ShardCatalog) (hit : List ShardId) : List Nat → Except Plan (List ShardId)
  | [] => .ok hit
  | idx :: rest =>
    -- Position zero wraps around to an index no slice has.
    match if idx = 0 then none else values[idx - 1]? with
    | none => .error (reject ("bind parameter $" ++ toString idx ++ " for the shard key is missing"))
    | some value =>
      match keyId f keyType value with
      | none => .error (reject ("bind parameter $" ++ toString idx ++
          " is not a valid value for the shard key type"))
      | some id => resolveIndices f keyType values shards (insertShard (shards.route id) hit) rest

def resolveBound (xxh64 : Xxh64) (param : Parameterized) (values : List ScalarValue) (shards : ShardCatalog) :
    Plan :=
  match shardFunction xxh64 param.shardFunction with
  | .error _ => reject ("unknown shard function " ++ Quote.debug param.shardFunction)
  | .ok f =>
    match resolveIndices f param.keyType values shards [] param.paramIndices with
    | .error rejection => rejection
    | .ok [] => reject "parameterized plan named no shard-key parameters"
    | .ok [s] => .singleShard s
    | .ok hit =>
      if param.write then
        reject ("write resolves to " ++ toString hit.length ++ " shards; cross-shard writes are not supported")
      else .scatter hit

/-- How the key values of a statement resolve against the catalog. -/
inductive Resolution
  | unkeyed
  | params (indices : List Nat)
  | mixed
  | uncoercible
  | shards (hit : List ShardId)
  deriving DecidableEq

def KeyVal.param? : KeyVal → Option Nat
  | .param n => some n
  | .const _ => none

def KeyVal.isConst : KeyVal → Bool
  | .const _ => true
  | .param _ => false

def routeConsts (f : ShardFunction) (keyType : Option ScalarType) (shards : ShardCatalog) (hit : List ShardId) :
    List KeyVal → Resolution
  | [] => .shards hit
  | .param _ :: rest => routeConsts f keyType shards hit rest
  | .const v :: rest =>
    match keyId f keyType v with
    | none => .uncoercible
    | some id => routeConsts f keyType shards (insertShard (shards.route id) hit) rest

/-- `shardFn` is known to the schema, so looking it up does not fail. -/
def expectShardFunction (xxh64 : Xxh64) (shardFn : String) (known : shardFn = "xxhash64_v1") : ShardFunction :=
  match found : shardFunction xxh64 shardFn with
  | .ok f => f
  | .error _ => False.elim (by
      have ok : shardFunction xxh64 shardFn = .ok xxh64.v1 := shardFunction_ok_iff.mpr ⟨known, rfl⟩
      rw [found] at ok
      cases ok)

@[simp] theorem expectShardFunction_eq (xxh64 : Xxh64) (shardFn : String) (known : shardFn = "xxhash64_v1") :
    expectShardFunction xxh64 shardFn known = xxh64.v1 := by
  unfold expectShardFunction
  split
  · rename_i f found
    exact (shardFunction_ok_iff.mp found).2
  · rename_i e found
    rw [shardFunction_ok_iff.mpr ⟨known, rfl⟩] at found
    cases found

def routeValues (xxh64 : Xxh64) (values : List KeyVal) (keyType : Option ScalarType) (shardFn : String)
    (known : shardFn = "xxhash64_v1") (shards : ShardCatalog) : Resolution :=
  if values.isEmpty then .unkeyed
  else
    let params := values.filterMap KeyVal.param?
    match params.isEmpty, values.any KeyVal.isConst with
    | false, true => .mixed
    | false, false => .params params
    | true, _ => routeConsts (expectShardFunction xxh64 shardFn known) keyType shards [] values

def readFromShards : List ShardId → Plan
  | [s] => .singleShard s
  | hit => .scatter hit

inductive Placement
  | sharded (key : String) (keyType : Option ScalarType) (shardFn : String) (known : shardFn = "xxhash64_v1")
  | global
  | unknown
  deriving DecidableEq

def placement (vschema : VSchema) (table : TableName) : Placement :=
  match found : vschema.get table with
  | some (.sharded key keyType shardFn _) => .sharded key keyType shardFn (VSchema.shardFunction_known found)
  | some .global => .global
  | none => .unknown

def Placement.isSharded : Placement → Bool
  | .sharded _ _ _ _ => true
  | _ => false

def resolvesTable (vschema : VSchema) (schema name : String) : Bool :=
  let t : TableName := ⟨if schema = "" then "public" else schema, name⟩
  isCatalogSchema t || decide (placement vschema t ≠ .unknown)

def unknownRelation (tree : Value) (vschema : VSchema) : Option TableName :=
  (findUnresolvedRelation tree (resolvesTable vschema)).map fun (schema, name) =>
    ⟨if schema = "" then "public" else schema, name⟩

mutual

def setOpFrom : SelectStmt → FromClause
  | ⟨_, _, _, fromClause, _, _, _, _, _, _, _, _, _, _, _, op, _, larg, rarg⟩ =>
    if op = .none then analyzeFrom fromClause
    else (FromClause.empty.append (setOpArm larg)).append (setOpArm rarg)

def setOpArm : Option SelectStmt → FromClause
  | none => .empty
  | some s => setOpFrom s

end

def planSetOp (s : SelectStmt) (vschema : VSchema) : Plan :=
  if containsSublink s.toValue then reject "a set operation with a subquery is not supported in M1"
  else if containsCte s.toValue then reject "a set operation with a CTE (WITH) is not supported in M1"
  else
    let clause := setOpFrom s
    if !clause.allPlain then
      reject "a set operation with a subquery or function in a FROM is not supported in M1"
    else if clause.tables.any (fun t => (placement vschema t).isSharded) then
      reject "a set operation (UNION/INTERSECT/EXCEPT) over a sharded table is not supported in M1"
    else if clause.tables.isEmpty then .routerLocal
    else .unsharded

def planSelect (xxh64 : Xxh64) (s : SelectStmt) (vschema : VSchema) (shards : ShardCatalog) : Plan :=
  match unknownRelation s.toValue vschema with
  | some t => rejectUnknown t
  | none =>
    if s.op ≠ .none then planSetOp s vschema
    else
      let clause := analyzeFrom s.fromClause
      match (clause.tables.map (placement vschema)).filter Placement.isSharded with
      | [] =>
        if clause.tables.isEmpty && clause.allPlain && !containsSublink s.toValue && !containsCte s.toValue
        then .routerLocal else .unsharded
      | [.sharded key keyType shardFn known] =>
        if clause.tables.length > 1 || !clause.allPlain then
          reject "SELECT joining a sharded table with another relation is not supported in M1"
        else if s.withClause.isSome then
          reject "SELECT with a CTE (WITH) on a sharded table is not supported in M1"
        else if containsSublink s.toValue then
          reject "SELECT with a subquery on a sharded table is not supported in M1"
        else
          match routeValues xxh64 (whereKeyValues s.whereClause key) keyType shardFn known shards with
          | .unkeyed | .mixed | .uncoercible => .scatter shards.all
          | .params paramIndices => .parameterized ⟨shardFn, keyType, paramIndices, false⟩
          | .shards hit => readFromShards hit
      | _ => reject "SELECT joining multiple sharded tables is not supported in M1"

def writeToShards (hit : List ShardId) (table : TableName) : Plan :=
  match hit with
  | [s] => .singleShard s
  | _ => reject ("write to sharded table " ++ table.display ++ " spans " ++ toString hit.length ++
      " shards; cross-shard writes are not supported")

def arbiterIncludesKey (infer : Option InferClause) (key : String) : Bool :=
  match infer with
  | none => false
  | some inf => inf.conname == "" && inf.indexElems.any fun e =>
      match e with
      | some (.indexElem name _) => name == key
      | _ => false

def onConflictRejection (oc : Option OnConflictClause) (table : TableName) (key : String) : Option Plan :=
  match oc with
  | none => none
  | some c =>
    if c.action = .update then
      some (reject ("INSERT into sharded table " ++ table.display ++
        " with ON CONFLICT DO UPDATE is not supported in M1"))
    else if !arbiterIncludesKey c.infer key then
      some (reject ("INSERT into sharded table " ++ table.display ++
        " with ON CONFLICT requires a conflict target listing the shard key column " ++ key))
    else none

def planInsert (xxh64 : Xxh64) (s : InsertStmt) (vschema : VSchema) (shards : ShardCatalog) : Plan :=
  match s.relation with
  | none => reject "INSERT without a target relation"
  | some rv =>
    let table := rangeVarTable rv
    if s.withClause.isSome then
      reject ("INSERT into " ++ table.display ++ " with a CTE (WITH) is not supported in M1")
    else if containsSublink s.toValue then
      reject ("INSERT into " ++ table.display ++ " with a subquery is not supported in M1")
    else
      match placement vschema table with
      | .global => .unsharded
      | .unknown => reject ("table " ++ table.display ++ " is not in the sharding schema")
      | .sharded key keyType shardFn known =>
        match onConflictRejection s.onConflictClause table key with
        | some rejection => rejection
        | none =>
          match insertKeyValues s key with
          | none => reject ("INSERT into sharded table " ++ table.display ++ " must list column " ++ key ++
              " with a literal or bind-parameter value")
          | some values =>
            match routeValues xxh64 values keyType shardFn known shards with
            | .unkeyed => reject ("INSERT into sharded table " ++ table.display ++
                " does not set shard key " ++ key)
            | .mixed => reject ("INSERT into sharded table " ++ table.display ++
                " mixes literal and parameter shard keys across rows")
            | .uncoercible => reject ("INSERT into sharded table " ++ table.display ++
                " has a shard key " ++ key ++ " value that is not valid for the column type")
            | .params paramIndices => .parameterized ⟨shardFn, keyType, paramIndices, true⟩
            | .shards hit => writeToShards hit table

def planKeyedWrite (xxh64 : Xxh64) (values : List KeyVal) (keyType : Option ScalarType) (shardFn : String)
    (known : shardFn = "xxhash64_v1") (shards : ShardCatalog) (table : TableName) (key verb : String) : Plan :=
  match routeValues xxh64 values keyType shardFn known shards with
  | .unkeyed => reject (verb ++ " of sharded table " ++ table.display ++ " must constrain shard key " ++ key)
  | .mixed => reject (verb ++ " of sharded table " ++ table.display ++
      " mixes literal and parameter shard keys")
  | .uncoercible => reject (verb ++ " of sharded table " ++ table.display ++ " has a shard key " ++ key ++
      " value that is not valid for the column type")
  | .params paramIndices => .parameterized ⟨shardFn, keyType, paramIndices, true⟩
  | .shards hit => writeToShards hit table

def planUpdate (xxh64 : Xxh64) (s : UpdateStmt) (vschema : VSchema) (shards : ShardCatalog) : Plan :=
  match s.relation with
  | none => reject "UPDATE without a target relation"
  | some rv =>
    let table := rangeVarTable rv
    match placement vschema table with
    | .global => .unsharded
    | .unknown => reject ("table " ++ table.display ++ " is not in the sharding schema")
    | .sharded key keyType shardFn known =>
      if setsColumn s.targetList key then
        reject ("shard key " ++ key ++ " of " ++ table.display ++ " is immutable")
      else if !s.fromClause.isEmpty then
        reject ("UPDATE " ++ table.display ++ " ... FROM another relation is not supported in M1")
      else if s.withClause.isSome then
        reject ("UPDATE " ++ table.display ++ " with a CTE (WITH) is not supported in M1")
      else if containsSublink s.toValue then
        reject ("UPDATE " ++ table.display ++ " with a subquery is not supported in M1")
      else planKeyedWrite xxh64 (whereKeyValues s.whereClause key) keyType shardFn known shards table key "UPDATE"

def planDelete (xxh64 : Xxh64) (s : DeleteStmt) (vschema : VSchema) (shards : ShardCatalog) : Plan :=
  match s.relation with
  | none => reject "DELETE without a target relation"
  | some rv =>
    let table := rangeVarTable rv
    match placement vschema table with
    | .global => .unsharded
    | .unknown => reject ("table " ++ table.display ++ " is not in the sharding schema")
    | .sharded key keyType shardFn known =>
      if !s.usingClause.isEmpty then
        reject ("DELETE FROM " ++ table.display ++ " ... USING another relation is not supported in M1")
      else if s.withClause.isSome then
        reject ("DELETE FROM " ++ table.display ++ " with a CTE (WITH) is not supported in M1")
      else if containsSublink s.toValue then
        reject ("DELETE FROM " ++ table.display ++ " with a subquery is not supported in M1")
      else planKeyedWrite xxh64 (whereKeyValues s.whereClause key) keyType shardFn known shards table key "DELETE"

def plan (xxh64 : Xxh64) (kind : StatementKind) (node : NodeEnum) (vschema : VSchema) (shards : ShardCatalog) :
    Plan :=
  match kind, node with
  | .select, .selectStmt s => planSelect xxh64 s vschema shards
  | .insert, .insertStmt s => planInsert xxh64 s vschema shards
  | .update, .updateStmt s => planUpdate xxh64 s vschema shards
  | .delete, .deleteStmt s => planDelete xxh64 s vschema shards
  | .ddl, _ => .broadcast shards.all
  | .merge, _ => reject "MERGE is not supported in M1"
  | .copy, _ => reject "COPY to a sharded table is not supported in M1"
  | .other, _ => reject "data-modifying CTEs and this statement form are not supported in M1"
  | _, _ => .routerLocal

end PgShard
