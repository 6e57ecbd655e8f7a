import PgShard.Core.ShardFn

namespace PgShard

structure TableName where
  schema : String
  name : String
  deriving DecidableEq

def TableName.display (t : TableName) : String := t.schema ++ "." ++ t.name

structure SequenceBinding where
  column : String
  sequence : String
  deriving DecidableEq

inductive TableDef
  | sharded (shardKeyColumn : String) (shardKeyType : Option ScalarType) (shardFunction : String)
      (sequences : List SequenceBinding)
  | global
  deriving DecidableEq

inductive VSchemaError
  | emptyTableName (schema name : String)
  | duplicateTable (table : TableName)
  | emptyShardKey (table : TableName)
  | unknownShardFunction (table : TableName) (name : String)
  | duplicateSequenceColumn (table : TableName) (column : String)
  deriving DecidableEq

/-- The first column that an earlier binding of the list already uses. -/
def repeatedColumn (seen : List String) : List SequenceBinding → Option String
  | [] => none
  | b :: rest => if b.column ∈ seen then some b.column else repeatedColumn (b.column :: seen) rest

theorem repeatedColumn_none_iff {sequences : List SequenceBinding} {seen : List String} :
    repeatedColumn seen sequences = none ↔ (sequences.map (·.column)).Nodup ∧ ∀ b ∈ sequences, b.column ∉ seen := by
  induction sequences generalizing seen with
  | nil => simp [repeatedColumn]
  | cons b rest ih =>
    by_cases used : b.column ∈ seen
    · simp [repeatedColumn, used]
    · rw [repeatedColumn, if_neg used, ih, List.map_cons, List.nodup_cons, List.forall_mem_cons]
      simp only [List.mem_cons, not_or, List.mem_map, not_exists, not_and]
      constructor
      · rintro ⟨distinct, fresh⟩
        exact ⟨⟨fun c listed => (fresh c listed).1, distinct⟩, used, fun c listed => (fresh c listed).2⟩
      · rintro ⟨⟨new, distinct⟩, _, fresh⟩
        exact ⟨distinct, fun c listed => ⟨new c listed, fresh c listed⟩⟩

def TableDef.check (table : TableName) : TableDef → Except VSchemaError Unit
  | .global => .ok ()
  | .sharded key _ fn sequences =>
    if key = "" then .error (.emptyShardKey table)
    else if fn ≠ "xxhash64_v1" then .error (.unknownShardFunction table fn)
    else match repeatedColumn [] sequences with
      | some column => .error (.duplicateSequenceColumn table column)
      | none => .ok ()

/-- The sharding schema. Its entries have all passed `TableDef.check`, so a
value of this type never names an unknown shard function. -/
structure VSchema where
  tables : List (TableName × TableDef)
  checked : ∀ entry ∈ tables, entry.2.check entry.1 = .ok ()

def VSchema.empty : VSchema := ⟨[], by simp⟩

def VSchema.get (v : VSchema) (table : TableName) : Option TableDef :=
  (v.tables.find? (fun entry => entry.1 = table)).map Prod.snd

def VSchema.insert (v : VSchema) (table : TableName) (tableDef : TableDef) : Except VSchemaError VSchema :=
  if table.schema = "" ∨ table.name = "" then .error (.emptyTableName table.schema table.name)
  else if (v.get table).isSome then .error (.duplicateTable table)
  else match passed : tableDef.check table with
    | .error e => .error e
    | .ok () => .ok ⟨(table, tableDef) :: v.tables, by
        intro entry member
        rcases List.mem_cons.mp member with rfl | old
        · exact passed
        · exact v.checked entry old⟩

variable {v : VSchema} {table : TableName} {sequences : List SequenceBinding}

theorem VSchema.get_checked {tableDef : TableDef}
    (found : v.get table = some tableDef) : tableDef.check table = .ok () := by
  obtain ⟨entry, hit, rfl⟩ := Option.map_eq_some_iff.mp found
  have same : entry.1 = table := by simpa using List.find?_some hit
  rw [← same]
  exact v.checked entry (List.mem_of_find?_eq_some hit)

/-- The `expect` in `route_values` never fires: a stored table names the one
shard function there is. -/
theorem VSchema.shardFunction_known {key fn : String}
    {keyType : Option ScalarType}
    (found : v.get table = some (.sharded key keyType fn sequences)) : fn = "xxhash64_v1" := by
  have passed := VSchema.get_checked found
  simp only [TableDef.check] at passed
  split at passed
  · cases passed
  · split at passed
    · cases passed
    · rename_i known
      exact not_not.mp known

theorem TableDef.check_sharded_iff {key : String} {keyType : Option ScalarType} {fn : String} :
    (TableDef.sharded key keyType fn sequences).check table = .ok () ↔
      key ≠ "" ∧ fn = "xxhash64_v1" ∧ (sequences.map (·.column)).Nodup := by
  have repeats : repeatedColumn [] sequences = none ↔ _ := repeatedColumn_none_iff
  simp only [List.not_mem_nil, not_false_eq_true, implies_true, and_true] at repeats
  rw [← repeats, TableDef.check]
  cases repeatedColumn [] sequences <;> split_ifs <;> simp_all

end PgShard
