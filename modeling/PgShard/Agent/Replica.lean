import PgShard.Agent.Workflow
import PgShard.Repl.RowEffects

namespace PgShard

open Checked

variable {bytes : List UInt8} {toasted : Nat → Bool} {new old row : Row} {i : Nat} {relation : Relation} {oid : Oid}
  {relations : RelationMap}

/-! ### Tuples on the wire and the rows they come from -/

def TupleColumn.cell : TupleColumn → Cell
  | .text bytes => .text bytes
  | .unchangedToast => .unchanged
  | .null | .binary _ => .null

@[simp] theorem cell_wire (value : Option (List UInt8)) : (wire value).cell = Cell.ofValue value := by
  cases value <;> rfl

theorem tupleCells_ok {tuple : TupleData} {cells : List Cell} (run : tupleCells tuple = .ok cells) :
    cells = tuple.map TupleColumn.cell := by
  induction tuple generalizing cells with
  | nil =>
    cases run
    rfl
  | cons column rest ih =>
    rw [tupleCells, List.mapM_cons] at run
    obtain ⟨cell, own, run⟩ := bind_ok run
    obtain ⟨others, tail, run⟩ := bind_ok run
    cases run
    have first : cell = column.cell := by
      cases column <;> cases own <;> rfl
    rw [List.map_cons, first, ih tail]

theorem newTuple_getElem? (toasted : Nat → Bool) (new : Row) (i : Nat) :
    (newTuple toasted new)[i]? = new[i]?.map fun value => if toasted i then .unchangedToast else wire value := by
  simp [newTuple]

theorem wire_eq_text {value : Option (List UInt8)} (text : wire value = .text bytes) :
    value = some bytes := by
  cases value with
  | none => cases text
  | some b =>
    cases text
    rfl

theorem newTuple_text
    (sent : (newTuple toasted new)[i]? = some (.text bytes)) : new[i]? = some (some bytes) := by
  rw [newTuple_getElem?] at sent
  obtain ⟨value, stored, shown⟩ := Option.map_eq_some_iff.mp sent
  split at shown
  · cases shown
  · rw [stored, wire_eq_text shown]

theorem keyTuple_text
    (sent : (keyTuple relation old)[i]? = some (.text bytes)) : old[i]? = some (some bytes) := by
  rw [keyTuple, List.getElem?_zipWith] at sent
  cases column : relation.columns[i]? with
  | none => simp [column] at sent
  | some c =>
    cases stored : old[i]? with
    | none => simp [column, stored] at sent
    | some value =>
      simp only [column, stored, Option.some.injEq] at sent
      split at sent
      · rw [wire_eq_text sent]
      · cases sent

theorem updatedCells_newTuple
    (kept : ∀ i, toasted i = true → old[i]? = new[i]?) :
    UpdatedCells old new ((newTuple toasted new).map TupleColumn.cell) := by
  intro i
  rw [List.getElem?_map, newTuple_getElem?, Option.map_map]
  cases hidden : toasted i with
  | false => exact .inl (by simp [Function.comp_def])
  | true =>
    cases stored : new[i]? with
    | none => exact .inl rfl
    | some value => exact .inr ⟨rfl, (kept i hidden).trans stored⟩

theorem getElem?_cell_text {tuple : TupleData}
    (cell : (tuple.map TupleColumn.cell)[i]? = some (.text bytes)) : tuple[i]? = some (.text bytes) := by
  rw [List.getElem?_map] at cell
  obtain ⟨column, found, shown⟩ := Option.map_eq_some_iff.mp cell
  cases column <;> cases shown
  exact found

theorem identityOf_keyTuple (relation : Relation) (old : Row) :
    IdentityOf relation old ((keyTuple relation old).map TupleColumn.cell) :=
  fun _ _ _ _ _ cell => keyTuple_text (getElem?_cell_text cell)

theorem identityOf_newTuple
    (same : ∀ (i : Nat) (column : RelationColumn), relation.columns[i]? = some column → column.isKey = true →
      old[i]? = new[i]?) : IdentityOf relation old ((newTuple toasted new).map TupleColumn.cell) :=
  fun i column _ found key cell => (same i column found key).trans (newTuple_text (getElem?_cell_text cell))

/-! ### The rows a run keeps -/

section

variable (run : RunPlan) (shardFn : ShardFunction)

def RunPlan.keyOf (relation : Relation) : Option RelFilter :=
  match run.table? relation.namespace relation.name with
  | none => none
  | some table =>
    match shardKeyIndex relation table.shardKeyColumn with
    | .ok keyIndex => some ⟨keyIndex, table.shardKeyType⟩
    | .error _ => none

def RunPlan.keeps (relation : Relation) (row : Row) : Bool :=
  match run.keyOf relation with
  | some f => row.inRange f.keyIndex f.keyType shardFn run.range
  | none => false

def RunPlan.slice (relation : Relation) (rows : Multiset Row) : Multiset NamedRow :=
  (rows.filter fun row => run.keeps shardFn relation row = true).map
    (Row.named (relation.columns.map RelationColumn.name))

/-- Every mapped table of the target holds the slice of the source's rows. -/
def Replicates (schema : SourceSchema) (source : SourceTables) (target : TargetTables) : Prop :=
  ∀ oid relation f, schema.relation oid = some relation → run.keyOf relation = some f →
    target (relation.namespace, relation.name) = run.slice shardFn relation (source oid)

/-- A change none of whose rows belongs on the target. -/
def Drops (relation : Relation) : RowChange → Prop
  | .insert _ row => run.keeps shardFn relation row = false
  | .update _ old new => run.keeps shardFn relation old = false ∧ run.keeps shardFn relation new = false
  | .delete _ old => run.keeps shardFn relation old = false

/-- What is buffered for a change all of whose rows belong on the target. -/
inductive Buffers (relation : Relation) : RowChange → PendingChange → Prop
  | insert {oid : Oid} {row : Row} : run.keeps shardFn relation row = true →
      Buffers relation (.insert oid row) (.insert oid (row.map Cell.ofValue))
  | update {oid : Oid} {old new : Row} {keySource cells : List Cell} : run.keeps shardFn relation old = true →
      run.keeps shardFn relation new = true → IdentityOf relation old keySource → UpdatedCells old new cells →
      Buffers relation (.update oid old new) (.update oid keySource cells)
  | delete {oid : Oid} {old : Row} {keySource : List Cell} : run.keeps shardFn relation old = true →
      IdentityOf relation old keySource → Buffers relation (.delete oid old) (.delete oid keySource)

inductive BuffersAll (schema : SourceSchema) : List RowChange → List PendingChange → Prop
  | done : BuffersAll schema [] []
  | dropped {c : RowChange} {changes : List RowChange} {pending : List PendingChange} {relation : Relation} :
      schema.relation c.oid = some relation → Drops run shardFn relation c → BuffersAll schema changes pending →
      BuffersAll schema (c :: changes) pending
  | kept {c : RowChange} {changes : List RowChange} {p : PendingChange} {pending : List PendingChange}
      {relation : Relation} : schema.relation c.oid = some relation → Buffers run shardFn relation c p →
      BuffersAll schema changes pending → BuffersAll schema (c :: changes) (p :: pending)

end

/-! ### Applying what was buffered -/

section

variable {run : RunPlan} {shardFn : ShardFunction} {schema : SourceSchema} {source : SourceTables}
  {target target' : TargetTables} {server : TargetServer}

theorem slice_cons_kept (kept : run.keeps shardFn relation row = true)
    (rows : Multiset Row) : run.slice shardFn relation (row ::ₘ rows) =
      row.named (relation.columns.map RelationColumn.name) ::ₘ run.slice shardFn relation rows := by
  rw [RunPlan.slice, Multiset.filter_cons_of_pos (p := fun r => run.keeps shardFn relation r = true) rows kept,
    Multiset.map_cons, RunPlan.slice]

theorem slice_cons_dropped (dropped : run.keeps shardFn relation row = false)
    (rows : Multiset Row) : run.slice shardFn relation (row ::ₘ rows) = run.slice shardFn relation rows := by
  rw [RunPlan.slice, Multiset.filter_cons_of_neg (p := fun r => run.keeps shardFn relation r = true) rows
    (by simp [dropped]), RunPlan.slice]

theorem Replicates.update (replicates : Replicates run shardFn schema source target)
    (found : schema.relation oid = some relation) {rows : Multiset Row} {sliced : Multiset NamedRow}
    (here : sliced = run.slice shardFn relation rows) :
    Replicates run shardFn schema (Function.update source oid rows)
      (Function.update target (relation.namespace, relation.name) sliced) := by
  intro other r f foundOther key
  by_cases same : other = oid
  · subst same
    cases found.symm.trans foundOther
    rw [Function.update_self, Function.update_self, here]
  · have apart : (r.namespace, r.name) ≠ (relation.namespace, relation.name) := by
      intro names
      exact same (schema.unique foundOther found (congrArg Prod.fst names) (congrArg Prod.snd names))
    rw [Function.update_of_ne apart, Function.update_of_ne same]
    exact replicates other r f foundOther key

theorem Replicates.outside (replicates : Replicates run shardFn schema source target)
    (found : schema.relation oid = some relation) {rows : Multiset Row}
    (same : run.slice shardFn relation rows = run.slice shardFn relation (source oid)) :
    Replicates run shardFn schema (Function.update source oid rows) target := by
  intro other r f foundOther key
  by_cases equal : other = oid
  · subst equal
    cases found.symm.trans foundOther
    rw [Function.update_self, same]
    exact replicates _ _ f foundOther key
  · rw [Function.update_of_ne equal]
    exact replicates other r f foundOther key

theorem Replicates.dropped (replicates : Replicates run shardFn schema source target) {c : RowChange}
    (found : schema.relation c.oid = some relation) (valid : c.Valid schema source)
    (drops : Drops run shardFn relation c) : Replicates run shardFn schema (c.apply source) target := by
  cases c with
  | insert oid row => exact replicates.outside found (slice_cons_dropped drops (source oid))
  | update oid old new =>
    refine replicates.outside found ?_
    calc run.slice shardFn relation (new ::ₘ (source oid).erase old)
        = run.slice shardFn relation ((source oid).erase old) := slice_cons_dropped drops.2 _
      _ = run.slice shardFn relation (old ::ₘ (source oid).erase old) := (slice_cons_dropped drops.1 _).symm
      _ = run.slice shardFn relation (source oid) := by rw [Multiset.cons_erase valid.1]
  | delete oid old =>
    refine replicates.outside found ?_
    calc run.slice shardFn relation ((source oid).erase old)
        = run.slice shardFn relation (old ::ₘ (source oid).erase old) := (slice_cons_dropped drops _).symm
      _ = run.slice shardFn relation (source oid) := by rw [Multiset.cons_erase valid]

theorem keeps_columns (kept : run.keeps shardFn relation row = true) :
    row ≠ [] ∧ ∃ f, run.keyOf relation = some f := by
  unfold RunPlan.keeps at kept
  split at kept
  · rename_i f key
    refine ⟨?_, f, key⟩
    rintro rfl
    simp [Row.inRange, Row.keyspaceId] at kept
  · cases kept

theorem runStatements_one {sql : String} {statement : RowStatement} (reads : readSql sql = some statement)
    (ran : runStatements server.db [sql] target = .ok target') :
    target' = (server.effect target statement).1 ∧ (server.effect target statement).2 = 1 := by
  simp only [runStatements, TargetServer.db, reads, Option.bind_some] at ran
  split at ran
  · cases ran
  · rename_i changed affected executed
    split at executed
    · cases executed
    · simp only [Option.some.injEq] at executed
      split at ran
      · cases ran
      · rename_i one
        cases ran
        rw [executed]
        exact ⟨rfl, not_not.mp one⟩

theorem runStatements_append {db : TargetDb TargetTables} {first second : List String}
    (ran : runStatements db (first ++ second) target = .ok target') :
    ∃ middle, runStatements db first target = .ok middle ∧ runStatements db second middle = .ok target' := by
  induction first generalizing target with
  | nil => exact ⟨target, rfl, ran⟩
  | cons sql rest ih =>
    simp only [List.cons_append, runStatements] at ran ⊢
    split at ran
    · cases ran
    · split at ran
      · cases ran
      · rename_i one
        rw [if_neg one]
        exact ih ran

/-- The descriptors an applier holds are those the source published. -/
def Described (schema : SourceSchema) (relations : RelationMap) : Prop :=
  ∀ oid info, relations oid = some info → ∃ relation, schema.relation oid = some relation ∧ info = .ofMsg relation

theorem Described.find (described : Described schema relations) (found : schema.relation oid = some relation) {info : RelationInfo}
    (run : relations.find oid = .ok info) : info = .ofMsg relation := by
  obtain ⟨r, same, rfl⟩ := described oid info (RelationMap.find_eq.symm.trans (toOption_some.mpr run))
  cases found.symm.trans same
  rfl

theorem Replicates.kept (replicates : Replicates run shardFn schema source target)
    (fits : ∀ oid, ∀ row ∈ source oid, schema.Fits oid row) {c : RowChange} {p : PendingChange}
    (found : schema.relation c.oid = some relation) (valid : c.Valid schema source)
    (buffers : Buffers run shardFn relation c p) (described : Described schema relations)
    {sql : Option String} (built : buildStatement relations p = .ok sql)
    (ran : runStatements server.db sql.toList target = .ok target') :
    Replicates run shardFn schema (c.apply source) target' := by
  have distinct := schema.columns_nodup found
  cases buffers with
  | @insert oid row kept =>
    obtain ⟨info, described', statement⟩ := bind_ok built
    obtain ⟨text, inserted, same⟩ := bind_ok statement
    cases same
    cases described.find found described'
    obtain ⟨nonempty, f, key⟩ := keeps_columns kept
    obtain ⟨r, found', length⟩ := valid
    cases found.symm.trans found'
    have columns : relation.columns.map RelationColumn.name ≠ [] := by
      intro empty
      rw [List.map_eq_nil_iff.mp empty] at length
      exact nonempty (List.length_eq_zero_iff.mp length)
    obtain ⟨values, shown, reads⟩ := buildInsert_readSql columns inserted
    obtain ⟨rfl, _⟩ := runStatements_one reads ran
    refine replicates.update found ?_
    rw [slice_cons_kept kept, ← replicates oid relation f found key, mapM_sqlValue_ofValue shown]
    rfl
  | @update oid old new keySource cells keptOld keptNew identity cellsOf =>
    obtain ⟨info, described', updated⟩ := bind_ok built
    cases described.find found described'
    obtain ⟨cellsLength, values, shipped, sent⟩ := buildUpdate_readSql updated
    obtain ⟨r, found', oldLength⟩ := fits oid old valid.1
    cases found.symm.trans found'
    have assigned := assign_shipped distinct cellsLength (by simpa using oldLength) cellsOf shipped
    obtain ⟨_, f, key⟩ := keeps_columns keptOld
    have sliced : run.slice shardFn relation (source oid) = old.named (relation.columns.map RelationColumn.name) ::ₘ
        run.slice shardFn relation ((source oid).erase old) := by
      rw [← slice_cons_kept keptOld, Multiset.cons_erase valid.1]
    have after := slice_cons_kept keptNew ((source oid).erase old)
    rcases sent with ⟨rfl, rfl⟩ | ⟨text, conditions, rfl, matched, reads⟩
    · -- Nothing was shipped, so the two rows are the same.
      cases ran
      have same : old.named (relation.columns.map RelationColumn.name) = new.named _ := assigned
      refine replicates.outside found ?_
      rw [after, ← same]
      exact sliced.symm
    · obtain ⟨rfl, one⟩ := runStatements_one reads ran
      have finds := matching_identity server distinct identity matched (relation.namespace, relation.name)
      have before := (replicates oid relation f found key).trans sliced
      refine replicates.update found ?_
      simp only [TargetServer.effect, RelationInfo.ofMsg, before] at one ⊢
      rw [after, ← assigned]
      exact UniqueMatch.map_update finds one (TargetServer.assign values)
  | @delete oid old keySource kept identity =>
    obtain ⟨info, described', statement⟩ := bind_ok built
    obtain ⟨text, deleted, same⟩ := bind_ok statement
    cases same
    cases described.find found described'
    obtain ⟨conditions, matched, reads⟩ := buildDelete_readSql deleted
    obtain ⟨rfl, one⟩ := runStatements_one reads ran
    obtain ⟨_, f, key⟩ := keeps_columns kept
    have before := replicates oid relation f found key
    rw [← Multiset.cons_erase valid, slice_cons_kept kept] at before
    have finds := matching_identity server distinct identity matched (relation.namespace, relation.name)
    refine replicates.update found ?_
    simp only [TargetServer.effect, RelationInfo.ofMsg, before] at one ⊢
    exact UniqueMatch.filter_delete finds one

theorem Replicates.all (replicates : Replicates run shardFn schema source target)
    (fits : ∀ oid, ∀ row ∈ source oid, schema.Fits oid row) {changes : List RowChange} {pending : List PendingChange}
    (valid : ValidFrom schema source changes) (buffers : BuffersAll run shardFn schema changes pending)
    (described : Described schema relations) {statements : List String}
    (built : buildStatements relations pending = .ok statements)
    (ran : runStatements server.db statements target = .ok target') :
    Replicates run shardFn schema (applyAll source changes) target' := by
  induction buffers generalizing source target statements with
  | done =>
    cases built
    cases ran
    exact replicates
  | dropped found drops _ ih =>
    exact ih (replicates.dropped found valid.1 drops) (RowChange.apply_fits fits valid.1) valid.2 built ran
  | kept found buffers _ ih =>
    obtain ⟨sql, own, rest⟩ := bind_ok built
    obtain ⟨others, tail, same⟩ := bind_ok rest
    cases same
    obtain ⟨middle, first, later⟩ := runStatements_append ran
    exact ih (replicates.kept fits found valid.1 buffers described own first) (RowChange.apply_fits fits valid.1)
      valid.2 tail later

end

end PgShard
