import PgShard.Lib.Checked
import PgShard.Plan.Planner
import PgShard.Sql.Eval

namespace PgShard

open Checked

variable {kv : KeyVal} {column : NodeEnum} {values : List KeyVal} {hit : List ShardId} {indices : List Nat}

/-- The key's name still means the key column in this FROM item: an alias list
left it in place, or made it ambiguous so that PostgreSQL refuses it. -/
def FromTable.KeepsKey (t : FromTable) (key : String) : Prop :=
  t.visibleColumns[t.keyIndex]? = some key ∨ 1 < t.visibleColumns.count key

instance (t : FromTable) (key : String) : Decidable (t.KeepsKey key) :=
  inferInstanceAs (Decidable (_ ∨ _))

/-- A row that satisfies the statement has this collected value as its key. -/
def KeyVal.Bounds (params : List ScalarValue) (keyType : Option ScalarType) (rowKey : Option ScalarValue)
    (kv : KeyVal) : Prop :=
  ∃ v, kv.value params = some v ∧ ∀ key, canonicalKey keyType v = some key → rowKey = some key

section

variable {b : Backend} {t : FromTable} {params : List ScalarValue} {row : b.Row} {key : String}
  {keyType : Option ScalarType}

theorem FromTable.KeepsKey.resolve_eq (keeps : t.KeepsKey key) :
    t.resolve key = .column t.keyIndex ∨ t.resolve key = .ambiguous := by
  unfold FromTable.resolve
  split
  · exact .inr rfl
  · rename_i single
    rcases keeps with atKey | twice
    · left
      have bound : t.keyIndex < t.visibleColumns.length := by
        rw [t.visibleColumns_length]
        exact t.keyBound
      have found : t.visibleColumns.idxOf? key = some t.keyIndex := by
        rw [List.idxOf?_eq_some_iff]
        refine ⟨bound, ?_, ?_⟩
        · rw [List.getElem?_eq_getElem bound] at atKey
          exact Option.some.inj atKey
        · intro i earlier same
          have two := List.duplicate_iff_two_le_count.mp
            (List.duplicate_iff_exists_distinct_get.mpr
              ⟨⟨i, by omega⟩, ⟨t.keyIndex, bound⟩, earlier, same.symm, by
                rw [List.getElem?_eq_getElem bound] at atKey
                exact (Option.some.inj atKey).symm⟩)
          omega
      rw [found]
    · exact absurd twice single

theorem refersTo_of_isKeyColumn {node : NodeEnum} {value : Option b.Datum} (keeps : t.KeepsKey key)
    (named : isKeyColumn node key = true) (evaluates : evalScalar b t params row node = .ok value) :
    t.refersTo t.keyIndex node := by
  cases node with
  | columnRef fields =>
    have last : columnName fields = some key := by simpa [isKeyColumn] using named
    simp only [evalScalar, evalColumn, last] at evaluates
    split at evaluates
    · rename_i qualified
      rcases keeps.resolve_eq with column | ambiguous
      · exact ⟨key, last, qualified, column⟩
      · rw [ambiguous] at evaluates
        cases evaluates
    · cases evaluates
  | _ => simp [isKeyColumn] at named

theorem value_of_keyVal {node : NodeEnum} {value : Option b.Datum}
    (read : keyVal node = some kv) (evaluates : evalScalar b t params row node = .ok value) :
    ∃ v, kv.value params = some v := by
  cases node with
  | aConst c =>
    obtain ⟨v, _, rfl⟩ := Option.map_eq_some_iff.mp read
    exact ⟨v, rfl⟩
  | paramRef number =>
    simp only [keyVal] at read
    split at read
    · cases read
      simp only [evalScalar] at evaluates
      split at evaluates
      · rename_i v found
        exact ⟨v, found⟩
      · cases evaluates
    · cases read
  | _ => simp [keyVal] at read

theorem evalEquals_evaluates {l r : NodeEnum} {p : Option Bool}
    (run : evalEquals b t params row l r = .ok p) :
    (∃ x, evalScalar b t params row l = .ok x) ∧ ∃ y, evalScalar b t params row r = .ok y := by
  obtain ⟨x, left, run⟩ := bind_ok run
  obtain ⟨y, right, -⟩ := bind_ok run
  exact ⟨⟨x, left⟩, ⟨y, right⟩⟩

variable (agrees : b.KeyEquality t params keyType) (keeps : t.KeepsKey key)
include agrees keeps

theorem bounds_of_equals_left {operand : NodeEnum} (named : isKeyColumn column key = true)
    (read : keyVal operand = some kv) (holds : evalEquals b t params row column operand = .ok (some true)) :
    kv.Bounds params keyType (rowKey b t row keyType) := by
  obtain ⟨⟨x, columnValue⟩, y, operandValue⟩ := evalEquals_evaluates holds
  obtain ⟨v, value⟩ := value_of_keyVal read operandValue
  refine ⟨v, value, fun k canonical => ?_⟩
  exact agrees.left (refersTo_of_isKeyColumn keeps named columnValue) read value canonical holds

theorem bounds_of_equals_right {operand : NodeEnum} (named : isKeyColumn column key = true)
    (read : keyVal operand = some kv) (holds : evalEquals b t params row operand column = .ok (some true)) :
    kv.Bounds params keyType (rowKey b t row keyType) := by
  obtain ⟨⟨x, operandValue⟩, y, columnValue⟩ := evalEquals_evaluates holds
  obtain ⟨v, value⟩ := value_of_keyVal read operandValue
  refine ⟨v, value, fun k canonical => ?_⟩
  exact agrees.right (refersTo_of_isKeyColumn keeps named columnValue) read value canonical holds

theorem bounds_of_in {items : List Node} {ps : List (Option Bool)}
    (named : isKeyColumn column key = true) (read : listKeyValues items = some values)
    (run : evalIn b t params row column items = .ok ps) (holds : some true ∈ ps) :
    ∃ kv ∈ values, kv.Bounds params keyType (rowKey b t row keyType) := by
  induction items generalizing values ps with
  | nil =>
    cases run
    cases holds
  | cons item rest ih =>
    cases item with
    | none => cases run
    | some item =>
      simp only [listKeyValues, Option.bind_eq_bind, Option.bind_some] at read
      obtain ⟨kv, first, read⟩ := Option.bind_eq_some_iff.mp read
      obtain ⟨kvs, others, read⟩ := Option.bind_eq_some_iff.mp read
      cases read
      obtain ⟨p, head, run⟩ := bind_ok run
      obtain ⟨qs, tail, run⟩ := bind_ok run
      cases run
      rcases List.mem_cons.mp holds with here | there
      · subst here
        exact ⟨kv, by simp, bounds_of_equals_left agrees keeps named first head⟩
      · obtain ⟨kv', member, bounds⟩ := ih others tail there
        exact ⟨kv', List.mem_cons_of_mem _ member, bounds⟩

theorem collectAExpr_bounds {e : AExpr} (holds : evalAExpr b t params row e = .ok (some true))
    (keyed : collectAExpr e key ≠ []) :
    ∃ kv ∈ collectAExpr e key, kv.Bounds params keyType (rowKey b t row keyType) := by
  obtain ⟨kind, name, lexpr, rexpr⟩ := e
  cases lexpr with
  | none => exact absurd rfl keyed
  | some l =>
    cases rexpr with
    | none => exact absurd rfl keyed
    | some r =>
      by_cases eqOp : isEqOperator name = true
      swap
      · cases kind <;> simp [collectAExpr, eqOp] at keyed
      simp only [evalAExpr, eqOp, if_true] at holds
      cases kind with
      | op =>
        simp only [collectAExpr, eqOp, if_true] at keyed ⊢
        split at keyed
        · rename_i named
          rw [if_pos named]
          cases read : keyVal r with
          | none => simp [read] at keyed
          | some kv => exact ⟨kv, by simp, bounds_of_equals_left agrees keeps named read holds⟩
        · split at keyed
          · rename_i notLeft named
            rw [if_neg notLeft, if_pos named]
            cases read : keyVal l with
            | none => simp [read] at keyed
            | some kv => exact ⟨kv, by simp, bounds_of_equals_right agrees keeps named read holds⟩
          · exact absurd rfl keyed
      | «in» =>
        simp only [collectAExpr, eqOp, Bool.true_and] at keyed ⊢
        split at keyed
        · rename_i named
          rw [if_pos named]
          cases r with
          | list items =>
            simp only at keyed holds ⊢
            cases read : listKeyValues items with
            | none => simp [read] at keyed
            | some values =>
              obtain ⟨ps, run, anyTrue⟩ := map_ok holds
              exact bounds_of_in agrees keeps named read run (ThreeValued.any_eq_true.mp anyTrue)
          | _ => exact absurd rfl keyed
        · exact absurd rfl keyed
      | _ => exact absurd rfl keyed

-- The second uses the hypotheses only through the first.
set_option linter.unusedSectionVars false in
mutual

theorem collectAnd_bounds : ∀ (node : NodeEnum), evalBool b t params row node = .ok (some true) →
    collectAnd key node ≠ [] →
    ∃ kv ∈ collectAnd key node, kv.Bounds params keyType (rowKey b t row keyType)
  | .boolExpr .and args, holds, keyed => by
    simp only [evalBool] at holds
    simp only [collectAnd] at keyed ⊢
    obtain ⟨ps, run, allTrue⟩ := map_ok holds
    exact collectAndArgs_bounds args ps run (ThreeValued.all_eq_true.mp allTrue) keyed
  | .aExpr e, holds, keyed => by
    simp only [evalBool] at holds
    simp only [collectAnd] at keyed ⊢
    exact collectAExpr_bounds agrees keeps holds keyed
  | .boolExpr .or _, _, keyed | .boolExpr .not _, _, keyed | .boolExpr .undefined _, _, keyed
  | .aConst _, _, keyed | .paramRef _, _, keyed | .columnRef _, _, keyed | .string _, _, keyed
  | .aStar, _, keyed | .list _, _, keyed | .subLink _ _, _, keyed | .typeCast _ _, _, keyed
  | .setToDefault, _, keyed | .resTarget _ _ _, _, keyed | .multiAssignRef _ _ _, _, keyed
  | .rangeVar _, _, keyed | .joinExpr _ _ _ _, _, keyed | .rangeSubselect _ _ _, _, keyed
  | .sortBy _ _ _, _, keyed | .indexElem _ _, _, keyed | .commonTableExpr _ _, _, keyed | .selectStmt _, _, keyed
  | .insertStmt _, _, keyed | .updateStmt _, _, keyed | .deleteStmt _, _, keyed
  | .transactionStmt _, _, keyed | .utility _ _, _, keyed | .other _ _, _, keyed => by
    simp [collectAnd] at keyed

theorem collectAndArgs_bounds : ∀ (args : List (Option NodeEnum)) (ps : List (Option Bool)),
    evalBoolArgs b t params row args = .ok ps → (∀ p ∈ ps, p = some true) → collectAndArgs key args ≠ [] →
    ∃ kv ∈ collectAndArgs key args, kv.Bounds params keyType (rowKey b t row keyType)
  | [], _, _, _, keyed => by simp [collectAndArgs] at keyed
  | none :: _, _, run, _, _ => by simp [evalBoolArgs] at run
  | some arg :: rest, ps, run, holds, keyed => by
    simp only [evalBoolArgs] at run
    simp only [collectAndArgs, ne_eq, List.append_eq_nil_iff, not_and_or] at keyed
    obtain ⟨p, head, run⟩ := bind_ok run
    obtain ⟨qs, tail, run⟩ := bind_ok run
    cases run
    simp only [collectAndArgs, List.mem_append]
    rcases keyed with here | there
    · rw [holds p (by simp)] at head
      obtain ⟨kv, member, bounds⟩ := collectAnd_bounds arg head here
      exact ⟨kv, .inl member, bounds⟩
    · obtain ⟨kv, member, bounds⟩ :=
        collectAndArgs_bounds rest qs tail (fun q inside => holds q (by simp [inside])) there
      exact ⟨kv, .inr member, bounds⟩

end

theorem whereKeyValues_bounds {whereClause : Node} (holds : satisfies b t params row whereClause)
    (keyed : whereKeyValues whereClause key ≠ []) :
    ∃ kv ∈ whereKeyValues whereClause key, kv.Bounds params keyType (rowKey b t row keyType) := by
  cases whereClause with
  | none => exact absurd rfl keyed
  | some node => exact collectAnd_bounds agrees keeps node holds keyed

end

/-! ### From collected values to shards -/

section

variable {f : ShardFunction} {keyType : Option ScalarType} {shards : ShardCatalog}

theorem routeConsts_hit {result : List ShardId}
    (routed : routeConsts f keyType shards hit values = .shards result) :
    (∀ s ∈ hit, s ∈ result) ∧
      ∀ v, .const v ∈ values → ∃ id, keyId f keyType v = some id ∧ shards.route id ∈ result := by
  induction values generalizing hit with
  | nil =>
    cases routed
    simp
  | cons kv rest ih =>
    cases kv with
    | param n =>
      obtain ⟨kept, consts⟩ := ih routed
      refine ⟨kept, fun v member => consts v ?_⟩
      simpa using member
    | const w =>
      simp only [routeConsts] at routed
      split at routed
      · cases routed
      · rename_i id found
        obtain ⟨kept, consts⟩ := ih routed
        refine ⟨fun s member => kept s (by simp [member]), fun v member => ?_⟩
        rcases List.mem_cons.mp member with same | later
        · cases same
          exact ⟨id, found, kept _ (by simp)⟩
        · exact consts v later

theorem routeConsts_ne_params :
    routeConsts f keyType shards hit values ≠ .params indices := by
  induction values generalizing hit with
  | nil => simp [routeConsts]
  | cons kv rest ih =>
    cases kv with
    | param n => exact ih
    | const v =>
      unfold routeConsts
      split
      · simp
      · exact ih

theorem resolveIndices_hit {values : List ScalarValue} {result : List ShardId}
    (resolved : resolveIndices f keyType values shards hit indices = .ok result) :
    (∀ s ∈ hit, s ∈ result) ∧ ∀ n ∈ indices, ∃ v id, boundValue values n = some v ∧
      keyId f keyType v = some id ∧ shards.route id ∈ result := by
  induction indices generalizing hit with
  | nil =>
    cases resolved
    simp
  | cons n rest ih =>
    simp only [resolveIndices] at resolved
    split at resolved
    · cases resolved
    · rename_i v bound
      split at resolved
      · cases resolved
      · rename_i id found
        obtain ⟨kept, others⟩ := ih resolved
        refine ⟨fun s member => kept s (by simp [member]), fun m member => ?_⟩
        rcases List.mem_cons.mp member with rfl | later
        · exact ⟨v, id, bound, found, kept _ (by simp)⟩
        · exact others m later

theorem resolveIndices_error {values : List ScalarValue}
    {rejection : Plan} (failed : resolveIndices f keyType values shards hit indices = .error rejection) :
    ∃ reason, rejection = reject reason := by
  induction indices generalizing hit with
  | nil => cases failed
  | cons n rest ih =>
    simp only [resolveIndices] at failed
    split at failed
    · cases failed
      exact ⟨_, rfl⟩
    · split at failed
      · cases failed
        exact ⟨_, rfl⟩
      · exact ih failed

theorem KeyVal.Bounds.owner_eq {params : List ScalarValue} {rowKey : Option ScalarValue}
    {v k : ScalarValue} {id : KeyspaceId} (bounds : kv.Bounds params keyType rowKey)
    (value : kv.value params = some v) (found : keyId f keyType v = some id) (own : rowKey = some k) :
    f.keyspaceId k = id := by
  obtain ⟨w, same, agree⟩ := bounds
  rw [value] at same
  cases same
  obtain ⟨key, canonical, rfl⟩ := Option.map_eq_some_iff.mp found
  rw [agree key canonical] at own
  cases own
  rfl

theorem routeValues_cases (xxh64 : Xxh64) (values : List KeyVal) (shardFn : String)
    (known : shardFn = "xxhash64_v1") :
    (values = [] ∧ routeValues xxh64 values keyType shardFn known shards = .unkeyed) ∨
    (routeValues xxh64 values keyType shardFn known shards = .mixed) ∨
    ((∀ kv ∈ values, ∃ n, kv = .param n) ∧
      routeValues xxh64 values keyType shardFn known shards = .params (values.filterMap KeyVal.param?)) ∨
    ((∀ kv ∈ values, ∃ v, kv = .const v) ∧
      routeValues xxh64 values keyType shardFn known shards = routeConsts xxh64.v1 keyType shards [] values) := by
  unfold routeValues
  by_cases empty : values.isEmpty = true
  · exact .inl ⟨List.isEmpty_iff.mp empty, if_pos empty⟩
  rw [if_neg empty]
  simp only [expectShardFunction_eq]
  split
  · exact .inr (.inl rfl)
  · rename_i noConst
    refine .inr (.inr (.inl ⟨fun kv member => ?_, rfl⟩))
    cases kv with
    | param n => exact ⟨n, rfl⟩
    | const v => simpa [KeyVal.isConst] using List.any_eq_false.mp noConst _ member
  · rename_i noParam
    refine .inr (.inr (.inr ⟨fun kv member => ?_, rfl⟩))
    cases kv with
    | const v => exact ⟨v, rfl⟩
    | param n =>
      have inside : n ∈ values.filterMap KeyVal.param? := List.mem_filterMap.mpr ⟨_, member, rfl⟩
      rw [List.isEmpty_iff.mp noParam] at inside
      cases inside

/-- The shards a set of key values stands for once parameters are bound. -/
inductive Resolution.Covers (xxh64 : Xxh64) (keyType : Option ScalarType) (params : List ScalarValue)
    (shards : ShardCatalog) (hit : List ShardId) : Resolution → Prop
  | literal : Covers xxh64 keyType params shards hit (.shards hit)
  | bound {indices : List Nat} : resolveIndices xxh64.v1 keyType params shards [] indices = .ok hit →
      Covers xxh64 keyType params shards hit (.params indices)

theorem Resolution.Covers.value_hit {xxh64 : Xxh64} {shardFn : String}
    {known : shardFn = "xxhash64_v1"} {params : List ScalarValue}
    (covers : Resolution.Covers xxh64 keyType params shards hit
      (routeValues xxh64 values keyType shardFn known shards)) (member : kv ∈ values) :
    ∃ v id, kv.value params = some v ∧ keyId xxh64.v1 keyType v = some id ∧ shards.route id ∈ hit := by
  rcases routeValues_cases xxh64 values shardFn known with
    ⟨_, empty⟩ | mixed | ⟨allParams, indices⟩ | ⟨allConsts, consts⟩
  · rw [empty] at covers
    cases covers
  · rw [mixed] at covers
    cases covers
  · rw [indices] at covers
    cases covers with
    | bound resolved =>
      obtain ⟨n, rfl⟩ := allParams kv member
      have inside : n ∈ values.filterMap KeyVal.param? := List.mem_filterMap.mpr ⟨_, member, rfl⟩
      obtain ⟨v, id, value, found, owner⟩ := (resolveIndices_hit resolved).2 n inside
      exact ⟨v, id, value, found, owner⟩
  · rw [consts] at covers
    obtain ⟨v, rfl⟩ := allConsts kv member
    cases routed : routeConsts xxh64.v1 keyType shards [] values with
    | shards result =>
      rw [routed] at covers
      cases covers
      obtain ⟨id, found, owner⟩ := (routeConsts_hit routed).2 v member
      exact ⟨v, id, rfl, found, owner⟩
    | params indices => exact absurd routed routeConsts_ne_params
    | _ => rw [routed] at covers; cases covers

theorem Resolution.Covers.owner_mem {xxh64 : Xxh64} {shardFn : String}
    {known : shardFn = "xxhash64_v1"} {params : List ScalarValue}
    {rowKey : Option ScalarValue} {k : ScalarValue}
    (covers : Resolution.Covers xxh64 keyType params shards hit
      (routeValues xxh64 values keyType shardFn known shards))
    (bounded : ∃ kv ∈ values, kv.Bounds params keyType rowKey) (own : rowKey = some k) :
    shards.route (xxh64.v1.keyspaceId k) ∈ hit := by
  obtain ⟨kv, member, bounds⟩ := bounded
  obtain ⟨v, id, value, found, owner⟩ := covers.value_hit member
  rw [bounds.owner_eq value found own]
  exact owner

end

end PgShard
