import PgShard.Plan.ReadRouting

namespace PgShard

variable {rv : RangeVar} {vschema : VSchema} {key : String}

def keyLookup (rv : RangeVar) (key : String) (c : ConstVal) : SelectStmt where
  distinctClause := []
  intoClause := none
  targetList := [some (.resTarget "" [] (some (.columnRef [some .aStar])))]
  fromClause := [some (.rangeVar rv)]
  whereClause := some (.aExpr ⟨.op, [some (.string "=")], some (.columnRef [some (.string key)]),
    some (.aConst ⟨false, some c⟩)⟩)
  groupClause := []
  groupDistinct := false
  havingClause := none
  windowClause := []
  valuesLists := []
  sortClause := []
  limitOffset := none
  limitCount := none
  lockingClause := []
  withClause := none
  op := .none
  all := false
  larg := none
  rarg := none

theorem itemsContainKey_strings (key : String) (names : List String) :
    itemsContainKey key (names.map .string) = false := by
  induction names with
  | nil => rfl
  | cons name rest ih => simp [itemsContainKey, Value.containsKey, ih]

theorem ConstVal.toValue_noSublink (c : ConstVal) : c.toValue.containsKey "SubLink" = false := by
  cases c <;> simp [ConstVal.toValue, Value.containsKey, membersContainKey]

theorem optionAlias_noSublink (a : Option Alias) : (optionAlias a).containsKey "SubLink" = false := by
  cases a <;>
    simp [optionAlias, Alias.toValue, Value.containsKey, membersContainKey, itemsContainKey_strings]

theorem ConstVal.toValue_unresolved (resolve : String → String → Bool) (visible : List String) (c : ConstVal) :
    unresolvedIn resolve visible c.toValue = none := by
  cases c <;>
    simp [ConstVal.toValue, unresolvedIn, unresolvedInMembers, Value.get, Option.filter]

theorem keyLookup_containsSublink (rv : RangeVar) (key : String) (c : ConstVal) :
    containsSublink (keyLookup rv key c).toValue = false := by
  simp [containsSublink, containsNode, keyLookup, SelectStmt.toValue, Value.containsKey, membersContainKey,
    itemsContainKey, nodesToValue, nodeToValue, NodeEnum.toValue, AExpr.toValue, AConst.toValue,
    RangeVar.toValue, optionRangeVar, optionSelect, optionWithClause, ConstVal.toValue_noSublink,
    optionAlias_noSublink]

theorem keyLookup_unknownRelation (key : String) (c : ConstVal)
    (found : resolvesTable vschema rv.schemaname rv.relname = true) :
    unknownRelation (keyLookup rv key c).toValue vschema = none := by
  simp [unknownRelation, findUnresolvedRelation, keyLookup, SelectStmt.toValue, unresolvedIn,
    unresolvedInMembers, unresolvedInItems, nodesToValue, nodeToValue, NodeEnum.toValue, AExpr.toValue,
    AConst.toValue, RangeVar.toValue, optionRangeVar, optionSelect, optionWithClause, Value.get,
    Value.isObject, Value.asStr, unresolvedRangeVar, Option.filter, ConstVal.toValue_unresolved]
  simpa using found

theorem resolvesTable_sharded {shardFn : String}
    {keyType : Option ScalarType} {sequences : List SequenceBinding}
    (sharded : vschema.get (rangeVarTable rv) = some (.sharded key keyType shardFn sequences)) :
    resolvesTable vschema rv.schemaname rv.relname = true := by
  have placed : placement vschema (rangeVarTable rv) ≠ .unknown := by
    rw [placement_sharded sharded]
    exact nofun
  simp only [resolvesTable, Bool.or_eq_true, decide_eq_true_eq]
  exact .inr placed

theorem plan_keyLookup {xxh64 : Xxh64} {shards : ShardCatalog}
    {shardFn : String} {keyType : Option ScalarType} {sequences : List SequenceBinding} {c : ConstVal}
    {v k : ScalarValue}
    (sharded : vschema.get (rangeVarTable rv) = some (.sharded key keyType shardFn sequences))
    (read : scalarFromConst ⟨false, some c⟩ = some v) (canonical : canonicalKey keyType v = some k) :
    plan xxh64 .select (.selectStmt (keyLookup rv key c)) vschema shards =
      .singleShard (shards.route (xxh64.v1.keyspaceId k)) := by
  have single : ([rangeVarTable rv].map (placement vschema)).filter Placement.isSharded =
      [.sharded key keyType shardFn (VSchema.shardFunction_known sharded)] := by
    simp [placement_sharded sharded, Placement.isSharded]
  have values : whereKeyValues (keyLookup rv key c).whereClause key = [.const v] := by
    simp [whereKeyValues, keyLookup, collectAnd, collectAExpr, isEqOperator, isKeyColumn, columnName, keyVal, read]
  have routed : routeValues xxh64 [.const v] keyType shardFn (VSchema.shardFunction_known sharded) shards =
      .shards [shards.route (xxh64.v1.keyspaceId k)] := by
    simp [routeValues, KeyVal.param?, KeyVal.isConst, routeConsts, keyId, canonical, insertShard,
      List.filterMap_cons]
  have clause : analyzeFrom (keyLookup rv key c).fromClause = ⟨[rangeVarTable rv], true⟩ := rfl
  simp only [plan, planSelect, keyLookup_unknownRelation key c (resolvesTable_sharded sharded),
    keyLookup_containsSublink, clause, single, values, routed]
  rfl

/-- A backend that compares coerced key values, on which every expression it
does not read has the value `v`. -/
def comparingBackend (keyType : Option ScalarType) (v : ScalarValue) : Backend where
  Datum := ScalarValue
  shardKey := some
  literal c := (scalarFromConst ⟨false, some c⟩).getD v
  bound := id
  equals _ _ d e := .ok (some (canonicalKey keyType d == canonicalKey keyType e))
  scalar _ _ := .ok (some v)
  predicate _ _ := .ok none

section

variable {keyType : Option ScalarType} {v : ScalarValue} {t : FromTable} {params : List ScalarValue}

theorem evalScalar_of_refersTo {b : Backend} {row : b.Row} {i : Nat} {node : NodeEnum}
    (refers : t.refersTo i node) : evalScalar b t params row node = .ok (row i) := by
  cases node with
  | columnRef fields =>
    obtain ⟨name, last, qualified, resolved⟩ := refers
    simp [evalScalar, evalColumn, last, qualified, resolved]
  | _ => exact refers.elim

theorem comparingBackend_operand {row : (comparingBackend keyType v).Row} {operand : NodeEnum} {kv : KeyVal}
    {w : ScalarValue} (read : keyVal operand = some kv) (value : kv.value params = some w) :
    evalScalar (comparingBackend keyType v) t params row operand = .ok (some w) := by
  cases operand with
  | aConst c =>
    obtain ⟨u, constant, rfl⟩ := Option.map_eq_some_iff.mp read
    cases value
    obtain ⟨isnull, val⟩ := c
    cases isnull with
    | true => simp [scalarFromConst] at constant
    | false =>
      cases val with
      | none => simp [scalarFromConst] at constant
      | some cv => simp [evalScalar, comparingBackend, constant]
  | paramRef number =>
    simp only [keyVal] at read
    split at read
    · cases read
      simp only [KeyVal.value] at value
      simp [evalScalar, value, comparingBackend]
    · cases read
  | _ => simp [keyVal] at read

theorem comparingBackend_rowKey {row : (comparingBackend keyType v).Row} {d : ScalarValue}
    (cell : row t.keyIndex = some d) :
    rowKey (comparingBackend keyType v) t row keyType = canonicalKey keyType d := by
  unfold rowKey
  rw [cell]
  rfl

theorem comparingBackend_keyEquality : (comparingBackend keyType v).KeyEquality t params keyType where
  left := by
    intro column operand kv w key row refers read value canonical holds
    simp only [evalEquals, evalScalar_of_refersTo refers, comparingBackend_operand read value] at holds
    cases cell : row t.keyIndex with
    | none => simp [cell, bind, Except.bind] at holds
    | some d =>
      have same : canonicalKey keyType d = canonicalKey keyType w := by
        simpa [cell, bind, Except.bind, comparingBackend] using holds
      rw [comparingBackend_rowKey cell, same, canonical]
  right := by
    intro column operand kv w key row refers read value canonical holds
    simp only [evalEquals, evalScalar_of_refersTo refers, comparingBackend_operand read value] at holds
    cases cell : row t.keyIndex with
    | none => simp [cell, bind, Except.bind] at holds
    | some d =>
      have same : canonicalKey keyType w = canonicalKey keyType d := by
        simpa [cell, bind, Except.bind, comparingBackend] using holds
      rw [comparingBackend_rowKey cell, ← same, canonical]

theorem exists_misread_row (lost : ¬ t.KeepsKey key) (keyType : Option ScalarType)
    (params : List ScalarValue) (v w : ScalarValue) :
    ∃ row : (comparingBackend keyType v).Row, row t.keyIndex = some w ∧
      evalScalar (comparingBackend keyType v) t params row (.columnRef [some (.string key)]) = .ok (some v) := by
  obtain ⟨elsewhere, single⟩ := not_or.mp lost
  have last : columnName [some (.string key)] = some key := rfl
  have qualified : t.answersTo ([some (.string key)] : List Node).dropLast = true := by
    simp [FromTable.answersTo]
  cases found : t.visibleColumns.idxOf? key with
  | none =>
    refine ⟨fun _ => some w, rfl, ?_⟩
    simp only [evalScalar, evalColumn, last, qualified, FromTable.resolve, single, found, if_true, if_false]
    rfl
  | some i =>
    have apart : t.keyIndex ≠ i := by
      rintro rfl
      obtain ⟨bound, same, _⟩ := List.idxOf?_eq_some_iff.mp found
      exact elsewhere (by rw [List.getElem?_eq_getElem bound, same])
    refine ⟨fun j => if j = i then some v else some w, if_neg apart, ?_⟩
    simp only [evalScalar, evalColumn, last, qualified, FromTable.resolve, single, found, if_true, if_false]

end

theorem exists_separating_catalog {a b : KeyspaceId} (apart : a ≠ b) :
    ∃ shards : ShardCatalog, shards.route a ≠ shards.route b := by
  have positive : 0 < max a b := by
    rcases lt_or_gt_of_ne apart with below | above
    · exact lt_of_le_of_lt (Fin.zero_le a) (lt_of_lt_of_le below (le_max_right a b))
    · exact lt_of_le_of_lt (Fin.zero_le b) (lt_of_lt_of_le above (le_max_left a b))
  refine ⟨.split (max a b) positive ⟨"low"⟩ ⟨"high"⟩, ?_⟩
  rw [ShardCatalog.split_route, ShardCatalog.split_route]
  rcases lt_or_gt_of_ne apart with below | above
  · simp [max_eq_right below.le, below]
  · simp [max_eq_left above.le, above]

/-- A read of a sharded table never misses the owner of a matching row exactly
when the FROM alias leaves the shard key its name (or makes it ambiguous). -/
theorem select_covers_iff {xxh64 : Xxh64} {vschema : VSchema} {t : FromTable} {key shardFn : String}
    {keyType : Option ScalarType} {sequences : List SequenceBinding}
    (sharded : vschema.get (rangeVarTable t.rangeVar) = some (.sharded key keyType shardFn sequences))
    (separates : xxh64.Separates keyType) :
    NeverUnderRoutes xxh64 vschema t keyType ↔ t.KeepsKey key := by
  refine ⟨fun covered => ?_, neverUnderRoutes_of_keepsKey sharded⟩
  by_contra lost
  obtain ⟨c, d, v, w, k, l, readC, canonicalC, readD, canonicalD, apart⟩ := separates
  obtain ⟨shards, separated⟩ := exists_separating_catalog apart
  obtain ⟨row, ownCell, misread⟩ := exists_misread_row lost keyType [] v w
  have planned : (plan xxh64 .select (.selectStmt (keyLookup t.rangeVar key c)) vschema shards).boundShardSet
      xxh64 [] shards = some [shards.route (xxh64.v1.keyspaceId k)] := by
    rw [plan_keyLookup sharded readC canonicalC]
    rfl
  have readable : keyVal (.aConst ⟨false, some c⟩) = some (.const v) := by simp [keyVal, readC]
  have literal : evalScalar (comparingBackend keyType v) t [] row (.aConst ⟨false, some c⟩) = .ok (some v) :=
    comparingBackend_operand readable rfl
  have holds : satisfies (comparingBackend keyType v) t [] row (keyLookup t.rangeVar key c).whereClause := by
    simp only [satisfies, keyLookup, evalBool, evalAExpr, isEqOperator, beq_self_eq_true, if_true, evalEquals,
      misread, literal]
    simp [bind, Except.bind, comparingBackend]
  have own : rowKey (comparingBackend keyType v) t row keyType = some l := by
    rw [comparingBackend_rowKey ownCell, canonicalD]
  have owner := covered _ [] shards .select _ _ row l comparingBackend_keyEquality rfl planned holds own
  exact separated (List.mem_singleton.mp owner).symm

/-- A hash with the published values of the integer keys 0 and 1. -/
def goldenXxh64 : Xxh64 where
  hash bytes :=
    if bytes = i64BeBytes 0 then 0x34c96acdcadb1bbb
    else if bytes = i64BeBytes 1 then 0x9f1ffc793b8a47da
    else 0

theorem goldenXxh64_separates : goldenXxh64.Separates (some .int) :=
  ⟨.ival 0, .ival 1, .int64 0, .int64 1, .int64 0, .int64 1, by decide, by decide, by decide, by decide, by decide⟩

def ordersSchema : VSchema where
  tables := [(⟨"public", "orders"⟩, .sharded "customer_id" (some .int) "xxhash64_v1" [])]
  checked := by decide

def ordersAs (colnames : List String) (fits : colnames.length ≤ 2) : FromTable where
  rangeVar := ⟨"", "", "orders", some ⟨"o", colnames⟩⟩
  columns := ["customer_id", "id"]
  keyIndex := 0
  keyBound := by decide
  distinct := by decide
  aliasFits := fits

def halves : ShardCatalog := .split 0x8000000000000000 (by decide) ⟨"-80"⟩ ⟨"80-"⟩

theorem select_covers_orders : NeverUnderRoutes goldenXxh64 ordersSchema (ordersAs [] (by decide)) (some .int) :=
  (select_covers_iff rfl goldenXxh64_separates).mpr (by decide)

/-- `SELECT * FROM orders AS o(id, customer_id) WHERE customer_id = 0` is sent
to one shard only, and a row that it matches lives on the other. -/
theorem select_misses_renamed_key :
    let t := ordersAs ["id", "customer_id"] (by decide)
    let s := keyLookup t.rangeVar "customer_id" (.ival 0)
    let b := comparingBackend (some .int) (.int64 0)
    let row : b.Row := fun i => if i = 0 then some (.int64 1) else some (.int64 0)
    b.KeyEquality t [] (some .int) ∧
      plan goldenXxh64 .select (.selectStmt s) ordersSchema halves = .singleShard ⟨"-80"⟩ ∧
      satisfies b t [] row s.whereClause ∧ rowKey b t row (some .int) = some (.int64 1) ∧
      halves.route (goldenXxh64.v1.keyspaceId (.int64 1)) = ⟨"80-"⟩ := by
  refine ⟨comparingBackend_keyEquality, ?_, ?_, ?_, ?_⟩
  · rw [plan_keyLookup (v := .int64 0) (k := .int64 0) rfl (by decide) (by decide)]
    rw [halves, ShardCatalog.split_route]
    decide
  · rfl
  · decide
  · rw [halves, ShardCatalog.split_route]
    decide

end PgShard
