import PgShard.Lib.Checked
import PgShard.Plan.Scopes

/-! Columns of an INSERT that are bound to a global sequence and left out by the client. -/

namespace PgShard

structure SequenceInjection where
  column : String
  sequence : String
  deriving DecidableEq

/-- One column to splice into an INSERT, with an id for each `VALUES` row. -/
structure InjectedColumn where
  column : String
  ids : List Int64
  deriving DecidableEq

inductive RewriteError
  | notInjectable
  | rowCountMismatch (column : String) (ids rows : Nat)
  | deparse (message : String)
  deriving DecidableEq

def hasValueRows (ins : InsertStmt) : Bool :=
  match ins.selectStmt with
  | some (.selectStmt s) => !s.valuesLists.isEmpty
  | _ => false

def targetName : Node → Option String
  | some (.resTarget name _ _) => some name
  | _ => none

def InsertStmt.listed (ins : InsertStmt) : List String :=
  ins.cols.filterMap targetName

def insertSequenceInjections (node : NodeEnum) (vschema : VSchema) : List SequenceInjection :=
  match node with
  | .insertStmt ins =>
    match ins.relation with
    | none => []
    | some rv =>
      match vschema.get (rangeVarTable rv) with
      | some (.sharded _ _ _ sequences) =>
        if sequences.isEmpty || !hasValueRows ins then []
        else if ins.listed.isEmpty then []
        else (sequences.filter fun b => b.column ∉ ins.listed).map fun b => ⟨b.column, b.sequence⟩
      | _ => []
  | _ => []

def resTarget (name : String) : Node :=
  some (.resTarget name [] none)

def intConst (id : Int64) : Node :=
  some (.aConst ⟨false, some (.fval (toString id))⟩)

def pushCells : List Node → List Int64 → Except RewriteError (List Node)
  | some (.list items) :: rows, id :: ids => do
    let rows ← pushCells rows ids
    .ok (some (.list (items ++ [intConst id])) :: rows)
  | _ :: _, _ :: _ => .error .notInjectable
  | rows, _ => .ok rows

def spliceColumns : List InjectedColumn → List Node → List Node → Except RewriteError (List Node × List Node)
  | [], cols, rows => .ok (cols, rows)
  | c :: rest, cols, rows => do
    let rows ← pushCells rows c.ids
    spliceColumns rest (cols ++ [resTarget c.column]) rows

/-- Adds the injected columns to the one INSERT, and writes it out. -/
def rewriteInsert (deparse : List Node → Except String String) (stmts : List Node) (injected : List InjectedColumn) :
    Except RewriteError String :=
  match stmts with
  | [some (.insertStmt ins)] =>
    match ins.selectStmt with
    | some (.selectStmt sel) =>
      if sel.valuesLists.length = 0 then .error .notInjectable
      else
        match injected.find? fun c => c.ids.length ≠ sel.valuesLists.length with
        | some c => .error (.rowCountMismatch c.column c.ids.length sel.valuesLists.length)
        | none => do
          let (cols, rows) ← spliceColumns injected ins.cols sel.valuesLists
          (deparse [some (.insertStmt { ins with
            cols, selectStmt := some (.selectStmt { sel with valuesLists := rows }) })]).mapError .deparse
    | _ => .error .notInjectable
  | _ => .error .notInjectable

/-! ## The statement it writes -/

def appendCells (cells : List Node) : Node → Node
  | some (.list items) => some (.list (items ++ cells))
  | row => row

def injectedCells (injected : List InjectedColumn) (i : Nat) : List Node :=
  injected.map fun c => intConst (c.ids.getD i 0)

/-- The INSERT with the injected columns at the end of its list and of its rows. -/
def InsertStmt.inject (ins : InsertStmt) (sel : SelectStmt) (injected : List InjectedColumn) : InsertStmt :=
  { ins with
    cols := ins.cols ++ injected.map (resTarget ·.column)
    selectStmt := some (.selectStmt { sel with
      valuesLists := sel.valuesLists.mapIdx fun i => appendCells (injectedCells injected i) }) }

/-- One INSERT of `VALUES` rows, with an id of each injected column for every row. -/
structure Injectable (ins : InsertStmt) (sel : SelectStmt) (injected : List InjectedColumn) : Prop where
  source : ins.selectStmt = some (.selectStmt sel)
  nonempty : sel.valuesLists ≠ []
  counted : ∀ c ∈ injected, c.ids.length = sel.valuesLists.length
  lists : injected ≠ [] → ∀ row ∈ sel.valuesLists, ∃ items, row = some (.list items)

section Splice

variable {rows rows' cols cols' : List Node} {ids : List Int64} {injected : List InjectedColumn}

theorem pushCells_ok (counted : ids.length = rows.length) (pushed : pushCells rows ids = .ok rows') :
    (∀ row ∈ rows, ∃ items, row = some (.list items)) ∧
      rows' = rows.mapIdx fun i => appendCells [intConst (ids.getD i 0)] := by
  induction rows generalizing ids rows' with
  | nil =>
    cases pushed
    exact ⟨nofun, rfl⟩
  | cons row rows ih =>
    cases ids with
    | nil => cases counted
    | cons id ids =>
      unfold pushCells at pushed
      split at pushed
      · rename_i items _ _ _ heads tails
        cases heads
        cases tails
        obtain ⟨pushedRows, later, same⟩ := Checked.bind_ok pushed
        cases same
        obtain ⟨lists, rfl⟩ := ih (Nat.succ.inj counted) later
        exact ⟨List.forall_mem_cons.mpr ⟨⟨items, rfl⟩, lists⟩, by simp [List.mapIdx_cons, appendCells]⟩
      · cases pushed
      · rename_i heads _ short
        exact absurd rfl (short _ _ _ _ rfl)

theorem appendCells_appendCells (a b : List Node) (row : Node) :
    appendCells b (appendCells a row) = appendCells (a ++ b) row := by
  fun_cases appendCells a row with
  | case1 items | case2 other => simp [appendCells]

theorem spliceColumns_ok (counted : ∀ c ∈ injected, c.ids.length = rows.length)
    (spliced : spliceColumns injected cols rows = .ok (cols', rows')) :
    (injected ≠ [] → ∀ row ∈ rows, ∃ items, row = some (.list items)) ∧
      cols' = cols ++ injected.map (resTarget ·.column) ∧
      rows' = rows.mapIdx fun i => appendCells (injectedCells injected i) := by
  induction injected generalizing cols rows with
  | nil =>
    cases spliced
    refine ⟨fun none => absurd rfl none, by simp, ?_⟩
    refine (List.ext_getElem (by simp) fun i _ _ => ?_)
    simp only [List.getElem_mapIdx, injectedCells, List.map_nil]
    unfold appendCells
    split <;> simp_all
  | cons c rest ih =>
    obtain ⟨own, others⟩ := List.forall_mem_cons.mp counted
    obtain ⟨pushed, push, later⟩ := Checked.bind_ok spliced
    obtain ⟨lists, rfl⟩ := pushCells_ok own push
    obtain ⟨_, rfl, rfl⟩ := ih (fun d member => (others d member).trans (by simp)) later
    refine ⟨fun _ => lists, by simp, ?_⟩
    simp only [List.mapIdx_mapIdx]
    refine congrArg (List.mapIdx · rows) (funext fun i => funext fun row => ?_)
    exact appendCells_appendCells _ _ row

end Splice

variable {deparse : List Node → Except String String} {stmts : List Node} {injected : List InjectedColumn} {sql : String}

theorem rewriteInsert_ok (rewritten : rewriteInsert deparse stmts injected = .ok sql) :
    ∃ ins sel, stmts = [some (.insertStmt ins)] ∧ Injectable ins sel injected ∧
      deparse [some (.insertStmt (ins.inject sel injected))] = .ok sql := by
  unfold rewriteInsert at rewritten
  split at rewritten
  · rename_i ins
    split at rewritten
    · rename_i sel source
      split_ifs at rewritten with empty
      split at rewritten
      · cases rewritten
      · rename_i counted
        have counted : ∀ c ∈ injected, c.ids.length = sel.valuesLists.length := by simpa using counted
        obtain ⟨⟨cols, rows⟩, spliced, written⟩ := Checked.bind_ok rewritten
        obtain ⟨lists, rfl, rfl⟩ := spliceColumns_ok counted spliced
        refine ⟨ins, sel, rfl, ⟨source, fun none => empty (by simp [none]), counted, lists⟩, ?_⟩
        have written : (deparse [some (.insertStmt (ins.inject sel injected))]).mapError _ = .ok sql := written
        cases wrote : deparse [some (.insertStmt (ins.inject sel injected))] with
        | error e =>
          rw [wrote] at written
          cases written
        | ok text =>
          rw [wrote] at written
          exact congrArg _ (Except.ok.inj written)
    · cases rewritten
  · cases rewritten

/-! ## What it leaves as it was -/

variable {ins : InsertStmt} {sel : SelectStmt} {vschema : VSchema}

/-- The INSERT goes to a table with this shard key and these bindings. -/
def InsertsInto (vschema : VSchema) (ins : InsertStmt) (key : String) (sequences : List SequenceBinding) : Prop :=
  ∃ rv keyType fn, ins.relation = some rv ∧ vschema.get (rangeVarTable rv) = some (.sharded key keyType fn sequences)

/-- A column that the schema binds and the INSERT omits. -/
def Omits (vschema : VSchema) (ins : InsertStmt) (column : String) : Prop :=
  column ∉ ins.listed ∧ ∃ key sequences, InsertsInto vschema ins key sequences ∧ column ∈ sequences.map (·.column)

theorem insertSequenceInjections_spec (rows : hasValueRows ins = true) (columns : ins.listed ≠ []) :
    ((insertSequenceInjections (.insertStmt ins) vschema).map (·.column)).Nodup ∧
      ∀ column, column ∈ (insertSequenceInjections (.insertStmt ins) vschema).map (·.column) ↔
        Omits vschema ins column := by
  unfold Omits InsertsInto
  simp only [insertSequenceInjections, rows]
  split
  · rename_i none
    simp [none]
  rename_i rv relation
  split
  · rename_i key keyType fn sequences found
    have distinct := (TableDef.check_sharded_iff.mp (VSchema.get_checked found)).2.2
    simp only [Bool.not_true, Bool.or_false, List.isEmpty_iff, columns, if_false, relation]
    have bound : ∀ column, (∃ key sequences, (∃ rv' keyType fn, some rv = some rv' ∧
        vschema.get (rangeVarTable rv') = some (.sharded key keyType fn sequences)) ∧
        column ∈ sequences.map (·.column)) ↔ column ∈ sequences.map (·.column) := by
      refine fun column => ⟨?_, fun member => ⟨key, sequences, ⟨rv, keyType, fn, rfl, found⟩, member⟩⟩
      rintro ⟨_, _, ⟨_, _, _, ⟨⟩, found'⟩, member⟩
      cases found.symm.trans found'
      exact member
    simp only [bound]
    split_ifs with none
    · simp [none]
    · rw [List.map_map]
      refine ⟨(List.filter_sublist.map _).nodup distinct, fun column => ?_⟩
      simp only [List.mem_map, List.mem_filter, Function.comp_apply, decide_eq_true_eq]
      constructor
      · rintro ⟨b, ⟨member, omitted⟩, rfl⟩
        exact ⟨omitted, b, member, rfl⟩
      · rintro ⟨omitted, b, member, rfl⟩
        exact ⟨b, ⟨member, omitted⟩, rfl⟩
  · rename_i unsharded
    refine ⟨.nil, fun column => ⟨nofun, ?_⟩⟩
    rintro ⟨_, key, sequences, ⟨rv', keyType, fn, same, found⟩, _⟩
    cases relation.symm.trans same
    exact absurd found (unsharded key keyType fn sequences)

theorem map_mapIdx_eq {α β : Type} {l : List α} {f : Nat → α → α} {g : α → β}
    (same : ∀ i, ∀ a ∈ l, g (f i a) = g a) : (l.mapIdx f).map g = l.map g := by
  refine List.ext_getElem (by simp) fun i bound _ => ?_
  simp only [List.getElem_map, List.getElem_mapIdx]
  exact same i _ (List.getElem_mem _)

/-- A row that gives a key value reaches the key's cell, so that nothing is pushed into it. -/
theorem insertKeyValues_inject {key : String} {values : List KeyVal} (source : ins.selectStmt = some (.selectStmt sel))
    (given : insertKeyValues ins key = some values) : insertKeyValues (ins.inject sel injected) key = some values := by
  simp only [insertKeyValues, source] at given
  simp only [insertKeyValues, InsertStmt.inject, List.findIdx?_append]
  cases found : ins.cols.findIdx? (isColumnTarget key) with
  | none => simp [found] at given
  | some idx =>
    simp only [found] at given
    split_ifs at given with empty
    have rows : (sel.valuesLists.mapIdx fun i => appendCells (injectedCells injected i)).map (rowKeyValue idx) =
        sel.valuesLists.map (rowKeyValue idx) := by
      refine map_mapIdx_eq fun i row member => ?_
      obtain ⟨v, -, own⟩ := Checked.exists_of_forall₂ (Checked.forall₂_of_mapM given) member
      fun_cases appendCells (injectedCells injected i) row with
      | case1 items =>
        obtain ⟨cell, read, -⟩ := Option.bind_eq_some_iff.mp own
        simp only [rowKeyValue, List.getElem?_append_left (List.getElem?_eq_some_iff.mp read).1]
      | case2 => rfl
    have mapped := congrArg (List.mapM (m := Option) id) rows
    rw [List.mapM_map, List.mapM_map] at mapped
    simp only [Option.some_or, List.isEmpty_iff, List.mapIdx_eq_nil_iff] at empty ⊢
    rw [if_neg empty]
    exact mapped.trans given

theorem itemsContainKey_eq_any (key : String) (items : List Value) :
    itemsContainKey key items = items.any (·.containsKey key) := by
  induction items with
  | nil => rfl
  | cons v rest ih => rw [itemsContainKey, ih, List.any_cons]

theorem containsSublink_inject (source : ins.selectStmt = some (.selectStmt sel)) :
    containsSublink (ins.inject sel injected).toValue = containsSublink ins.toValue := by
  have names : (injected.map (resTarget ·.column)).any (fun n => (nodeToValue n).containsKey "SubLink") = false := by
    simp [resTarget, nodeToValue, NodeEnum.toValue, Value.containsKey, membersContainKey, nodesToValue, itemsContainKey]
  have cells : ∀ i, (injectedCells injected i).any (fun n => (nodeToValue n).containsKey "SubLink") = false := by
    simp [injectedCells, intConst, nodeToValue, NodeEnum.toValue, AConst.toValue, ConstVal.toValue, Value.containsKey,
      membersContainKey]
  have rows : (sel.valuesLists.mapIdx fun i => appendCells (injectedCells injected i)).map
      (fun n => (nodeToValue n).containsKey "SubLink") =
        sel.valuesLists.map fun n => (nodeToValue n).containsKey "SubLink" := by
    refine map_mapIdx_eq fun i row _ => ?_
    fun_cases appendCells (injectedCells injected i) row with
    | case1 items =>
      simp only [nodeToValue, NodeEnum.toValue, Value.containsKey, membersContainKey, itemsContainKey_eq_any, nodesToValue_eq_map,
        List.any_map, List.any_append, List.any_cons, Function.comp_def, cells, Bool.or_false]
    | case2 => rfl
  have any := congrArg (List.any · id) rows
  simp only [List.any_map, Function.comp_def, id] at any
  obtain ⟨relation, cols, selectStmt, onConflictClause, returningList, withClause⟩ := ins
  obtain rfl : selectStmt = _ := source
  obtain ⟨⟩ := sel
  simp only [InsertStmt.inject, containsSublink, containsNode, InsertStmt.toValue, SelectStmt.toValue, nodeToValue,
    NodeEnum.toValue, Value.containsKey, membersContainKey, itemsContainKey_eq_any, nodesToValue_eq_map, List.any_map,
    List.any_append, List.any_cons, List.map_append, Function.comp_def]
  simp only [List.any_map, Function.comp_def] at names
  simp only [names, any, Bool.or_false]

theorem get_of_placement {table : TableName} {key fn : String} {keyType : Option ScalarType} {known : fn = "xxhash64_v1"}
    (placed : placement vschema table = .sharded key keyType fn known) :
    ∃ sequences, vschema.get table = some (.sharded key keyType fn sequences) := by
  unfold placement at placed
  split at placed
  · rename_i sequences found
    cases placed
    exact ⟨sequences, found⟩
  · cases placed
  · cases placed

/-- The planner takes the statement. -/
def Routes (xxh64 : Xxh64) (ins : InsertStmt) (vschema : VSchema) (shards : ShardCatalog) : Prop :=
  ∀ code reason, plan xxh64 .insert (.insertStmt ins) vschema shards ≠ .reject code reason

section Routed

variable {xxh64 : Xxh64} {shards : ShardCatalog} (source : ins.selectStmt = some (.selectStmt sel))
  (routed : Routes xxh64 ins vschema shards)
include routed

theorem Routes.key {key : String} {sequences : List SequenceBinding} (into : InsertsInto vschema ins key sequences) :
    ∃ values, insertKeyValues ins key = some values := by
  obtain ⟨rv, keyType, fn, relation, found⟩ := into
  refine Option.ne_none_iff_exists'.mp fun none => ?_
  simp only [Routes, plan, planInsert, relation] at routed
  split_ifs at routed
  · exact routed _ _ rfl
  · exact routed _ _ rfl
  split at routed
  · rename_i global
    unfold placement at global
    split at global <;> simp_all
  · exact routed _ _ rfl
  · rename_i placed
    obtain ⟨_, found'⟩ := get_of_placement placed
    cases found.symm.trans found'
    split at routed
    · rename_i rejection rejected
      simp only [onConflictRejection] at rejected
      split at rejected
      · cases rejected
      · split_ifs at rejected <;> cases rejected <;> exact routed _ _ rfl
    · rw [none] at routed
      exact routed _ _ rfl

include source

theorem plan_inject : plan xxh64 .insert (.insertStmt (ins.inject sel injected)) vschema shards =
    plan xxh64 .insert (.insertStmt ins) vschema shards := by
  simp only [plan, planInsert]
  rw [containsSublink_inject source]
  simp only [show (ins.inject sel injected).relation = ins.relation from rfl,
    show (ins.inject sel injected).withClause = ins.withClause from rfl,
    show (ins.inject sel injected).onConflictClause = ins.onConflictClause from rfl]
  split
  · rfl
  rename_i rv relation
  split_ifs
  · rfl
  · rfl
  split
  · rfl
  · rfl
  · rename_i key keyType fn known placed
    obtain ⟨sequences, found⟩ := get_of_placement placed
    obtain ⟨values, given⟩ := routed.key ⟨rv, keyType, fn, relation, found⟩
    rw [given, insertKeyValues_inject source given]

end Routed

/-- An INSERT that is rewritten keeps its columns and cells where they are, and gains each omitted column once, at the
end, with id `i` of it in row `i`. One that the planner takes keeps its key values and its plan. Any other shape, and any
other number of ids, is an error. -/
theorem injection_preserves_insert {parse : String → Option (List Node)}
    (identity : ∀ tree sql, deparse tree = .ok sql → parse sql = some tree) (columns : ins.listed ≠ [])
    (asked : injected.map (·.column) = (insertSequenceInjections (.insertStmt ins) vschema).map (·.column)) :
    (∀ sql, rewriteInsert deparse [some (.insertStmt ins)] injected = .ok sql →
      ∃ sel, Injectable ins sel injected ∧ parse sql = some [some (.insertStmt (ins.inject sel injected))] ∧
        (injected.map (·.column)).Nodup ∧ (∀ column, column ∈ injected.map (·.column) ↔ Omits vschema ins column) ∧
        (∀ items i, (items ++ injectedCells injected i).length = (ins.inject sel injected).cols.length ↔
          items.length = ins.cols.length) ∧
        ∀ xxh64 shards, Routes xxh64 ins vschema shards →
          (∀ key sequences, InsertsInto vschema ins key sequences →
            insertKeyValues (ins.inject sel injected) key = insertKeyValues ins key) ∧
          plan xxh64 .insert (.insertStmt (ins.inject sel injected)) vschema shards =
            plan xxh64 .insert (.insertStmt ins) vschema shards) ∧
    ∀ stmts injected, (∀ ins sel, stmts = [some (.insertStmt ins)] → ¬ Injectable ins sel injected) →
      ∃ e, rewriteInsert deparse stmts injected = .error e := by
  constructor
  · intro sql rewritten
    obtain ⟨_, sel, ⟨⟩, shape, written⟩ := rewriteInsert_ok rewritten
    have rows : hasValueRows ins = true := by
      simpa [hasValueRows, shape.source] using shape.nonempty
    obtain ⟨once, omitted⟩ := @insertSequenceInjections_spec ins vschema rows columns
    rw [← asked] at once omitted
    refine ⟨sel, shape, identity _ _ written, once, omitted, fun items i => by simp [InsertStmt.inject, injectedCells],
      fun xxh64 shards routed => ⟨fun key sequences into => ?_, plan_inject shape.source routed⟩⟩
    obtain ⟨values, given⟩ := routed.key into
    rw [given, insertKeyValues_inject shape.source given]
  · intro stmts injected mismatch
    cases rewritten : rewriteInsert deparse stmts injected with
    | error e => exact ⟨e, rfl⟩
    | ok sql =>
      obtain ⟨ins, sel, shape, injectable, _⟩ := rewriteInsert_ok rewritten
      exact absurd injectable (mismatch ins sel shape)

def valueRows (rows : List (List Int32)) : SelectStmt :=
  { selectFrom none [] with
    targetList := []
    valuesLists := rows.map fun row => some (.list (row.map fun v => some (.aConst ⟨false, some (.ival v)⟩))) }

def ordersInsert (columns : List String) (rows : List (List Int32)) : InsertStmt :=
  ⟨some ⟨"", "", "orders", none⟩, columns.map resTarget, some (.selectStmt (valueRows rows)), none, [], none⟩

def sequencedOrders : VSchema :=
  ⟨[(⟨"public", "orders"⟩, .sharded "customer_id" none "xxhash64_v1" [⟨"id", "orders_id"⟩])], by decide⟩

theorem injection_preserves_insert_orders :
    let ins := ordersInsert ["customer_id"] [[5], [6]]
    let injected : List InjectedColumn := [⟨"id", [70, 71]⟩]
    ∃ (deparse : List Node → Except String String) (sel : SelectStmt),
      rewriteInsert deparse [some (.insertStmt ins)] injected = .ok "" ∧
      Routes ⟨fun _ => 0⟩ ins sequencedOrders halves ∧
      insertKeyValues (ins.inject sel injected) "customer_id" = some [.const (.int64 5), .const (.int64 6)] := by
  intro ins injected
  classical
  let tree : List Node := [some (.insertStmt (ins.inject (valueRows [[5], [6]]) injected))]
  let deparse : List Node → Except String String := fun t => if t = tree then .ok "" else .error ""
  have identity : ∀ t sql, deparse t = .ok sql → (fun _ => some tree : String → Option (List Node)) sql = some t := by
    intro t sql written
    by_cases same : t = tree
    · rw [same]
    · simp [deparse, same] at written
  have rewritten : rewriteInsert deparse [some (.insertStmt ins)] injected = .ok "" := by
    show (deparse tree).mapError RewriteError.deparse = _
    simp only [deparse, if_true]
    rfl
  have routed : Routes ⟨fun _ => 0⟩ ins sequencedOrders halves := by
    have single : plan ⟨fun _ => 0⟩ .insert (.insertStmt ins) sequencedOrders halves = .singleShard ⟨"-80"⟩ := by decide +kernel
    simp [Routes, single]
  obtain ⟨sel, -, -, -, -, -, planned⟩ :=
    (@injection_preserves_insert deparse injected ins sequencedOrders _ identity (by decide) (by decide)).1 "" rewritten
  exact ⟨deparse, sel, rewritten, routed, (planned _ _ routed).1 _ _ ⟨_, _, _, rfl, rfl⟩⟩

/-- A row that ends before the shard key's cell: the id of another column is pushed into that cell. -/
theorem short_row_gains_key :
    let ins := ordersInsert ["note", "customer_id"] [[1]]
    let injected : List InjectedColumn := [⟨"id", [7]⟩]
    insertSequenceInjections (.insertStmt ins) sequencedOrders = [⟨"id", "orders_id"⟩] ∧
      (∀ deparse, rewriteInsert deparse [some (.insertStmt ins)] injected =
        (deparse [some (.insertStmt (ins.inject (valueRows [[1]]) injected))]).mapError .deparse) ∧
      insertKeyValues ins "customer_id" = none ∧
      insertKeyValues (ins.inject (valueRows [[1]]) injected) "customer_id" = some [.const (.int64 7)] := by
  refine ⟨by decide, fun deparse => rfl, by decide, by decide⟩

end PgShard
