import PgShard.Plan.RenamedKey

/-! Which relation a table reference means to PostgreSQL, and to the planner's walk over the serialised tree. -/

namespace PgShard

variable {members : List (String × Value)}

/-- The common table expressions in scope, the innermost first. -/
abbrev CteScope := List (String × Node)

def cteEntry : Node → Option (String × Node)
  | some (.commonTableExpr name query) => some (name, query)
  | _ => none

namespace WithClause

def scope (w : WithClause) (outer : CteScope) : CteScope :=
  w.ctes.filterMap cteEntry ++ outer

/-- What the body behind the expressions `before` sees: the earlier siblings, or all of them under RECURSIVE. -/
def bodyScope (w : WithClause) (outer : CteScope) (before : List Node) : CteScope :=
  if w.recursive then w.scope outer else before.filterMap cteEntry ++ outer

end WithClause

namespace SelectStmt

def scope (s : SelectStmt) (outer : CteScope) : CteScope :=
  match s.withClause with
  | none => outer
  | some w => w.scope outer

/-- The nodes of every clause, apart from the WITH clause and the arms of a set operation. -/
def clauses (s : SelectStmt) : List Node :=
  s.distinctClause ++ s.targetList ++ s.fromClause ++ s.groupClause ++ s.windowClause ++ s.valuesLists ++
    s.sortClause ++ s.lockingClause ++ [s.whereClause, s.havingClause, s.limitOffset, s.limitCount]

end SelectStmt

/-- The nodes directly below one that opens no scope. Statements that modify data are not entered. -/
def NodeEnum.children : NodeEnum → List Node
  | .columnRef fields => fields
  | .aExpr e => e.lexpr :: e.rexpr :: e.name
  | .boolExpr _ args => args
  | .list items => items
  | .subLink testexpr subselect => [testexpr, subselect]
  | .typeCast arg typeName => [arg, typeName]
  | .resTarget _ indirection val => val :: indirection
  | .multiAssignRef source _ _ => [source]
  | .joinExpr larg rarg quals _ => [larg, rarg, quals]
  | .rangeSubselect _ subquery _ => [subquery]
  | .sortBy node _ _ => [node]
  | .indexElem _ expr => [expr]
  | .commonTableExpr _ query => [query]
  | .other _ children => children
  | _ => []

/-- `Below outer node scope n`: the node `n` lies in `node`, which stands in the scope `outer`, and stands itself in
the scope `scope`. -/
inductive Below : CteScope → NodeEnum → CteScope → NodeEnum → Prop
  | here {scope : CteScope} {node : NodeEnum} : Below scope node scope node
  | child {outer scope : CteScope} {node child n : NodeEnum} :
      some child ∈ node.children → Below outer child scope n → Below outer node scope n
  | clause {outer scope : CteScope} {s : SelectStmt} {item n : NodeEnum} :
      some item ∈ s.clauses → Below (s.scope outer) item scope n → Below outer (.selectStmt s) scope n
  | larg {outer scope : CteScope} {s arm : SelectStmt} {n : NodeEnum} :
      s.larg = some arm → Below (s.scope outer) (.selectStmt arm) scope n → Below outer (.selectStmt s) scope n
  | rarg {outer scope : CteScope} {s arm : SelectStmt} {n : NodeEnum} :
      s.rarg = some arm → Below (s.scope outer) (.selectStmt arm) scope n → Below outer (.selectStmt s) scope n
  | cte {outer scope : CteScope} {s : SelectStmt} {w : WithClause} {before after : List Node} {cte n : NodeEnum} :
      s.withClause = some w → w.ctes = before ++ some cte :: after →
      Below (w.bodyScope outer before) cte scope n → Below outer (.selectStmt s) scope n

namespace NodeEnum

def withClause : NodeEnum → Option WithClause
  | .selectStmt s => s.withClause
  | .insertStmt s => s.withClause
  | .updateStmt s => s.withClause
  | .deleteStmt s => s.withClause
  | _ => none

def scope (node : NodeEnum) (outer : CteScope) : CteScope :=
  match node.withClause with
  | none => outer
  | some w => w.scope outer

def parts : NodeEnum → List Node
  | .selectStmt s => s.clauses ++ [s.larg.map .selectStmt, s.rarg.map .selectStmt]
  | .insertStmt s => s.cols ++ s.returningList ++ [s.selectStmt] ++
      (s.onConflictClause.elim [] fun o => o.whereClause :: o.targetList ++
        o.infer.elim [] fun i => i.whereClause :: i.indexElems)
  | .updateStmt s => s.targetList ++ s.fromClause ++ s.returningList ++ [s.whereClause]
  | .deleteStmt s => s.usingClause ++ s.returningList ++ [s.whereClause]
  | .utility _ children => children
  | node => node.children

def fromItems : NodeEnum → List Node
  | .selectStmt s => s.fromClause
  | .updateStmt s => s.fromClause
  | .deleteStmt s => s.usingClause
  | .utility .merge children => children
  | _ => []

end NodeEnum

/-- `Occurs outer node scope n`: the node `n` lies in `node`, which stands in the scope `outer`, at any place, and
stands itself in the scope `scope`. -/
inductive Occurs : CteScope → NodeEnum → CteScope → NodeEnum → Prop
  | here {scope : CteScope} {node : NodeEnum} : Occurs scope node scope node
  | part {outer scope : CteScope} {node part n : NodeEnum} :
      some part ∈ node.parts → Occurs (node.scope outer) part scope n → Occurs outer node scope n
  | cte {outer scope : CteScope} {w : WithClause} {before after : List Node} {node cte n : NodeEnum} :
      node.withClause = some w → w.ctes = before ++ some cte :: after →
      Occurs (w.bodyScope outer before) cte scope n → Occurs outer node scope n

/-- A table that a FROM list names, itself or under joins and TABLESAMPLE. -/
inductive InFrom : List Node → RangeVar → Prop
  | table {items : List Node} {rv : RangeVar} : some (.rangeVar rv) ∈ items → InFrom items rv
  | join {items : List Node} {larg rarg quals : Node} {a : Option Alias} {rv : RangeVar} :
      some (.joinExpr larg rarg quals a) ∈ items → InFrom [larg, rarg] rv → InFrom items rv
  | sample {items children : List Node} {rv : RangeVar} :
      some (.other "RangeTableSample" children) ∈ items → InFrom children rv → InFrom items rv

/-- The table reference stands in a FROM clause somewhere in the statement, in this scope. -/
def SelectStmt.RefersTo (s : SelectStmt) (scope : CteScope) (rv : RangeVar) : Prop :=
  ∃ outer t, Below [] (.selectStmt s) outer (.selectStmt t) ∧ scope = t.scope outer ∧ InFrom t.fromClause rv

/-- PostgreSQL takes the reference for a base relation: it is qualified, or no expression in scope has its name. -/
def RangeVar.IsBase (rv : RangeVar) (scope : CteScope) : Prop :=
  rv.schemaname ≠ "" ∨ scope.lookup rv.relname = none

/-- The reference names a configured table or, with its schema, a catalog relation. -/
def RangeVar.Known (rv : RangeVar) (vschema : VSchema) : Prop :=
  rv.schemaname = "pg_catalog" ∨ rv.schemaname = "information_schema" ∨
    (vschema.get (rangeVarTable rv)).isSome = true

/-! ## The walk over values -/

section Walk

variable {resolve : String → String → Bool} {visible : List String} {all : Option (List String)}

theorem unresolvedInItems_eq_none {items : List Value} :
    unresolvedInItems resolve visible items = none ↔ ∀ v ∈ items, unresolvedIn resolve visible v = none := by
  induction items with
  | nil => simp [unresolvedInItems]
  | cons v rest ih => simp [unresolvedInItems, Option.or_eq_none_iff, ih]

theorem unresolvedInMembers_eq_none {skip : Option String} :
    unresolvedInMembers resolve visible skip members = none ↔
      ∀ m ∈ members, some m.1 ≠ skip → unresolvedIn resolve visible m.2 = none := by
  induction members with
  | nil => simp [unresolvedInMembers]
  | cons m rest ih =>
    rw [unresolvedInMembers, Option.or_eq_none_iff, ih, List.forall_mem_cons]
    by_cases skipped : some m.1 = skip <;> simp [skipped]

theorem unresolvedIn_nodes {nodes : List Node} : unresolvedIn resolve visible (.array (nodesToValue nodes)) = none ↔
    ∀ n ∈ nodes, unresolvedIn resolve visible (nodeToValue n) = none := by
  rw [unresolvedIn, unresolvedInItems_eq_none, nodesToValue_eq_map, List.forall_mem_map]

def plainKey (key : String) : Bool :=
  key != "RangeVar" && key != "with_clause"

theorem unresolvedIn_object
    (plain : ∀ m ∈ members, plainKey m.1 = true ∨ m.2.isObject = false) :
    unresolvedIn resolve visible (.object members) = none ↔
      ∀ m ∈ members, unresolvedIn resolve visible m.2 = none := by
  have absent : ∀ key, plainKey key = false → ((Value.object members).get key).filter Value.isObject = none := by
    intro key special
    simp only [Value.get, Option.filter_eq_none_iff, Option.map_eq_some_iff, forall_exists_index, and_imp]
    rintro _ m found rfl
    have same : m.1 = key := by simpa using List.find?_some found
    have notPlain : plainKey m.1 ≠ true := by simp [same, special]
    simp [(plain m (List.mem_of_find?_eq_some found)).resolve_left notPlain]
  rw [unresolvedIn, absent "RangeVar" rfl, absent "with_clause" rfl]
  simp [unresolvedInMembers_eq_none]

theorem unresolvedIn_optionAlias (a : Option Alias) : unresolvedIn resolve visible (optionAlias a) = none := by
  cases a with
  | none => rfl
  | some a =>
    rw [optionAlias, Alias.toValue, unresolvedIn_object (by simp [plainKey])]
    simp [unresolvedIn, unresolvedInItems_eq_none]

theorem unresolvedIn_optionRangeVar (rv : Option RangeVar) : unresolvedIn resolve visible (optionRangeVar rv) = none := by
  cases rv with
  | none => rfl
  | some rv =>
    rw [optionRangeVar, RangeVar.toValue, unresolvedIn_object (by simp [plainKey])]
    simp [unresolvedIn, unresolvedIn_optionAlias]

theorem unresolvedIn_some {n : NodeEnum} :
    unresolvedIn resolve visible (nodeToValue (some n)) = none ↔ unresolvedIn resolve visible n.toValue = none := by
  rw [nodeToValue, unresolvedIn_object (by simp [plainKey])]
  simp

theorem unresolvedIn_absent : unresolvedIn resolve visible (nodeToValue none) = none := by
  rw [nodeToValue, unresolvedIn_object (by simp [plainKey])]
  simp [unresolvedIn]

theorem unresolvedIn_selectStmt {s : SelectStmt} :
    unresolvedIn resolve visible (NodeEnum.selectStmt s).toValue = none ↔ unresolvedIn resolve visible s.toValue = none := by
  rw [NodeEnum.toValue, unresolvedIn_object (by simp [plainKey])]
  simp

theorem unresolvedIn_optionSelect {s : Option SelectStmt} : unresolvedIn resolve visible (optionSelect s) = none ↔
    unresolvedIn resolve visible (nodeToValue (s.map .selectStmt)) = none := by
  cases s with
  | none => exact iff_of_true rfl unresolvedIn_absent
  | some s => exact (unresolvedIn_some.trans unresolvedIn_selectStmt).symm

/-- The names that the walk takes for common table expressions under a WITH clause. -/
def namesUnder (visible : List String) : Option WithClause → List String
  | none => visible
  | some w => visible ++ cteNames w.toValue

/-- The bodies of a WITH clause are walked one after the other. -/
def CleanBodies (resolve : String → String → Bool) (visible : List String) (withClause : Option WithClause) : Prop :=
  ∀ w, withClause = some w → unresolvedInCtes resolve visible
    (if w.recursive then some (namesUnder visible withClause) else none) (nodesToValue w.ctes) = none

theorem unresolvedInWith_next {key : String} {v : Value} {rest : List (String × Value)} (other : key ≠ "with_clause") :
    unresolvedInWith resolve visible all ((key, v) :: rest) = unresolvedInWith resolve visible all rest := by
  cases v <;> simp [unresolvedInWith, other]

theorem unresolvedIn_statement {fields : List (String × Value)} {withClause : Option WithClause}
    (last : fields.getLast? = some ("with_clause", optionWithClause withClause))
    (plain : ∀ m ∈ fields.dropLast, plainKey m.1 = true) :
    unresolvedIn resolve visible (.object fields) = none ↔
      (∀ m ∈ fields.dropLast, unresolvedIn resolve (namesUnder visible withClause) m.2 = none) ∧
      CleanBodies resolve visible withClause := by
  rw [← List.dropLast_append_getLast? _ last, List.dropLast_concat]
  generalize fields.dropLast = members at plain ⊢
  have other : ∀ key ∈ members.map Prod.fst, key ≠ "RangeVar" ∧ key ≠ "with_clause" := by
    intro key member
    obtain ⟨m, inside, rfl⟩ := List.mem_map.mp member
    simpa [plainKey] using plain m inside
  have find : ∀ key, key = "RangeVar" ∨ key = "with_clause" → members.find? (fun m => m.1 == key) = none := by
    intro key special
    rw [List.find?_eq_none]
    intro m inside
    have := other m.1 (List.mem_map_of_mem inside)
    rcases special with rfl | rfl <;> simp [this]
  have noRange : ((Value.object (members ++ [("with_clause", optionWithClause withClause)])).get "RangeVar") = none := by
    simp [Value.get, List.find?_append, find "RangeVar" (.inl rfl)]
  have found : ((Value.object (members ++ [("with_clause", optionWithClause withClause)])).get "with_clause") =
      some (optionWithClause withClause) := by
    simp [Value.get, List.find?_append, find "with_clause" (.inr rfl)]
  have bodies : ∀ w, withClause = some w → ∀ all, unresolvedInWith resolve visible all
      (members ++ [("with_clause", optionWithClause withClause)]) =
        unresolvedInCtes resolve visible all (nodesToValue w.ctes) := by
    rintro ⟨ctes, recursive⟩ rfl all
    clear find noRange found plain
    induction members with
    | nil => rfl
    | cons m rest ih =>
      rw [List.cons_append, unresolvedInWith_next (other m.1 (by simp)).2]
      exact ih fun key member => other key (by simp [member])
  rw [unresolvedIn, noRange, found]
  cases withClause with
  | none =>
    simp only [optionWithClause, Option.filter, Value.isObject, CleanBodies, Bool.false_eq_true, if_false,
      unresolvedInMembers_eq_none, List.forall_mem_append, List.forall_mem_singleton]
    simp [unresolvedIn, namesUnder]
  | some w =>
    obtain ⟨ctes, recursive⟩ := w
    have walked := bodies _ rfl (if recursive then some (namesUnder visible (some ⟨ctes, recursive⟩)) else none)
    simp only [CleanBodies, Option.some.injEq, forall_eq']
    rw [← walked]
    simp only [optionWithClause, Option.filter, WithClause.toValue, Value.isObject, if_true]
    rw [Option.or_eq_none_iff, unresolvedInMembers_eq_none, and_comm]
    refine and_congr ?_ Iff.rfl
    constructor
    · intro clean m member
      exact clean m (List.mem_append_left _ member) fun same =>
        (other m.1 (List.mem_map_of_mem member)).2 (Option.some.inj same)
    · intro clean m member named
      rcases List.mem_append.mp member with inside | last
      · exact clean m inside
      · cases List.mem_singleton.mp last
        exact absurd rfl named

/-- What the walk asks of one node: it is a reference that resolves, and the nodes below it are clean under the names
they are walked with. -/
structure CleanNode (resolve : String → String → Bool) (visible : List String) (node : NodeEnum) : Prop where
  range : ∀ rv, node = .rangeVar rv → rv.schemaname = "" ∧ rv.relname ∈ visible ∨ resolve rv.schemaname rv.relname = true
  parts : ∀ p ∈ node.parts, unresolvedIn resolve (namesUnder visible node.withClause) (nodeToValue p) = none
  bodies : CleanBodies resolve visible node.withClause

theorem cleanNode_of_statement {node : NodeEnum} (other : ∀ rv, node ≠ .rangeVar rv) :
    CleanNode resolve visible node ↔
      (∀ p ∈ node.parts, unresolvedIn resolve (namesUnder visible node.withClause) (nodeToValue p) = none) ∧
      CleanBodies resolve visible node.withClause :=
  ⟨fun clean => ⟨clean.parts, clean.bodies⟩,
    fun ⟨parts, bodies⟩ => ⟨fun rv same => absurd same (other rv), parts, bodies⟩⟩

theorem cleanNode_of_parts {node : NodeEnum} (other : ∀ rv, node ≠ .rangeVar rv) (bare : node.withClause = none) :
    CleanNode resolve visible node ↔ ∀ p ∈ node.parts, unresolvedIn resolve visible (nodeToValue p) = none := by
  rw [cleanNode_of_statement other, bare]
  exact and_iff_left nofun

theorem unresolvedIn_fields {kind : String}
    (plain : plainKey kind = true ∧ ∀ m ∈ members, plainKey m.1 = true) :
    unresolvedIn resolve visible (.object [(kind, .object members)]) = none ↔
      ∀ m ∈ members, unresolvedIn resolve visible m.2 = none := by
  rw [unresolvedIn_object (by simp [plain.1]), List.forall_mem_singleton,
    unresolvedIn_object fun m inside => .inl (plain.2 m inside)]

theorem unresolvedIn_rangeVar {rv : RangeVar} : unresolvedIn resolve visible (NodeEnum.rangeVar rv).toValue = none ↔
    rv.schemaname = "" ∧ rv.relname ∈ visible ∨ resolve rv.schemaname rv.relname = true := by
  have found : unresolvedIn resolve visible (NodeEnum.rangeVar rv).toValue =
      if (rv.schemaname == "" && visible.contains rv.relname) || resolve rv.schemaname rv.relname then none
      else some (rv.schemaname, rv.relname) := rfl
  rw [found]
  split_ifs with known
  · exact iff_of_true rfl (by simpa using known)
  · exact iff_of_false nofun (by simpa using known)

theorem unresolvedIn_optionOnConflict {o : Option OnConflictClause} :
    unresolvedIn resolve visible (optionOnConflict o) = none ↔
      ∀ p ∈ o.elim [] fun o => o.whereClause :: o.targetList ++ o.infer.elim [] fun i => i.whereClause :: i.indexElems,
        unresolvedIn resolve visible (nodeToValue p) = none := by
  rcases o with _ | ⟨action, infer, targetList, whereClause⟩
  · exact iff_of_true rfl nofun
  rw [optionOnConflict, OnConflictClause.toValue, unresolvedIn_object (by simp [plainKey])]
  rcases infer with _ | ⟨indexElems, condition, conname⟩
  · simp only [Option.elim, optionInfer, List.append_nil, List.forall_mem_cons, List.not_mem_nil, false_implies,
      implies_true, unresolvedIn_nodes]
    tauto
  · have fields : unresolvedIn resolve visible (InferClause.toValue ⟨indexElems, condition, conname⟩) = none ↔
        ∀ p ∈ condition :: indexElems, unresolvedIn resolve visible (nodeToValue p) = none := by
      rw [InferClause.toValue, unresolvedIn_object (by simp [plainKey])]
      simp only [List.forall_mem_cons, List.not_mem_nil, false_implies, implies_true, unresolvedIn_nodes]
      tauto
    simp only [Option.elim, optionInfer, fields, List.cons_append, List.forall_mem_cons, List.forall_mem_append,
      List.not_mem_nil, false_implies, implies_true, unresolvedIn_nodes]
    tauto

theorem unresolvedIn_iff {node : NodeEnum} :
    unresolvedIn resolve visible node.toValue = none ↔ CleanNode resolve visible node := by
  cases node with
  | rangeVar rv =>
    rw [unresolvedIn_rangeVar]
    refine ⟨fun known => ⟨?_, List.forall_mem_nil _, fun _ absent => absurd absent (by simp [NodeEnum.withClause])⟩,
      fun clean => clean.range rv rfl⟩
    rintro _ ⟨⟩
    exact known
  | selectStmt s =>
    obtain ⟨⟩ := s
    refine Iff.trans ?_ (cleanNode_of_statement (by simp)).symm
    rw [unresolvedIn_selectStmt, SelectStmt.toValue, unresolvedIn_statement rfl (by simp [plainKey])]
    have into : ∀ names rv, unresolvedIn resolve names (.object [("rel", optionRangeVar rv)]) = none := fun names rv =>
      (unresolvedIn_object (by simp [plainKey])).mpr (by simp [unresolvedIn_optionRangeVar])
    refine and_congr_left fun _ => ?_
    simp only [NodeEnum.parts, SelectStmt.clauses, List.dropLast_cons_cons, List.dropLast_singleton,
      List.forall_mem_cons, List.forall_mem_append, List.not_mem_nil, false_implies, implies_true, unresolvedIn_nodes,
      unresolvedIn_optionSelect, into]
    tauto
  | insertStmt s | updateStmt s | deleteStmt s =>
    obtain ⟨⟩ := s
    refine Iff.trans ?_ (cleanNode_of_statement (by simp)).symm
    rw [NodeEnum.toValue, unresolvedIn_object (by simp [plainKey]), List.forall_mem_singleton]
    refine (unresolvedIn_statement rfl (by simp [plainKey])).trans (and_congr_left fun _ => ?_)
    simp only [NodeEnum.parts, List.dropLast_cons_cons, List.dropLast_singleton, List.forall_mem_cons,
      List.forall_mem_append, List.not_mem_nil, false_implies, implies_true, unresolvedIn_nodes,
      unresolvedIn_optionOnConflict, unresolvedIn_optionRangeVar]
    tauto
  | utility kind children | other kind children =>
    refine Iff.trans ?_ (cleanNode_of_parts (by simp) rfl).symm
    rw [NodeEnum.toValue, unresolvedIn_object (by simp [Value.isObject]), List.forall_mem_singleton, unresolvedIn_nodes]
    rfl
  | paramRef _ | string _ | aStar | setToDefault | transactionStmt _ =>
    refine iff_of_true ?_ ((cleanNode_of_parts (by simp) rfl).mpr (List.forall_mem_nil _))
    refine (unresolvedIn_fields (by simp [plainKey])).mpr ?_
    simp [unresolvedIn]
  | aConst c =>
    obtain ⟨isnull, val⟩ := c
    refine iff_of_true ((unresolvedIn_fields (by simp [plainKey])).mpr ?_) ((cleanNode_of_parts (by simp) rfl).mpr (List.forall_mem_nil _))
    cases val with
    | none => simp [unresolvedIn]
    | some c => simp [unresolvedIn, ConstVal.toValue_unresolved]
  | columnRef items | list items =>
    refine Iff.trans ?_ (cleanNode_of_parts (by simp) rfl).symm
    rw [NodeEnum.toValue, unresolvedIn_fields (by simp [plainKey]), List.forall_mem_singleton, unresolvedIn_nodes]
    rfl
  | typeCast arg typeName =>
    refine Iff.trans ?_ (cleanNode_of_parts (by simp) rfl).symm
    rw [NodeEnum.toValue, unresolvedIn_fields (by simp [plainKey]), List.forall_mem_cons, List.forall_mem_singleton]
    simp [NodeEnum.parts, NodeEnum.children]
  | aExpr e =>
    obtain ⟨⟩ := e
    refine Iff.trans ?_ (cleanNode_of_parts (by simp) rfl).symm
    refine (unresolvedIn_fields (by simp [plainKey])).trans ?_
    simp only [NodeEnum.parts, NodeEnum.children, List.forall_mem_cons, List.not_mem_nil, false_implies, implies_true,
      unresolvedIn_nodes]
    tauto
  | _ =>
    refine Iff.trans ?_ (cleanNode_of_parts (by simp) rfl).symm
    refine (unresolvedIn_fields (by simp [plainKey])).trans ?_
    simp only [NodeEnum.parts, NodeEnum.children, List.forall_mem_cons, List.not_mem_nil, false_implies, implies_true,
      unresolvedIn_nodes, unresolvedIn_optionAlias]
    tauto

theorem unresolvedInCtes_iff {ctes : List Node} {earlier : List String} :
    unresolvedInCtes resolve earlier all (nodesToValue ctes) = none ↔
      ∀ before cte after, ctes = before ++ cte :: after →
        unresolvedIn resolve (all.getD (earlier ++ (nodesToValue before).filterMap cteName)) (nodeToValue cte) = none := by
  induction ctes generalizing earlier with
  | nil =>
    refine iff_of_true rfl fun before cte after listed => ?_
    simp at listed
  | cons first rest ih =>
    rw [nodesToValue, unresolvedInCtes, Option.or_eq_none_iff, ih]
    have names : ∀ before, earlier ++ (cteName (nodeToValue first)).toList ++ (nodesToValue before).filterMap cteName =
        earlier ++ (nodesToValue (first :: before)).filterMap cteName := by
      intro before
      cases named : cteName (nodeToValue first) <;> simp [nodesToValue, named]
    constructor
    · rintro ⟨own, others⟩ before cte after listed
      cases before with
      | nil =>
        cases listed
        simpa [nodesToValue] using own
      | cons head before =>
        cases listed
        rw [← names]
        exact others before cte after rfl
    · intro each
      refine ⟨by simpa [nodesToValue] using each [] first rest rfl, ?_⟩
      rintro before cte after rfl
      rw [names]
      exact each (first :: before) cte after rfl

theorem cteName_nodeToValue {n : Node} : cteName (nodeToValue n) = (cteEntry n).map Prod.fst := by
  cases n with
  | none => rfl
  | some node =>
    cases node with
    | other kind children =>
      by_cases same : kind = "CommonTableExpr" <;>
        simp [cteName, nodeToValue, NodeEnum.toValue, Value.get, same, cteEntry]
    | _ => rfl

end Walk

/-! ## The walk against the scopes -/

/-- The names that the walk takes for common table expressions are those in scope. -/
def CteScope.Is (scope : CteScope) (visible : List String) : Prop :=
  ∀ name, name ∈ visible ↔ (scope.lookup name).isSome = true

namespace CteScope.Is

variable {outer : CteScope} {visible : List String}

theorem push (is : outer.Is visible) (nodes : List Node) :
    CteScope.Is (nodes.filterMap cteEntry ++ outer) (visible ++ (nodesToValue nodes).filterMap cteName) := by
  intro name
  have new : name ∈ (nodesToValue nodes).filterMap cteName ↔ ∃ entry ∈ nodes.filterMap cteEntry, entry.1 = name := by
    rw [nodesToValue_eq_map, List.filterMap_map, ← List.mem_map, List.map_filterMap]
    simp only [Function.comp_def, cteName_nodeToValue]
  rw [List.lookup_append, Option.isSome_or, Bool.or_eq_true, List.mem_append, is name, new, or_comm]
  refine or_congr_left (Iff.trans (exists_congr fun entry => and_congr_right fun _ => ?_) List.lookup_isSome_iff.symm)
  rw [beq_iff_eq, eq_comm]

theorem node (is : outer.Is visible) (node : NodeEnum) : CteScope.Is (node.scope outer) (namesUnder visible node.withClause) := by
  rw [NodeEnum.scope]
  cases node.withClause with
  | none => exact is
  | some w =>
    obtain ⟨ctes, recursive⟩ := w
    exact is.push ctes

theorem body (is : outer.Is visible) {node : NodeEnum} {w : WithClause} (present : node.withClause = some w)
    (before : List Node) : CteScope.Is (w.bodyScope outer before)
      ((if w.recursive then some (namesUnder visible node.withClause) else none).getD
        (visible ++ (nodesToValue before).filterMap cteName)) := by
  have whole := is.node node
  rw [NodeEnum.scope, present] at whole
  rw [WithClause.bodyScope, present]
  split_ifs
  · exact whole
  · exact is.push before

end CteScope.Is

theorem sizeOf_lt_of_mem {n : NodeEnum} {nodes : List Node} (member : some n ∈ nodes) : sizeOf n < sizeOf nodes := by
  have := List.sizeOf_lt_of_mem member
  simp only [Option.some.sizeOf_spec] at this
  omega

theorem sizeOf_part_lt {node p : NodeEnum} (member : some p ∈ node.parts) : sizeOf p < sizeOf node := by
  have listed : ∀ nodes : List Node, some p ∈ nodes → sizeOf p < sizeOf nodes := fun _ => sizeOf_lt_of_mem
  have single : ∀ n : Node, some p = n → sizeOf p < sizeOf n := by
    rintro _ rfl
    simp
  have arm : ∀ s : Option SelectStmt, some p = s.map .selectStmt → sizeOf p ≤ sizeOf s := by
    rintro (_ | s) same <;> cases same
    simp
  cases node with
  | selectStmt s =>
    obtain ⟨⟩ := s
    simp only [NodeEnum.parts, SelectStmt.clauses, List.mem_append, List.mem_cons, List.not_mem_nil, or_false] at member
    simp only [NodeEnum.selectStmt.sizeOf_spec, SelectStmt.mk.sizeOf_spec]
    rcases member with ((((((((h | h) | h) | h) | h) | h) | h) | h) | h | h | h | h) | h | h <;>
      first | have := listed _ h; omega | have := single _ h; omega | have := arm _ h; omega
  | insertStmt s =>
    obtain ⟨_, _, _, _ | ⟨_, _ | ⟨_, _, _⟩, _, _⟩, _, _⟩ := s <;> simp [NodeEnum.parts] at member ⊢ <;> grind
  | updateStmt s | deleteStmt s | aExpr s =>
    obtain ⟨⟩ := s
    simp [NodeEnum.parts, NodeEnum.children] at member ⊢
    grind
  | aConst _ | paramRef _ | string _ | aStar | setToDefault | rangeVar _ | transactionStmt _ => cases member
  | _ =>
    simp [NodeEnum.parts, NodeEnum.children] at member ⊢
    grind

theorem sizeOf_cte_lt {node cte : NodeEnum} {w : WithClause} (present : node.withClause = some w)
    (member : some cte ∈ w.ctes) : sizeOf cte < sizeOf node := by
  have inside := sizeOf_lt_of_mem member
  obtain ⟨ctes, recursive⟩ := w
  cases node with
  | selectStmt s | insertStmt s | updateStmt s | deleteStmt s =>
    obtain ⟨⟩ := s
    cases present
    simp at inside ⊢
    omega
  | _ => cases present

/-- The walk reports nothing exactly if every table reference of the tree is the name of a common table expression in
scope, or resolves. -/
theorem walk_iff {resolve : String → String → Bool} (node : NodeEnum) {outer : CteScope} {visible : List String}
    (is : outer.Is visible) : unresolvedIn resolve visible node.toValue = none ↔
      ∀ scope rv, Occurs outer node scope (.rangeVar rv) → rv.IsBase scope → resolve rv.schemaname rv.relname = true := by
  induction size : sizeOf node using Nat.strong_induction_on generalizing node outer visible with
  | _ n ih =>
    subst size
    have free : ∀ rv : RangeVar, rv.IsBase outer ↔ ¬ (rv.schemaname = "" ∧ rv.relname ∈ visible) := by
      intro rv
      rw [RangeVar.IsBase, is, Option.isSome_iff_ne_none]
      tauto
    rw [unresolvedIn_iff]
    constructor
    · intro clean scope rv occurs base
      cases occurs with
      | here => exact (clean.range rv rfl).resolve_left ((free rv).mp base)
      | part member inner =>
        have walked := unresolvedIn_some.mp (clean.parts _ member)
        exact (ih _ (sizeOf_part_lt member) _ (is.node node) rfl).mp walked scope rv inner base
      | @cte _ _ w before after _ cte _ present listed inner =>
        have walked := unresolvedIn_some.mp (unresolvedInCtes_iff.mp (clean.bodies w present) before _ after listed)
        exact (ih _ (sizeOf_cte_lt present (by simp [listed])) _ (is.body present before) rfl).mp walked scope rv inner base
    · intro known
      refine ⟨?_, ?_, ?_⟩
      · rintro rv rfl
        by_cases base : rv.IsBase outer
        · exact .inr (known outer rv .here base)
        · exact .inl (not_not.mp fun absent => base ((free rv).mpr absent))
      · intro p member
        cases p with
        | none => exact unresolvedIn_absent
        | some p =>
          refine unresolvedIn_some.mpr ((ih _ (sizeOf_part_lt member) _ (is.node node) rfl).mpr ?_)
          exact fun scope rv inner => known scope rv (.part member inner)
      · intro w present
        refine unresolvedInCtes_iff.mpr fun before cte after listed => ?_
        cases cte with
        | none => exact unresolvedIn_absent
        | some cte =>
          refine unresolvedIn_some.mpr ((ih _ (sizeOf_cte_lt present (by simp [listed])) _ (is.body present before) rfl).mpr ?_)
          exact fun scope rv inner => known scope rv (.cte present listed inner)

section

variable {outer scope : CteScope} {node n : NodeEnum} {rv : RangeVar}

theorem Occurs.trans {root : NodeEnum} {start : CteScope} (first : Occurs start root outer node)
    (second : Occurs outer node scope n) : Occurs start root scope n := by
  induction first with
  | here => exact second
  | part member _ ih => exact .part member (ih second)
  | cte present listed _ ih => exact .cte present listed (ih second)

theorem NodeEnum.children_parts {child : Node} (member : child ∈ node.children) :
    child ∈ node.parts ∧ node.withClause = none := by
  cases node with
  | selectStmt _ | insertStmt _ | updateStmt _ | deleteStmt _ | utility _ _ => cases member
  | _ => exact ⟨member, rfl⟩

theorem Below.occurs (below : Below outer node scope n) : Occurs outer node scope n := by
  induction below with
  | here => exact .here
  | child member _ ih =>
    obtain ⟨inside, bare⟩ := NodeEnum.children_parts member
    refine .part inside ?_
    rwa [NodeEnum.scope, bare]
  | clause member _ ih => exact .part (List.mem_append_left _ member) ih
  | larg left _ ih => exact .part (by simp [NodeEnum.parts, left]) ih
  | rarg right _ ih => exact .part (by simp [NodeEnum.parts, right]) ih
  | cte present listed _ ih => exact .cte present listed ih

theorem InFrom.occurs {items : List Node} (inFrom : InFrom items rv) :
    ∃ item, some item ∈ items ∧ Occurs scope item scope (.rangeVar rv) := by
  induction inFrom with
  | table member => exact ⟨_, member, .here⟩
  | @join _ _ _ quals _ _ member _ ih =>
    obtain ⟨item, arm, inner⟩ := ih
    exact ⟨_, member, .part (List.mem_append_left [quals] arm) inner⟩
  | sample member _ ih =>
    obtain ⟨item, inside, inner⟩ := ih
    exact ⟨_, member, .part inside inner⟩

/-- The table reference stands in a FROM clause somewhere in the tree, in this scope. -/
def FromReference (root : NodeEnum) (scope : CteScope) (rv : RangeVar) : Prop :=
  ∃ outer t, Occurs [] root outer t ∧ scope = t.scope outer ∧ InFrom t.fromItems rv

theorem FromReference.occurs {root : NodeEnum} (refers : FromReference root scope rv) :
    Occurs [] root scope (.rangeVar rv) := by
  obtain ⟨outer, t, occurs, rfl, inFrom⟩ := refers
  obtain ⟨item, member, inner⟩ := inFrom.occurs
  refine occurs.trans (.part ?_ inner)
  cases t with
  | selectStmt s | updateStmt s | deleteStmt s => simp_all [NodeEnum.fromItems, NodeEnum.parts, SelectStmt.clauses]
  | utility kind children => cases kind <;> first | exact member | cases member
  | _ => cases member

end

theorem resolvesTable_iff {vschema : VSchema} {rv : RangeVar} :
    resolvesTable vschema rv.schemaname rv.relname = true ↔ rv.Known vschema := by
  have table : (⟨if rv.schemaname = "" then "public" else rv.schemaname, rv.relname⟩ : TableName) = rangeVarTable rv := rfl
  have placed : placement vschema (rangeVarTable rv) ≠ .unknown ↔ (vschema.get (rangeVarTable rv)).isSome = true := by
    unfold placement
    split <;> simp_all
  rw [resolvesTable, Bool.or_eq_true, decide_eq_true_eq, table, placed, RangeVar.Known, ← or_assoc]
  refine or_congr_left ?_
  by_cases unqualified : rv.schemaname = "" <;> simp [isCatalogSchema, rangeVarTable, unqualified]

theorem unknownRelation_iff {s : SelectStmt} {vschema : VSchema} : unknownRelation s.toValue vschema = none ↔
    ∀ scope rv, Occurs [] (.selectStmt s) scope (.rangeVar rv) → rv.IsBase scope → rv.Known vschema := by
  have start : CteScope.Is [] [] := fun name => by simp
  simp only [← resolvesTable_iff]
  rw [← walk_iff _ start, unresolvedIn_selectStmt, unknownRelation, findUnresolvedRelation, Option.map_eq_none_iff]

/-- If the walk reports nothing, every table reference that PostgreSQL takes for a base relation is known, however
deep it stands and whatever common table expressions are around it. -/
theorem base_relations_known {s : SelectStmt} {vschema : VSchema} {scope : CteScope} {rv : RangeVar}
    (silent : unknownRelation s.toValue vschema = none) (refers : s.RefersTo scope rv) (base : rv.IsBase scope) :
    rv.Known vschema := by
  obtain ⟨outer, t, below, rfl, inFrom⟩ := refers
  exact unknownRelation_iff.mp silent _ rv (FromReference.occurs ⟨outer, .selectStmt t, below.occurs, rfl, inFrom⟩) base

def selectFrom (withClause : Option WithClause) (items : List Node) : SelectStmt where
  distinctClause := []
  intoClause := none
  targetList := [some (.resTarget "" [] (some (.columnRef [some .aStar])))]
  fromClause := items
  whereClause := none
  groupClause := []
  groupDistinct := false
  havingClause := none
  windowClause := []
  valuesLists := []
  sortClause := []
  limitOffset := none
  limitCount := none
  lockingClause := []
  withClause := withClause
  op := .none
  all := false
  larg := none
  rarg := none

def ordersBody : SelectStmt :=
  selectFrom none [some (.rangeVar ⟨"", "", "orders", none⟩)]

/-- `WITH orders AS (SELECT * FROM orders) SELECT * FROM orders`: the inner reference is the table, as the expression
is not in scope in its own body; the outer one is the expression. -/
def shadowedOrders : SelectStmt :=
  selectFrom (some ⟨[some (.commonTableExpr "orders" (some (.selectStmt ordersBody)))], false⟩)
    [some (.rangeVar ⟨"", "", "orders", none⟩)]

theorem base_relations_known_shadowed :
    shadowedOrders.RefersTo [] ⟨"", "", "orders", none⟩ ∧ RangeVar.Known ⟨"", "", "orders", none⟩ ordersSchema := by
  have inBody : shadowedOrders.RefersTo [] ⟨"", "", "orders", none⟩ := by
    refine ⟨[], ordersBody, ?_, rfl, .table List.mem_cons_self⟩
    have listed : (shadowedOrders.withClause.map WithClause.ctes) =
        some ([] ++ [some (.commonTableExpr "orders" (some (.selectStmt ordersBody)))]) := rfl
    exact .cte rfl (Option.some.inj listed) (.child List.mem_cons_self .here)
  exact ⟨inBody, base_relations_known (s := shadowedOrders) rfl inBody (.inr rfl)⟩

/-- A SELECT whose FROM clauses name known relations passes exactly if the tables named outside of them, which are those
of a locking clause's OF, are names of common table expressions in scope or known relations, too. -/
theorem known_relations_pass_iff {s : SelectStmt} {vschema : VSchema}
    (known : ∀ scope rv, FromReference (.selectStmt s) scope rv → rv.IsBase scope → rv.Known vschema) :
    unknownRelation s.toValue vschema = none ↔
      ∀ scope rv, Occurs [] (.selectStmt s) scope (.rangeVar rv) → ¬ FromReference (.selectStmt s) scope rv →
        rv.IsBase scope → rv.Known vschema := by
  rw [unknownRelation_iff]
  refine forall₂_congr fun scope rv => forall_congr' fun occurs => ⟨fun all _ => all, fun others base => ?_⟩
  by_cases refers : FromReference (.selectStmt s) scope rv
  · exact known scope rv refers base
  · exact others refers base

theorem known_relations_pass_orders : unknownRelation ordersBody.toValue ordersSchema = none ∧
    ∀ scope rv, Occurs [] (.selectStmt ordersBody) scope (.rangeVar rv) →
      ¬ FromReference (.selectStmt ordersBody) scope rv → rv.IsBase scope → rv.Known ordersSchema := by
  have silent : unknownRelation ordersBody.toValue ordersSchema = none := rfl
  refine ⟨silent, ?_⟩
  exact (known_relations_pass_iff fun scope rv refers => unknownRelation_iff.mp silent scope rv refers.occurs).mp silent

def lockedOrders : SelectStmt :=
  { selectFrom none [some (.rangeVar ⟨"", "", "orders", some ⟨"o", []⟩⟩)] with
    targetList := []
    lockingClause := [some (.other "LockingClause" [some (.rangeVar ⟨"", "", "o", none⟩)])] }

/-- The name behind OF is that of a FROM item, here an alias; the walk looks it up as a relation. -/
theorem locked_alias_refused :
    (∀ scope rv, FromReference (.selectStmt lockedOrders) scope rv → rv.IsBase scope → rv.Known ordersSchema) ∧
      unknownRelation lockedOrders.toValue ordersSchema = some ⟨"public", "o"⟩ := by
  have leaf : ∀ {outer scope rv t}, Occurs outer (.rangeVar rv) scope t → t = .rangeVar rv := by
    rintro outer scope rv t (_ | ⟨⟨⟩, _⟩ | ⟨⟨⟩, _, _⟩)
    rfl
  have nothing : ∀ {rv}, ¬ InFrom [] rv := by
    rintro rv (⟨⟨⟩⟩ | ⟨⟨⟩, _⟩ | ⟨⟨⟩, _⟩)
  refine ⟨?_, rfl⟩
  rintro scope rv ⟨outer, t, occurs, rfl, inFrom⟩ _
  cases occurs with
  | here =>
    have orders : rv = ⟨"", "", "orders", some ⟨"o", []⟩⟩ := by
      rcases inFrom with member | ⟨member, _⟩ | ⟨member, _⟩ <;> simp [NodeEnum.fromItems, lockedOrders, selectFrom] at member
      exact member
    subst orders
    exact resolvesTable_iff.mp rfl
  | @part _ _ _ p _ member inner =>
    have parts : p = .rangeVar ⟨"", "", "orders", some ⟨"o", []⟩⟩ ∨
        p = .other "LockingClause" [some (.rangeVar ⟨"", "", "o", none⟩)] := by
      simpa [NodeEnum.parts, SelectStmt.clauses, lockedOrders, selectFrom] using member
    rcases parts with rfl | rfl
    · rw [leaf inner] at inFrom
      exact absurd inFrom nothing
    · cases inner with
      | here => exact absurd inFrom nothing
      | part member inner =>
        cases List.mem_singleton.mp member
        rw [leaf inner] at inFrom
        exact absurd inFrom nothing
      | cte present _ _ => cases present
  | cte present _ _ => cases present

end PgShard
