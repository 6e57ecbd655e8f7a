import PgShard.Sql.Ast

namespace PgShard

/-- `serde_json::Value`. Objects list their members in key order, as the
map behind them iterates. -/
inductive Value
  | null
  | bool (b : Bool)
  | number (n : Int)
  | string (s : String)
  | array (items : List Value)
  | object (members : List (String × Value))

def Alias.toValue (a : Alias) : Value :=
  .object [("aliasname", .string a.aliasname), ("colnames", .array (a.colnames.map .string))]

def optionAlias : Option Alias → Value
  | none => .null
  | some a => a.toValue

def RangeVar.toValue (rv : RangeVar) : Value :=
  .object [("alias", optionAlias rv.alias), ("catalogname", .string rv.catalogname),
    ("relname", .string rv.relname), ("schemaname", .string rv.schemaname)]

def optionRangeVar : Option RangeVar → Value
  | none => .null
  | some rv => rv.toValue

def ConstVal.toValue : ConstVal → Value
  | .ival v => .object [("Ival", .object [("ival", .number v.toInt)])]
  | .fval v => .object [("Fval", .object [("fval", .string v)])]
  | .boolval v => .object [("Boolval", .object [("boolval", .bool v)])]
  | .sval v => .object [("Sval", .object [("sval", .string v)])]
  | .bsval v => .object [("Bsval", .object [("bsval", .string v)])]

def AConst.toValue (c : AConst) : Value :=
  .object [("isnull", .bool c.isnull), ("val", match c.val with
    | none => .null
    | some v => v.toValue)]

def AExprKind.code : AExprKind → Int
  | .undefined => 0 | .op => 1 | .opAny => 2 | .opAll => 3 | .distinct => 4 | .notDistinct => 5
  | .nullIf => 6 | .in => 7 | .like => 8 | .ilike => 9 | .similar => 10 | .between => 11
  | .notBetween => 12 | .betweenSym => 13 | .notBetweenSym => 14

def BoolExprType.code : BoolExprType → Int
  | .undefined => 0 | .and => 1 | .or => 2 | .not => 3

def SetOperation.code : SetOperation → Int
  | .undefined => 0 | .none => 1 | .union => 2 | .intersect => 3 | .except => 4

def SortByDir.code : SortByDir → Int
  | .undefined => 0 | .default => 1 | .asc => 2 | .desc => 3 | .using => 4

def SortByNulls.code : SortByNulls → Int
  | .undefined => 0 | .default => 1 | .first => 2 | .last => 3

def OnConflictAction.code : OnConflictAction → Int
  | .undefined => 0 | .none => 1 | .nothing => 2 | .update => 3

/- A node is the object holding its type name; a struct-typed field such as
an INSERT's `relation` is the bare object, with no type name around it. -/
mutual

def NodeEnum.toValue : NodeEnum → Value
  | .aConst c => .object [("AConst", c.toValue)]
  | .paramRef number => .object [("ParamRef", .object [("number", .number number.toInt)])]
  | .columnRef fields => .object [("ColumnRef", .object [("fields", .array (nodesToValue fields))])]
  | .string sval => .object [("String", .object [("sval", .string sval)])]
  | .aStar => .object [("AStar", .object [])]
  | .aExpr e => .object [("AExpr", e.toValue)]
  | .boolExpr boolop args =>
    .object [("BoolExpr", .object [("args", .array (nodesToValue args)), ("boolop", .number boolop.code)])]
  | .list items => .object [("List", .object [("items", .array (nodesToValue items))])]
  | .subLink testexpr subselect =>
    .object [("SubLink", .object [("subselect", nodeToValue subselect), ("testexpr", nodeToValue testexpr)])]
  | .typeCast arg typeName =>
    .object [("TypeCast", .object [("arg", nodeToValue arg), ("type_name", nodeToValue typeName)])]
  | .setToDefault => .object [("SetToDefault", .object [])]
  | .resTarget name indirection val =>
    .object [("ResTarget", .object [("indirection", .array (nodesToValue indirection)),
      ("name", .string name), ("val", nodeToValue val)])]
  | .multiAssignRef source colno ncolumns =>
    .object [("MultiAssignRef", .object [("colno", .number colno.toInt),
      ("ncolumns", .number ncolumns.toInt), ("source", nodeToValue source)])]
  | .rangeVar rv => .object [("RangeVar", rv.toValue)]
  | .joinExpr larg rarg quals a =>
    .object [("JoinExpr", .object [("alias", optionAlias a), ("larg", nodeToValue larg),
      ("quals", nodeToValue quals), ("rarg", nodeToValue rarg)])]
  | .rangeSubselect lateral subquery a =>
    .object [("RangeSubselect", .object [("alias", optionAlias a), ("lateral", .bool lateral),
      ("subquery", nodeToValue subquery)])]
  | .sortBy node dir nulls =>
    .object [("SortBy", .object [("node", nodeToValue node), ("sortby_dir", .number dir.code),
      ("sortby_nulls", .number nulls.code)])]
  | .indexElem name expr =>
    .object [("IndexElem", .object [("expr", nodeToValue expr), ("name", .string name)])]
  | .commonTableExpr ctename ctequery =>
    .object [("CommonTableExpr", .object [("ctename", .string ctename), ("ctequery", nodeToValue ctequery)])]
  | .selectStmt s => .object [("SelectStmt", s.toValue)]
  | .insertStmt s => .object [("InsertStmt", s.toValue)]
  | .updateStmt s => .object [("UpdateStmt", s.toValue)]
  | .deleteStmt s => .object [("DeleteStmt", s.toValue)]
  | .transactionStmt _ => .object [("TransactionStmt", .object [])]
  | .utility _ children => .object [("UtilityStmt", .array (nodesToValue children))]
  | .other kind children => .object [(kind, .array (nodesToValue children))]

def nodeToValue : Option NodeEnum → Value
  | none => .object [("node", .null)]
  | some n => .object [("node", n.toValue)]

def nodesToValue : List (Option NodeEnum) → List Value
  | [] => []
  | n :: rest => nodeToValue n :: nodesToValue rest

def AExpr.toValue : AExpr → Value
  | ⟨kind, name, lexpr, rexpr⟩ =>
    .object [("kind", .number kind.code), ("lexpr", nodeToValue lexpr), ("name", .array (nodesToValue name)),
      ("rexpr", nodeToValue rexpr)]

def WithClause.toValue : WithClause → Value
  | ⟨ctes, recursive⟩ => .object [("ctes", .array (nodesToValue ctes)), ("recursive", .bool recursive)]

def optionWithClause : Option WithClause → Value
  | none => .null
  | some w => w.toValue

def SelectStmt.toValue : SelectStmt → Value
  | ⟨distinctClause, intoClause, targetList, fromClause, whereClause, groupClause, groupDistinct, havingClause,
      windowClause, valuesLists, sortClause, limitOffset, limitCount, lockingClause, withClause, op, all, larg, rarg⟩ =>
    .object [("all", .bool all), ("distinct_clause", .array (nodesToValue distinctClause)),
      ("from_clause", .array (nodesToValue fromClause)), ("group_clause", .array (nodesToValue groupClause)),
      ("group_distinct", .bool groupDistinct), ("having_clause", nodeToValue havingClause),
      ("into_clause", .object [("rel", optionRangeVar intoClause)]), ("larg", optionSelect larg),
      ("limit_count", nodeToValue limitCount), ("limit_offset", nodeToValue limitOffset),
      ("locking_clause", .array (nodesToValue lockingClause)), ("op", .number op.code), ("rarg", optionSelect rarg),
      ("sort_clause", .array (nodesToValue sortClause)), ("target_list", .array (nodesToValue targetList)),
      ("values_lists", .array (nodesToValue valuesLists)), ("where_clause", nodeToValue whereClause),
      ("window_clause", .array (nodesToValue windowClause)), ("with_clause", optionWithClause withClause)]

def optionSelect : Option SelectStmt → Value
  | none => .null
  | some s => s.toValue

def InferClause.toValue : InferClause → Value
  | ⟨indexElems, whereClause, conname⟩ =>
    .object [("conname", .string conname), ("index_elems", .array (nodesToValue indexElems)),
      ("where_clause", nodeToValue whereClause)]

def optionInfer : Option InferClause → Value
  | none => .null
  | some i => i.toValue

def OnConflictClause.toValue : OnConflictClause → Value
  | ⟨action, infer, targetList, whereClause⟩ =>
    .object [("action", .number action.code), ("infer", optionInfer infer),
      ("target_list", .array (nodesToValue targetList)), ("where_clause", nodeToValue whereClause)]

def optionOnConflict : Option OnConflictClause → Value
  | none => .null
  | some o => o.toValue

def InsertStmt.toValue : InsertStmt → Value
  | ⟨relation, cols, selectStmt, onConflictClause, returningList, withClause⟩ =>
    .object [("cols", .array (nodesToValue cols)), ("on_conflict_clause", optionOnConflict onConflictClause),
      ("relation", optionRangeVar relation), ("returning_list", .array (nodesToValue returningList)),
      ("select_stmt", nodeToValue selectStmt), ("with_clause", optionWithClause withClause)]

def UpdateStmt.toValue : UpdateStmt → Value
  | ⟨relation, targetList, whereClause, fromClause, returningList, withClause⟩ =>
    .object [("from_clause", .array (nodesToValue fromClause)), ("relation", optionRangeVar relation),
      ("returning_list", .array (nodesToValue returningList)), ("target_list", .array (nodesToValue targetList)),
      ("where_clause", nodeToValue whereClause), ("with_clause", optionWithClause withClause)]

def DeleteStmt.toValue : DeleteStmt → Value
  | ⟨relation, usingClause, whereClause, returningList, withClause⟩ =>
    .object [("relation", optionRangeVar relation), ("returning_list", .array (nodesToValue returningList)),
      ("using_clause", .array (nodesToValue usingClause)), ("where_clause", nodeToValue whereClause),
      ("with_clause", optionWithClause withClause)]

end

theorem nodesToValue_eq_map (nodes : List Node) : nodesToValue nodes = nodes.map nodeToValue := by
  induction nodes with
  | nil => rfl
  | cons n rest ih => rw [nodesToValue, ih, List.map_cons]

end PgShard
