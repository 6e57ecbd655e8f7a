import PgShard.Lib.Checked
import PgShard.Lib.SqlLex
import PgShard.Repl.Apply

namespace PgShard

open SqlLex Checked

variable {relation : RelationInfo} {cells keySource : List Cell} {sql : String}

/-- A row statement as the target reads it: names, literal texts (`none` is
NULL) and the equality conditions of the WHERE clause. -/
inductive RowStatement
  | insert (schema table : String) (columns : List String) (values : List (Option String))
  | update (schema table : String) (assignments : List (String × Option String)) (conditions : List (String × String))
  | delete (schema table : String) (conditions : List (String × String))
  deriving DecidableEq

/-! ### Reading a statement from its tokens -/

def readValue : Token → Option (Option String)
  | .literal s => some (some s)
  | .word w => if w = "NULL" then some none else none
  | _ => none

def readIdents : List Token → Option (List String × List Token)
  | .ident c :: .symbol ',' :: rest => do
    let (cs, rest) ← readIdents rest
    some (c :: cs, rest)
  | .ident c :: rest => some ([c], rest)
  | _ => none

def readValues : List Token → Option (List (Option String) × List Token)
  | t :: .symbol ',' :: rest => do
    let v ← readValue t
    let (vs, rest) ← readValues rest
    some (v :: vs, rest)
  | t :: rest => do
    let v ← readValue t
    some ([v], rest)
  | [] => none

def readAssignments : List Token → Option (List (String × Option String) × List Token)
  | .ident c :: .symbol '=' :: t :: .symbol ',' :: rest => do
    let v ← readValue t
    let (as, rest) ← readAssignments rest
    some ((c, v) :: as, rest)
  | .ident c :: .symbol '=' :: t :: rest => do
    let v ← readValue t
    some ([(c, v)], rest)
  | _ => none

def readConditions : List Token → Option (List (String × String))
  | [.ident c, .symbol '=', .literal s] => some [(c, s)]
  | .ident c :: .symbol '=' :: .literal s :: .word w :: rest =>
    if w = "AND" then do
      let cs ← readConditions rest
      some ((c, s) :: cs)
    else none
  | _ => none

def readInsert (schema table : String) (tokens : List Token) : Option RowStatement := do
  let (columns, rest) ← readIdents tokens
  match rest with
  | .symbol ')' :: .word w :: .symbol '(' :: rest =>
    if w = "VALUES" then do
      let (values, rest) ← readValues rest
      if rest = [.symbol ')'] then some (.insert schema table columns values) else none
    else none
  | _ => none

def readUpdate (schema table : String) (tokens : List Token) : Option RowStatement := do
  let (assignments, rest) ← readAssignments tokens
  match rest with
  | .word w :: rest =>
    if w = "WHERE" then do
      let conditions ← readConditions rest
      some (.update schema table assignments conditions)
    else none
  | _ => none

/-- The one statement a token sequence is, if it is one of these. -/
def readStatement : List Token → Option RowStatement
  | .word a :: .word b :: .ident schema :: .symbol '.' :: .ident table :: .symbol '(' :: rest =>
    if a = "INSERT" ∧ b = "INTO" then readInsert schema table rest else none
  | .word a :: .ident schema :: .symbol '.' :: .ident table :: .word b :: rest =>
    if a = "UPDATE" ∧ b = "SET" then readUpdate schema table rest else none
  | .word a :: .word b :: .ident schema :: .symbol '.' :: .ident table :: .word w :: rest =>
    if a = "DELETE" ∧ b = "FROM" ∧ w = "WHERE" then (readConditions rest).map (.delete schema table) else none
  | _ => none

def readSql (sql : String) : Option RowStatement := (lex sql.toList).bind readStatement

/-! ### What the builders write -/

def valueToken : Option String → Token
  | none => .word "NULL"
  | some s => .literal s

@[simp] theorem readValue_valueToken (v : Option String) : readValue (valueToken v) = some v := by
  cases v <;> rfl

theorem readIdents_intercalate {columns : List String} (nonempty : columns ≠ []) (rest : List Token) :
    readIdents ([Token.symbol ','].intercalate (columns.map fun c => [Token.ident c]) ++ .symbol ')' :: rest) =
      some (columns, .symbol ')' :: rest) := by
  induction columns with
  | nil => exact absurd rfl nonempty
  | cons c columns ih =>
    cases columns with
    | nil => simp [List.intercalate, readIdents]
    | cons d columns =>
      have tail := ih (by simp)
      simp only [List.map_cons, List.intercalate_cons_cons, List.cons_append, List.nil_append] at tail ⊢
      simp only [readIdents, tail, Option.bind_eq_bind, Option.bind_some]

theorem readValues_intercalate {values : List (Option String)} (nonempty : values ≠ []) :
    readValues ([Token.symbol ','].intercalate (values.map fun v => [valueToken v]) ++ [.symbol ')']) =
      some (values, [.symbol ')']) := by
  induction values with
  | nil => exact absurd rfl nonempty
  | cons v values ih =>
    cases values with
    | nil => simp [List.intercalate, readValues]
    | cons w values =>
      have tail := ih (by simp)
      simp only [List.map_cons, List.intercalate_cons_cons, List.cons_append, List.nil_append] at tail ⊢
      simp only [readValues, readValue_valueToken, tail, Option.bind_eq_bind, Option.bind_some]

def assignmentTokens (a : String × Option String) : List Token := [.ident a.1, .symbol '=', valueToken a.2]

def conditionTokens (c : String × String) : List Token := [.ident c.1, .symbol '=', .literal c.2]

theorem readAssignments_intercalate {assignments : List (String × Option String)} (nonempty : assignments ≠ [])
    (w : String) (rest : List Token) :
    readAssignments ([Token.symbol ','].intercalate (assignments.map assignmentTokens) ++ .word w :: rest) =
      some (assignments, .word w :: rest) := by
  induction assignments with
  | nil => exact absurd rfl nonempty
  | cons a assignments ih =>
    cases assignments with
    | nil => simp [List.intercalate, readAssignments, assignmentTokens]
    | cons b assignments =>
      have tail := ih (by simp)
      simp only [List.map_cons, List.intercalate_cons_cons, List.append_assoc, List.cons_append, List.nil_append] at tail ⊢
      simp [readAssignments, assignmentTokens] at tail ⊢
      simp [tail]

theorem readConditions_intercalate {conditions : List (String × String)} (nonempty : conditions ≠ []) :
    readConditions ([Token.word "AND"].intercalate (conditions.map conditionTokens)) = some conditions := by
  induction conditions with
  | nil => exact absurd rfl nonempty
  | cons c conditions ih =>
    cases conditions with
    | nil => simp [List.intercalate, readConditions, conditionTokens]
    | cons d conditions =>
      have tail := ih (by simp)
      simp only [List.map_cons, List.intercalate_cons_cons, List.append_assoc, List.cons_append, List.nil_append] at tail ⊢
      simp [readConditions, conditionTokens] at tail ⊢
      simp [tail]

theorem quoteIdent_reads (name : String) : Reads (quoteIdent name).toList [.ident name] := by
  have reads := Reads.quoted (q := '"') rfl name.toList
  simpa [quoteIdent, quoteWith, SqlLex.quoted] using reads

theorem quoteLiteral_reads (value : String) : Reads (quoteLiteral value).toList [.literal value] := by
  have reads := Reads.quoted (q := '\'') rfl value.toList
  simpa [quoteLiteral, quoteWith, SqlLex.quoted] using reads

def literalText : Option String → String
  | none => "NULL"
  | some s => quoteLiteral s

theorem literalText_reads (v : Option String) : Reads (literalText v).toList [valueToken v] := by
  cases v with
  | none => exact ⟨[], .word "NULL".toList, [.word "NULL"], by decide, rfl, by decide, rfl⟩
  | some s => exact quoteLiteral_reads s

/-! The separators the builders write between names and values. -/

theorem dot_separates : Separates ".".toList [.symbol '.'] := by decide

theorem comma_separates : Separates ", ".toList [.symbol ','] := by decide

theorem equals_separates : Separates " = ".toList [.symbol '='] := by decide

theorem and_separates : Separates " AND ".toList [.word "AND"] := by decide

theorem where_separates : Separates " WHERE ".toList [.word "WHERE"] := by decide

theorem set_separates : Separates " SET ".toList [.word "SET"] := by decide

theorem open_separates : Separates " (".toList [.symbol '('] := by decide

theorem values_separates : Separates ") VALUES (".toList [.symbol ')', .word "VALUES", .symbol '('] := by decide

theorem close_separates : Separates ")".toList [.symbol ')'] := by decide

theorem tableName_reads (schema table : String) :
    Reads (quoteIdent schema ++ "." ++ quoteIdent table).toList [.ident schema, .symbol '.', .ident table] := by
  simp only [String.toList_append]
  exact (quoteIdent_reads schema).append dot_separates (quoteIdent_reads table)

theorem begin_reads (keywords : String) (tokens : List Token) (schema table : String)
    (begins : run .between keywords.toList = some (tokens, .between)) :
    Reads (keywords ++ (quoteIdent schema ++ "." ++ quoteIdent table)).toList
      (tokens ++ [.ident schema, .symbol '.', .ident table]) := by
  rw [String.toList_append]
  exact .prepend begins (tableName_reads schema table)

def assignmentText (a : String × Option String) : String := quoteIdent a.1 ++ " = " ++ literalText a.2

def conditionText (c : String × String) : String := quoteIdent c.1 ++ " = " ++ quoteLiteral c.2

theorem assignment_reads (a : String × Option String) : Reads (assignmentText a).toList (assignmentTokens a) := by
  simp only [assignmentText, String.toList_append]
  exact (quoteIdent_reads a.1).append equals_separates (literalText_reads a.2)

theorem condition_reads (c : String × String) : Reads (conditionText c).toList (conditionTokens c) := by
  simp only [conditionText, String.toList_append]
  exact (quoteIdent_reads c.1).append equals_separates (quoteLiteral_reads c.2)

theorem joined_reads {Item : Type} {text : Item → String} {tokens : Item → List Token} {separator : String}
    {between : List Token} (each : ∀ item, Reads (text item).toList (tokens item))
    (separates : Separates separator.toList between) (items : List Item) :
    Reads (separator.intercalate (items.map text)).toList (between.intercalate (items.map tokens)) := by
  have joined := Reads.intercalate each separates items
  simpa [String.toList_intercalate, Function.comp_def] using joined

def RowStatement.text : RowStatement → String
  | .insert schema table columns values => "INSERT INTO " ++ (quoteIdent schema ++ "." ++ quoteIdent table) ++ " (" ++
      ", ".intercalate (columns.map quoteIdent) ++ ") VALUES (" ++ ", ".intercalate (values.map literalText) ++ ")"
  | .update schema table assignments conditions => "UPDATE " ++ (quoteIdent schema ++ "." ++ quoteIdent table) ++
      " SET " ++ ", ".intercalate (assignments.map assignmentText) ++ " WHERE " ++
      " AND ".intercalate (conditions.map conditionText)
  | .delete schema table conditions => "DELETE FROM " ++ (quoteIdent schema ++ "." ++ quoteIdent table) ++ " WHERE " ++
      " AND ".intercalate (conditions.map conditionText)

/-- No list of the statement is empty. -/
def RowStatement.Formed : RowStatement → Prop
  | .insert _ _ columns values => columns ≠ [] ∧ values ≠ []
  | .update _ _ assignments conditions => assignments ≠ [] ∧ conditions ≠ []
  | .delete _ _ conditions => conditions ≠ []

theorem RowStatement.readSql_text {statement : RowStatement} (formed : statement.Formed) :
    readSql statement.text = some statement := by
  cases statement with
  | insert schema table columns values =>
    have names := joined_reads quoteIdent_reads comma_separates columns
    have literals := joined_reads literalText_reads comma_separates values
    have named := begin_reads "INSERT INTO " [.word "INSERT", .word "INTO"] schema table (by decide)
    have whole := ((named.append open_separates names).append values_separates literals).close close_separates
    simp only [← String.toList_append] at whole
    rw [readSql, RowStatement.text, whole.lex_eq]
    simp only [Option.bind_some, List.append_assoc, List.cons_append, List.nil_append, readStatement, readInsert,
      readIdents_intercalate formed.1, readValues_intercalate formed.2, Option.bind_eq_bind]
    simp
  | update schema table assignments conditions =>
    have named := begin_reads "UPDATE " [.word "UPDATE"] schema table (by decide)
    have whole := (named.append set_separates (joined_reads assignment_reads comma_separates assignments)).append
      where_separates (joined_reads condition_reads and_separates conditions)
    simp only [← String.toList_append] at whole
    rw [readSql, RowStatement.text, whole.lex_eq]
    simp only [Option.bind_some, List.append_assoc, List.cons_append, List.nil_append, readStatement, readUpdate,
      readAssignments_intercalate formed.1, readConditions_intercalate formed.2, Option.bind_eq_bind]
    simp
  | delete schema table conditions =>
    have named := begin_reads "DELETE FROM " [.word "DELETE", .word "FROM"] schema table (by decide)
    have whole := named.append where_separates (joined_reads condition_reads and_separates conditions)
    simp only [← String.toList_append] at whole
    rw [readSql, RowStatement.text, whole.lex_eq]
    simp only [Option.bind_some, List.cons_append, List.nil_append, readStatement, readConditions_intercalate formed]
    simp

/-! ### What a change asks for -/

def Cell.sqlValue : Cell → Option (Option String)
  | .null => some none
  | .text bytes => (fromUtf8 bytes).map some
  | .unchanged => none

def keyMatch (relation : RelationInfo) (keySource : List Cell) (i : Nat) : Option (String × String) :=
  match keySource[i]?.getD .null with
  | .text bytes => (fromUtf8 bytes).map fun s => (relation.columns[i]?.getD "", s)
  | _ => none

def keyMatches (relation : RelationInfo) (keySource : List Cell) : Option (List (String × String)) :=
  if keyedIdentity relation.replicaIdentity = true ∧ relation.keyColumns ≠ [] then
    relation.keyColumns.mapM (keyMatch relation keySource)
  else none

def shippedAssignments : List String → List Cell → Option (List (String × Option String))
  | name :: names, cell :: cells =>
    if cell = .unchanged then shippedAssignments names cells
    else do
      let v ← cell.sqlValue
      let rest ← shippedAssignments names cells
      some ((name, v) :: rest)
  | _, _ => some []

theorem renderCell_eq (cell : Cell) : (renderCell cell).toOption = cell.sqlValue.map literalText := by
  cases cell with
  | null | unchanged => rfl
  | text bytes =>
    simp only [renderCell, Cell.sqlValue]
    cases fromUtf8 bytes <;> rfl

theorem keyCondition_eq (relation : RelationInfo) (keySource : List Cell) (i : Nat) :
    (keyCondition relation keySource i).toOption = (keyMatch relation keySource i).map conditionText := by
  unfold keyCondition keyMatch
  generalize keySource[i]?.getD .null = cell
  cases cell with
  | null | unchanged => rfl
  | text bytes =>
    simp only [renderCell]
    cases fromUtf8 bytes <;> rfl

theorem mapM_rendered {Item Value : Type} {render : Item → Except ApplyError String} {value : Item → Option Value}
    {text : Value → String} (each : ∀ item, (render item).toOption = (value item).map text) (items : List Item) :
    (items.mapM render).toOption = (items.mapM value).map (List.map text) := by
  induction items with
  | nil => rfl
  | cons item rest ih =>
    rw [List.mapM_cons, List.mapM_cons, toOption_bind, each item]
    simp only [toOption_bind, ih]
    cases value item <;> cases rest.mapM value <;> rfl

theorem checkLen_eq : (checkLen relation cells).toOption = guard (cells.length = relation.columns.length) := by
  unfold checkLen
  split <;> simp_all [Except.toOption, guard]

theorem buildInsert_eq : (buildInsert relation cells).toOption = (do
    guard (cells.length = relation.columns.length)
    let values ← cells.mapM Cell.sqlValue
    some (RowStatement.insert relation.schema relation.table relation.columns values).text) := by
  unfold buildInsert
  simp only [toOption_bind, checkLen_eq, mapM_rendered renderCell_eq]
  cases cells.mapM Cell.sqlValue <;> simp [RowStatement.text, Except.toOption, String.append_assoc]

theorem buildWhere_eq : (buildWhere relation keySource).toOption =
    (keyMatches relation keySource).map fun conditions => " AND ".intercalate (conditions.map conditionText) := by
  unfold buildWhere keyMatches
  cases keyedIdentity relation.replicaIdentity with
  | false => simp [Except.toOption]
  | true =>
    by_cases keys : relation.keyColumns = []
    · simp [keys, Except.toOption]
    · simp only [keys, List.isEmpty_iff, Bool.not_true, Bool.false_eq_true, if_false, ne_eq, not_false_eq_true, and_true,
        if_true, toOption_bind, mapM_rendered (keyCondition_eq relation keySource)]
      cases relation.keyColumns.mapM (keyMatch relation keySource) <;> rfl

theorem buildAssignments_eq {names : List String} :
    (buildAssignments names cells).toOption = (shippedAssignments names cells).map (List.map assignmentText) := by
  induction names generalizing cells with
  | nil => rfl
  | cons name names ih =>
    cases cells with
    | nil => rfl
    | cons cell cells =>
      simp only [buildAssignments, shippedAssignments]
      split
      · exact ih
      · simp only [toOption_bind, renderCell_eq, ih]
        cases cell.sqlValue <;> cases shippedAssignments names cells <;> rfl

theorem buildUpdate_eq {new : List Cell} : (buildUpdate relation keySource new).toOption = (do
    guard (keySource.length = relation.columns.length ∧ new.length = relation.columns.length)
    let assignments ← shippedAssignments relation.columns new
    if assignments = [] then some none else do
      let conditions ← keyMatches relation keySource
      some (some (RowStatement.update relation.schema relation.table assignments conditions).text)) := by
  unfold buildUpdate
  simp only [toOption_bind, checkLen_eq, buildAssignments_eq]
  by_cases first : keySource.length = relation.columns.length <;> by_cases second : new.length = relation.columns.length <;>
    simp only [first, second, guard, and_self, and_false, false_and, if_true, if_false] <;> try rfl
  rcases shippedAssignments relation.columns new with _ | (_ | ⟨a, rest⟩)
  · rfl
  · rfl
  · simp only [Option.map_some, Option.bind_some, List.map_cons, List.isEmpty_cons, Bool.false_eq_true, if_false,
      toOption_bind, buildWhere_eq]
    cases keyMatches relation keySource <;> simp [RowStatement.text, Except.toOption, String.append_assoc]

theorem buildDelete_eq : (buildDelete relation keySource).toOption = (do
    guard (keySource.length = relation.columns.length)
    let conditions ← keyMatches relation keySource
    some (RowStatement.delete relation.schema relation.table conditions).text) := by
  unfold buildDelete
  simp only [toOption_bind, checkLen_eq, buildWhere_eq]
  cases keyMatches relation keySource <;> simp [RowStatement.text, Except.toOption, String.append_assoc]

theorem RelationMap.find_eq {relations : RelationMap} {oid : Oid} : (relations.find oid).toOption = relations oid := by
  unfold RelationMap.find
  split <;> simp_all [Except.toOption]

theorem keyMatches_some {conditions : List (String × String)} (matched : keyMatches relation keySource = some conditions) :
    conditions ≠ [] ∧ relation.keyColumns.mapM (keyMatch relation keySource) = some conditions := by
  unfold keyMatches at matched
  split at matched
  · rename_i keyed
    refine ⟨?_, matched⟩
    rintro rfl
    exact keyed.2 (List.length_eq_zero_iff.mp (mapM_length matched).symm)
  · cases matched

theorem values_nonempty {values : List (Option String)} (columns : relation.columns ≠ [])
    (length : cells.length = relation.columns.length) (mapped : cells.mapM Cell.sqlValue = some values) : values ≠ [] := by
  rintro rfl
  rw [← mapM_length mapped, List.length_nil] at length
  exact columns (List.length_eq_zero_iff.mp length.symm)

theorem buildInsert_readSql (columns : relation.columns ≠ []) (built : buildInsert relation cells = .ok sql) :
    ∃ values, cells.mapM Cell.sqlValue = some values ∧
      readSql sql = some (.insert relation.schema relation.table relation.columns values) := by
  have text := @buildInsert_eq relation cells
  rw [built] at text
  obtain ⟨_, length, text⟩ := Option.bind_eq_some_iff.mp text.symm
  obtain ⟨values, mapped, text⟩ := Option.bind_eq_some_iff.mp text
  cases text
  rw [Option.guard_eq_some'] at length
  exact ⟨values, mapped, RowStatement.readSql_text ⟨columns, values_nonempty columns length mapped⟩⟩

theorem buildUpdate_readSql {new : List Cell} {sql : Option String}
    (built : buildUpdate relation keySource new = .ok sql) :
    new.length = relation.columns.length ∧ ∃ values, shippedAssignments relation.columns new = some values ∧
      ((values = [] ∧ sql = none) ∨ ∃ text conditions, sql = some text ∧
        relation.keyColumns.mapM (keyMatch relation keySource) = some conditions ∧
        readSql text = some (.update relation.schema relation.table values conditions)) := by
  have text := @buildUpdate_eq relation keySource new
  rw [built] at text
  obtain ⟨_, length, text⟩ := Option.bind_eq_some_iff.mp text.symm
  obtain ⟨values, shipped, text⟩ := Option.bind_eq_some_iff.mp text
  rw [Option.guard_eq_some'] at length
  refine ⟨length.2, values, shipped, ?_⟩
  split at text
  · cases text
    exact .inl ⟨by assumption, rfl⟩
  · rename_i assigns
    obtain ⟨conditions, matched, text⟩ := Option.bind_eq_some_iff.mp text
    cases text
    obtain ⟨some_key, matched⟩ := keyMatches_some matched
    exact .inr ⟨_, conditions, rfl, matched, RowStatement.readSql_text ⟨assigns, some_key⟩⟩

theorem buildDelete_readSql (built : buildDelete relation keySource = .ok sql) :
    ∃ conditions, relation.keyColumns.mapM (keyMatch relation keySource) = some conditions ∧
      readSql sql = some (.delete relation.schema relation.table conditions) := by
  have text := @buildDelete_eq relation keySource
  rw [built] at text
  obtain ⟨_, _, text⟩ := Option.bind_eq_some_iff.mp text.symm
  obtain ⟨conditions, matched, text⟩ := Option.bind_eq_some_iff.mp text
  cases text
  obtain ⟨some_key, matched⟩ := keyMatches_some matched
  exact ⟨conditions, matched, RowStatement.readSql_text some_key⟩

end PgShard
