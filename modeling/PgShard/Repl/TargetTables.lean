import PgShard.Repl.Copy
import PgShard.Repl.SqlText

namespace PgShard

abbrev NamedRow := String → Option (List UInt8)

def Row.named (columns : List String) (row : Row) : NamedRow := fun c => (row[columns.idxOf c]?).join

abbrev TargetTables := String × String → Multiset NamedRow

def literalBytes (s : String) : List UInt8 := s.toUTF8.data.toList

/-- PostgreSQL on the target side: which statements it refuses (a violated
constraint, a value its type does not accept), and the equality of a column's
type on printed values. -/
structure TargetServer where
  refuses : RowStatement → TargetTables → Bool
  refusesCopy : String × String → List Row → TargetTables → Bool
  equal : String × String → String → List UInt8 → List UInt8 → Bool
  equal_self : ∀ table column value, equal table column value value = true

namespace TargetServer

variable (server : TargetServer)

/-- The WHERE clause of a statement; a NULL never equals a literal. -/
def matching (table : String × String) (conditions : List (String × String)) (row : NamedRow) : Bool :=
  conditions.all fun c => (row c.1).any fun v => server.equal table c.1 v (literalBytes c.2)

def assign (assignments : List (String × Option String)) (row : NamedRow) : NamedRow :=
  fun c => match assignments.lookup c with
    | some v => v.map literalBytes
    | none => row c

def effect (tables : TargetTables) : RowStatement → TargetTables × Nat
  | .insert schema table columns values =>
    (Function.update tables (schema, table)
      (Row.named columns (values.map (Option.map literalBytes)) ::ₘ tables (schema, table)), 1)
  | .update schema table assignments conditions =>
    let found := server.matching (schema, table) conditions
    (Function.update tables (schema, table)
      ((tables (schema, table)).map fun row => if found row then assign assignments row else row),
      (tables (schema, table)).countP (found · = true))
  | .delete schema table conditions =>
    let found := server.matching (schema, table) conditions
    (Function.update tables (schema, table) ((tables (schema, table)).filter (found · = false)),
      (tables (schema, table)).countP (found · = true))

/-- The target as the applier drives it: it reads the text of a statement and
runs what it says. -/
def db : TargetDb TargetTables where
  execute sql tables := (readSql sql).bind fun statement =>
    if server.refuses statement tables then none else some (server.effect tables statement)

def truncate (tables : TargetTables) (table : String × String) : TargetTables := Function.update tables table 0

def copyLine (line : List UInt8) : Row :=
  ((if line.getLast? = some 10 then line.dropLast else line).splitOn 9).map copyFieldUnescape

/-- COPY FROM STDIN in text format: all lines or none. -/
def copyFrom (table : String × String) (columns : List String) (lines : List (List UInt8)) (tables : TargetTables) :
    Option TargetTables :=
  let rows := lines.map copyLine
  if rows.any (fun row => row.length != columns.length) || server.refusesCopy table rows tables then none
  else some (Function.update tables table (tables table + (rows : Multiset Row).map (Row.named columns)))

end TargetServer

theorem literalBytes_of_fromUtf8 {bytes : List UInt8} {s : String} (decoded : fromUtf8 bytes = some s) :
    literalBytes s = bytes := by
  unfold fromUtf8 String.fromUTF8? at decoded
  split at decoded
  · cases decoded
    rfl
  · cases decoded

theorem Row.named_getElem {columns : List String} (distinct : columns.Nodup) {i : Nat} {c : String}
    (at_i : columns[i]? = some c) (row : Row) : row.named columns c = (row[i]?).join := by
  obtain ⟨bound, rfl⟩ := List.getElem?_eq_some_iff.mp at_i
  rw [Row.named, distinct.idxOf_getElem i bound]

end PgShard
