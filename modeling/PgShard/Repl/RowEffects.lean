import PgShard.Lib.UniqueMatch
import PgShard.Repl.SourceRows
import PgShard.Repl.TargetTables

namespace PgShard

variable {cells : List Cell} {values : List (String × Option String)}

def Cell.ofValue : Option (List UInt8) → Cell
  | none => .null
  | some bytes => .text bytes

theorem Cell.sqlValue_ofValue {value : Option (List UInt8)} {v : Option String}
    (shown : (Cell.ofValue value).sqlValue = some v) : v.map literalBytes = value := by
  cases value with
  | none =>
    cases shown
    rfl
  | some bytes =>
    simp only [Cell.ofValue, Cell.sqlValue, Option.map_eq_some_iff] at shown
    obtain ⟨s, decoded, rfl⟩ := shown
    simp [literalBytes_of_fromUtf8 decoded]

theorem mapM_sqlValue_ofValue {row : Row} {values : List (Option String)}
    (shown : (row.map Cell.ofValue).mapM Cell.sqlValue = some values) :
    values.map (Option.map literalBytes) = row := by
  induction row generalizing values with
  | nil =>
    cases shown
    rfl
  | cons value rest ih =>
    simp only [List.map_cons, List.mapM_cons, Option.bind_eq_bind] at shown
    obtain ⟨v, own, shown⟩ := Option.bind_eq_some_iff.mp shown
    obtain ⟨others, tail, shown⟩ := Option.bind_eq_some_iff.mp shown
    cases shown
    rw [List.map_cons, Cell.sqlValue_ofValue own, ih tail]

/-- The cells of an update: each is the new value, or unshipped because the
old value stays. -/
def UpdatedCells (old new : Row) (cells : List Cell) : Prop :=
  ∀ i : Nat, cells[i]? = new[i]?.map Cell.ofValue ∨ cells[i]? = some .unchanged ∧ old[i]? = new[i]?

def IdentityOf (relation : Relation) (old : Row) (keySource : List Cell) : Prop :=
  ∀ (i : Nat) (column : RelationColumn) (bytes : List UInt8), relation.columns[i]? = some column →
    column.isKey = true → keySource[i]? = some (.text bytes) → old[i]? = some (some bytes)

theorem lookup_shippedAssignments {names : List String} (distinct : names.Nodup)
    (length : cells.length = names.length)
    (shipped : shippedAssignments names cells = some values) (c : String) :
    values.lookup c = (cells[names.idxOf c]?).bind Cell.sqlValue := by
  induction names generalizing cells values with
  | nil =>
    cases shipped
    simp [List.length_eq_zero_iff.mp length]
  | cons name names ih =>
    obtain ⟨cell, cells, rfl⟩ := List.exists_cons_of_length_eq_add_one length
    have lengths : cells.length = names.length := by simpa using length
    obtain ⟨fresh, rest⟩ := List.nodup_cons.mp distinct
    have missing : cells[names.idxOf name]? = none := by
      rw [List.idxOf_eq_length fresh]
      exact List.getElem?_eq_none (by omega)
    simp only [shippedAssignments] at shipped
    by_cases here : c = name
    · subst here
      split at shipped
      · rename_i unchanged
        rw [ih rest lengths shipped, missing]
        simp [unchanged, Cell.sqlValue]
      · simp only [Option.bind_eq_bind] at shipped
        obtain ⟨v, own, shipped⟩ := Option.bind_eq_some_iff.mp shipped
        obtain ⟨others, tail, shipped⟩ := Option.bind_eq_some_iff.mp shipped
        cases shipped
        simp [own]
    · have position : (name :: names).idxOf c = names.idxOf c + 1 := List.idxOf_cons_ne names (Ne.symm here)
      rw [position, List.getElem?_cons_succ]
      split at shipped
      · exact ih rest lengths shipped
      · simp only [Option.bind_eq_bind] at shipped
        obtain ⟨v, own, shipped⟩ := Option.bind_eq_some_iff.mp shipped
        obtain ⟨others, tail, shipped⟩ := Option.bind_eq_some_iff.mp shipped
        cases shipped
        have apart : (c == name) = false := by simpa using here
        rw [List.lookup_cons, apart, ih rest lengths tail]

theorem shippedAssignments_shown {names : List String} (length : cells.length = names.length)
    (shipped : shippedAssignments names cells = some values) {cell : Cell}
    (member : cell ∈ cells) (sent : cell ≠ .unchanged) : ∃ v, cell.sqlValue = some v := by
  induction names generalizing cells values with
  | nil => simp [List.length_eq_zero_iff.mp length] at member
  | cons name names ih =>
    obtain ⟨first, cells, rfl⟩ := List.exists_cons_of_length_eq_add_one length
    have lengths : cells.length = names.length := by simpa using length
    simp only [shippedAssignments] at shipped
    split at shipped
    · rename_i unchanged
      rcases List.mem_cons.mp member with rfl | later
      · exact absurd unchanged sent
      · exact ih lengths shipped later
    · simp only [Option.bind_eq_bind] at shipped
      obtain ⟨v, own, shipped⟩ := Option.bind_eq_some_iff.mp shipped
      obtain ⟨others, tail, _⟩ := Option.bind_eq_some_iff.mp shipped
      rcases List.mem_cons.mp member with rfl | later
      · exact ⟨v, own⟩
      · exact ih lengths tail later

theorem assign_shipped {columns : List String} (distinct : columns.Nodup) {old new : Row}
    (length : cells.length = columns.length) (oldLength : old.length = columns.length)
    (cellsOf : UpdatedCells old new cells)
    (shipped : shippedAssignments columns cells = some values) :
    TargetServer.assign values (old.named columns) = new.named columns := by
  funext c
  have assigned := lookup_shippedAssignments distinct length shipped c
  simp only [TargetServer.assign, Row.named]
  rcases cellsOf (columns.idxOf c) with whole | ⟨unchanged, same⟩
  · rw [whole] at assigned
    cases stored : new[columns.idxOf c]? with
    | none =>
      rw [stored] at whole assigned
      have beyond := List.getElem?_eq_none_iff.mp whole
      have absent : old[columns.idxOf c]? = none := List.getElem?_eq_none (by omega)
      have nothing : values.lookup c = none := assigned
      simp only [nothing, absent]
    | some value =>
      rw [stored] at whole assigned
      have member : Cell.ofValue value ∈ cells := List.mem_of_getElem? whole
      obtain ⟨v, shown⟩ := shippedAssignments_shown length shipped member (by cases value <;> simp [Cell.ofValue])
      have found : values.lookup c = some v := assigned.trans shown
      simp only [found, Cell.sqlValue_ofValue shown, Option.join_some]
  · rw [unchanged] at assigned
    have nothing : values.lookup c = none := assigned
    simp only [nothing, same]

theorem mem_keyPositions {k i : Nat} {columns : List RelationColumn} (member : i ∈ keyPositions k columns) :
    ∃ j column, i = k + j ∧ columns[j]? = some column ∧ column.isKey = true := by
  induction columns generalizing k with
  | nil => cases member
  | cons column rest ih =>
    simp only [keyPositions] at member
    have later : i ∈ keyPositions (k + 1) rest →
        ∃ j c, i = k + j ∧ (column :: rest)[j]? = some c ∧ c.isKey = true := by
      intro inRest
      obtain ⟨j, c, rfl, found, key⟩ := ih inRest
      exact ⟨j + 1, c, by omega, by simpa using found, key⟩
    split at member
    · rename_i key
      rcases List.mem_cons.mp member with rfl | inRest
      · exact ⟨0, column, rfl, rfl, key⟩
      · exact later inRest
    · exact later member

section

variable (server : TargetServer) {relation : Relation}

theorem matching_identity (distinct : (relation.columns.map RelationColumn.name).Nodup) {old : Row}
    {keySource : List Cell} (identity : IdentityOf relation old keySource) {conditions : List (String × String)}
    (built : (RelationInfo.ofMsg relation).keyColumns.mapM (keyMatch (.ofMsg relation) keySource) = some conditions)
    (table : String × String) :
    server.matching table conditions (old.named (relation.columns.map RelationColumn.name)) = true := by
  refine List.all_eq_true.mpr fun condition member => ?_
  obtain ⟨i, key, matched⟩ := Checked.exists_of_forall₂ (Checked.forall₂_of_mapM built).flip member
  obtain ⟨j, column, rfl, found, isKey⟩ := mem_keyPositions key
  simp only [Nat.zero_add] at matched
  unfold keyMatch at matched
  split at matched
  · rename_i bytes shown
    have cell : keySource[j]? = some (.text bytes) := by
      cases source : keySource[j]? with
      | none => simp [source] at shown
      | some c => simpa [source] using shown
    obtain ⟨s, decoded, rfl⟩ := Option.map_eq_some_iff.mp matched
    have name : (relation.columns.map RelationColumn.name)[j]? = some column.name := by simp [found]
    have stored := identity j column bytes found isKey cell
    simp only [RelationInfo.ofMsg, name, Option.getD_some]
    rw [Row.named_getElem distinct name, stored, literalBytes_of_fromUtf8 decoded]
    simp [server.equal_self]
  · cases matched

end

end PgShard
