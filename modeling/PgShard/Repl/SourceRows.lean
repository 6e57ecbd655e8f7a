import PgShard.Repl.Copy

namespace PgShard

/-- The published tables of a source database, each under its own name and
with distinct column names. -/
structure SourceSchema where
  relation : Oid → Option Relation
  oid_eq : ∀ {oid r}, relation oid = some r → r.oid = oid
  unique : ∀ {oid other r s}, relation oid = some r → relation other = some s → r.namespace = s.namespace →
    r.name = s.name → oid = other
  columns_nodup : ∀ {oid r}, relation oid = some r → (r.columns.map RelationColumn.name).Nodup

abbrev SourceTables := Oid → Multiset Row

/-- One row changed by a transaction of the source. -/
inductive RowChange
  | insert (oid : Oid) (row : Row)
  | update (oid : Oid) (old new : Row)
  | delete (oid : Oid) (old : Row)

def RowChange.oid : RowChange → Oid
  | .insert oid _ => oid
  | .update oid _ _ => oid
  | .delete oid _ => oid

def RowChange.apply (tables : SourceTables) : RowChange → SourceTables
  | .insert oid row => Function.update tables oid (row ::ₘ tables oid)
  | .update oid old new => Function.update tables oid (new ::ₘ (tables oid).erase old)
  | .delete oid old => Function.update tables oid ((tables oid).erase old)

def SourceSchema.Fits (schema : SourceSchema) (oid : Oid) (row : Row) : Prop :=
  ∃ relation, schema.relation oid = some relation ∧ row.length = relation.columns.length

/-- What a change may be in a given state: new rows fit their table, old ones
are in it. -/
def RowChange.Valid (schema : SourceSchema) (tables : SourceTables) : RowChange → Prop
  | .insert oid row => schema.Fits oid row
  | .update oid old new => old ∈ tables oid ∧ schema.Fits oid new
  | .delete oid old => old ∈ tables oid

def applyAll (tables : SourceTables) (changes : List RowChange) : SourceTables := changes.foldl RowChange.apply tables

/-- A sequence of changes each valid where it happens. -/
def ValidFrom (schema : SourceSchema) : SourceTables → List RowChange → Prop
  | _, [] => True
  | tables, change :: rest => change.Valid schema tables ∧ ValidFrom schema (change.apply tables) rest

structure SourceTxn where
  commitLsn : Nat
  endLsn : Nat
  changes : List RowChange

/-- The committed transactions of a source in commit order, from some initial
rows on. -/
structure SourceHistory (schema : SourceSchema) where
  initial : SourceTables
  txns : List SourceTxn
  fits : ∀ oid, ∀ row ∈ initial oid, schema.Fits oid row
  valid : ValidFrom schema initial (txns.flatMap SourceTxn.changes)
  positive : ∀ txn ∈ txns, 0 < txn.commitLsn
  increasing : txns.Pairwise fun a b => a.commitLsn < b.commitLsn

def SourceHistory.after {schema : SourceSchema} (history : SourceHistory schema) (n : Nat) : SourceTables :=
  applyAll history.initial ((history.txns.take n).flatMap SourceTxn.changes)

/-! ### What pgoutput sends for it -/

def wire : Option (List UInt8) → TupleColumn
  | none => .null
  | some bytes => .text bytes

/-- The old tuple under a key identity: the key columns' values, the others
NULL. -/
def keyTuple (relation : Relation) (old : Row) : TupleData :=
  List.zipWith (fun column value => if column.isKey then wire value else .null) relation.columns old

/-- The new tuple of an update; `toasted` columns keep their stored value and
are not sent. -/
def newTuple (toasted : Nat → Bool) (new : Row) : TupleData :=
  new.mapIdx fun i value => if toasted i then .unchangedToast else wire value

/-- The row message of a change, by the table's replica identity. An update
that leaves the identity alone sends no old tuple under a key identity. -/
inductive RowChange.Ships (relation : Relation) : RowChange → LogicalRepMsg → Prop
  | insert {oid : Oid} {row : Row} : Ships relation (.insert oid row) (.insert oid (row.map wire))
  | updateKey {oid : Oid} {old new : Row} {toasted : Nat → Bool} :
      keyedIdentity relation.replicaIdentity = true → (∀ i, toasted i = true → old[i]? = new[i]?) →
      Ships relation (.update oid old new) (.update oid (some (keyTuple relation old)) none (newTuple toasted new))
  | updateSameKey {oid : Oid} {old new : Row} {toasted : Nat → Bool} :
      keyedIdentity relation.replicaIdentity = true → (∀ i, toasted i = true → old[i]? = new[i]?) →
      (∀ (i : Nat) (column : RelationColumn), relation.columns[i]? = some column → column.isKey = true →
        old[i]? = new[i]?) →
      Ships relation (.update oid old new) (.update oid none none (newTuple toasted new))
  | updateFull {oid : Oid} {old new : Row} {toasted : Nat → Bool} :
      relation.replicaIdentity = 'f' → (∀ i, toasted i = true → old[i]? = new[i]?) →
      Ships relation (.update oid old new) (.update oid none (some (old.map wire)) (newTuple toasted new))
  | deleteKey {oid : Oid} {old : Row} : keyedIdentity relation.replicaIdentity = true →
      Ships relation (.delete oid old) (.delete oid (some (keyTuple relation old)) none)
  | deleteFull {oid : Oid} {old : Row} : relation.replicaIdentity = 'f' →
      Ships relation (.delete oid old) (.delete oid none (some (old.map wire)))

/-- A message between the row messages: an origin, a type, a logical message,
or a table's descriptor. -/
inductive SourceSchema.Between (schema : SourceSchema) : LogicalRepMsg → Prop
  | origin (lsn : Nat) (name : String) : Between schema (.origin lsn name)
  | type (oid : Oid) : Between schema (.type oid)
  | message (transactional : Bool) (lsn : Nat) (tag : String) (content : List UInt8) :
      Between schema (.message transactional lsn tag content)
  | relation {oid : Oid} {r : Relation} : schema.relation oid = some r → Between schema (.relation r)

/-- The messages that carry a sequence of changes, in order. -/
inductive SourceSchema.Carries (schema : SourceSchema) : List RowChange → List LogicalRepMsg → Prop
  | done : Carries schema [] []
  | between {changes : List RowChange} {msg : LogicalRepMsg} {rest : List LogicalRepMsg} :
      schema.Between msg → Carries schema changes rest → Carries schema changes (msg :: rest)
  | change {c : RowChange} {changes : List RowChange} {relation : Relation} {msg : LogicalRepMsg}
      {rest : List LogicalRepMsg} : schema.relation c.oid = some relation → c.Ships relation msg →
      Carries schema changes rest → Carries schema (c :: changes) (msg :: rest)

/-- The messages of whole transactions, one after the other. -/
inductive SourceSchema.Streams (schema : SourceSchema) : List SourceTxn → List LogicalRepMsg → Prop
  | done : Streams schema [] []
  | txn {t : SourceTxn} {txns : List SourceTxn} {body rest : List LogicalRepMsg} (finalLsn : Nat) :
      schema.Carries t.changes body → Streams schema txns rest →
      Streams schema (t :: txns) (.begin finalLsn :: body ++ .commit t.commitLsn t.endLsn :: rest)

/-! ### Facts about histories -/

section

variable {schema : SourceSchema} {tables : SourceTables}

theorem applyAll_append (first second : List RowChange) :
    applyAll tables (first ++ second) = applyAll (applyAll tables first) second :=
  List.foldl_append

theorem ValidFrom.append {first second : List RowChange} (valid : ValidFrom schema tables (first ++ second)) :
    ValidFrom schema (applyAll tables first) second := by
  induction first generalizing tables with
  | nil => exact valid
  | cons change rest ih => exact ih valid.2

theorem ValidFrom.left {first second : List RowChange} (valid : ValidFrom schema tables (first ++ second)) :
    ValidFrom schema tables first := by
  induction first generalizing tables with
  | nil => trivial
  | cons change rest ih => exact ⟨valid.1, ih valid.2⟩

theorem RowChange.apply_fits {change : RowChange} (fits : ∀ oid, ∀ row ∈ tables oid, schema.Fits oid row)
    (valid : change.Valid schema tables) : ∀ oid, ∀ row ∈ change.apply tables oid, schema.Fits oid row := by
  intro oid row member
  cases change with
  | insert o new =>
    simp only [RowChange.apply, Function.update_apply] at member
    split at member
    · rename_i same
      subst same
      rcases Multiset.mem_cons.mp member with rfl | old
      · exact valid
      · exact fits _ _ old
    · exact fits _ _ member
  | update o old new =>
    simp only [RowChange.apply, Function.update_apply] at member
    split at member
    · rename_i same
      subst same
      rcases Multiset.mem_cons.mp member with rfl | kept
      · exact valid.2
      · exact fits _ _ (Multiset.mem_of_mem_erase kept)
    · exact fits _ _ member
  | delete o old =>
    simp only [RowChange.apply, Function.update_apply] at member
    split at member
    · rename_i same
      subst same
      exact fits _ _ (Multiset.mem_of_mem_erase member)
    · exact fits _ _ member

theorem applyAll_fits {changes : List RowChange} (fits : ∀ oid, ∀ row ∈ tables oid, schema.Fits oid row)
    (valid : ValidFrom schema tables changes) : ∀ oid, ∀ row ∈ applyAll tables changes oid, schema.Fits oid row := by
  induction changes generalizing tables with
  | nil => exact fits
  | cons change rest ih => exact ih (RowChange.apply_fits fits valid.1) valid.2

theorem SourceHistory.after_fits (history : SourceHistory schema) (n : Nat) :
    ∀ oid, ∀ row ∈ history.after n oid, schema.Fits oid row := by
  refine applyAll_fits history.fits ?_
  have valid := history.valid
  rw [← List.take_append_drop n history.txns, List.flatMap_append] at valid
  exact valid.left

theorem SourceHistory.after_add (history : SourceHistory schema) (n m : Nat) :
    history.after (n + m) =
      applyAll (history.after n) (((history.txns.drop n).take m).flatMap SourceTxn.changes) := by
  rw [SourceHistory.after, List.take_add, List.flatMap_append, applyAll_append]
  rfl

theorem SourceHistory.valid_between (history : SourceHistory schema) (n m : Nat) :
    ValidFrom schema (history.after n) (((history.txns.drop n).take m).flatMap SourceTxn.changes) := by
  have valid := history.valid
  rw [← List.take_append_drop (n + m) history.txns, List.take_add, List.flatMap_append, List.flatMap_append] at valid
  exact valid.left.append

end

end PgShard
