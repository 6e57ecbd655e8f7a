import Mathlib

namespace PgShard

/- WAL positions (`Lsn`, unsigned 64-bit values in the source) are plain
natural numbers; where a conversion to a signed column matters it is explicit. -/

abbrev Oid := Nat

inductive TupleColumn
  | null
  | unchangedToast
  | text (bytes : List UInt8)
  | binary (bytes : List UInt8)
  deriving DecidableEq

abbrev TupleData := List TupleColumn

structure RelationColumn where
  flags : UInt8
  name : String
  typeOid : Oid
  typeModifier : Int32
  deriving DecidableEq

def RelationColumn.isKey (c : RelationColumn) : Bool := c.flags &&& 1 == 1

/-- A published table as a Relation message describes it; `replicaIdentity`
is the letter of `relreplident`. -/
structure Relation where
  oid : Oid
  «namespace» : String
  name : String
  replicaIdentity : Char
  columns : List RelationColumn
  deriving DecidableEq

/-- The messages of streamed and two-phase transactions, none of which is
applied. -/
inductive StreamedKind
  | streamStart | streamStop | streamCommit | streamAbort | beginPrepare | prepare | commitPrepared
  | streamPrepare | rollbackPrepared
  deriving DecidableEq

/-- A decoded logical-replication message, with the fields that are read. -/
inductive LogicalRepMsg
  | begin (finalLsn : Nat)
  | message (transactional : Bool) (lsn : Nat) (tag : String) (content : List UInt8)
  | commit (commitLsn endLsn : Nat)
  | origin (commitLsn : Nat) (name : String)
  | relation (r : Relation)
  | type (oid : Oid)
  | insert (relOid : Oid) (newTuple : TupleData)
  | update (relOid : Oid) (key old : Option TupleData) (newTuple : TupleData)
  | delete (relOid : Oid) (key old : Option TupleData)
  | truncate (relations : List Oid)
  | streamed (kind : StreamedKind)

end PgShard
