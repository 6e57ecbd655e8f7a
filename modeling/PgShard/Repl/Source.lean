import PgShard.Lib.Checked
import PgShard.Lib.CheckpointedLog
import PgShard.Repl.Apply

namespace PgShard

def LogicalRepMsg.isChange : LogicalRepMsg → Bool
  | .insert _ _ | .update _ _ _ _ | .delete _ _ _ | .truncate _ | .streamed _ => true
  | _ => false

/-- A message that may stand between changes without being one. -/
def LogicalRepMsg.isMetadata : LogicalRepMsg → Bool
  | .relation _ | .type _ | .origin _ _ | .message _ _ _ _ => true
  | _ => false

def announce (relations : RelationMap) : LogicalRepMsg → RelationMap
  | .relation r => relations.insert r.oid (.ofMsg r)
  | _ => relations

def bufferOne (msg : LogicalRepMsg) : Except ApplyError (List PendingChange) :=
  match msg with
  | .truncate _ => .error (.unsupported "TRUNCATE apply")
  | .streamed _ => .error (.unsupported "streamed or two-phase transactions")
  | _ => (pendingChange msg).map Option.toList

def bufferAll : List LogicalRepMsg → Except ApplyError (List PendingChange)
  | [] => .ok []
  | msg :: rest => do
    let ps ← bufferOne msg
    let qs ← bufferAll rest
    .ok (ps ++ qs)

/-- A committed transaction of the source, with the descriptors under which
its changes are published. -/
structure Txn where
  commitLsn : Nat
  endLsn : Nat
  changes : List LogicalRepMsg
  relations : RelationMap

/-- What applying the transaction once does to the tables. -/
def Txn.effect {Tables : Type} (db : TargetDb Tables) (tables : Tables) (txn : Txn) : Except ApplyError Tables := do
  let pending ← bufferAll txn.changes
  let statements ← buildStatements txn.relations pending
  runStatements db statements tables

/-- The commit records of a source, as WAL orders them: positions are positive
and below the signed limit, and a transaction ends before the next commits.
`origin` is the position the replication slot was created at. -/
structure SourceLog where
  txns : List Txn
  origin : Nat
  increasing : CheckpointedLog.Increasing Txn.commitLsn txns
  positive : ∀ txn ∈ txns, 0 < txn.commitLsn
  representable : ∀ txn ∈ txns, txn.commitLsn < 2 ^ 63 ∧ txn.endLsn < 2 ^ 64
  commitBeforeEnd : ∀ txn ∈ txns, txn.commitLsn < txn.endLsn
  endBeforeNext : ∀ {i : Nat} {txn next : Txn}, txns[i]? = some txn → txns[i + 1]? = some next →
    txn.endLsn ≤ next.commitLsn
  afterOrigin : ∀ txn ∈ txns, origin ≤ txn.commitLsn

/-- The tables after every transaction at or below the checkpoint, each once
and in commit order. -/
def SourceLog.replay {Tables : Type} (log : SourceLog) (db : TargetDb Tables) (initial : Tables)
    (checkpoint : Nat) : Except ApplyError Tables :=
  (CheckpointedLog.upTo Txn.commitLsn checkpoint log.txns).foldlM (Txn.effect db) initial

/-- The messages by which a session that has announced some descriptors sends
a transaction: Begin, its changes in order with metadata in between, Commit.
At each change and at the commit the relation is announced as it is published:
a transaction that describes it anew between its changes is not one of these. -/
structure Txn.Sends (txn : Txn) (announced : RelationMap) (body : List LogicalRepMsg) : Prop where
  shape : ∀ msg ∈ body, msg.isMetadata = true ∨ msg.isChange = true
  changes : body.filter LogicalRepMsg.isChange = txn.changes
  described : ∀ {pending : List PendingChange} {change : PendingChange}, bufferAll txn.changes = .ok pending →
    change ∈ pending → body.foldl announce announced change.relOid = txn.relations change.relOid
  settled : ∀ before msg after, body = before ++ msg :: after → ∀ ps, bufferOne msg = .ok ps → ∀ change ∈ ps,
    before.foldl announce announced change.relOid = txn.relations change.relOid

section

variable {a b : Applier} {msg : LogicalRepMsg} {body : List LogicalRepMsg}

theorem handle_body (inBody : msg.isMetadata = true ∨ msg.isChange = true) (run : a.handle msg = .ok b) :
    ∃ ps, bufferOne msg = .ok ps ∧ b.pending = a.pending ++ ps ∧ b.relations = announce a.relations msg ∧
      b.checkpoint = a.checkpoint ∧ b.ack = a.ack := by
  cases msg with
  | begin | commit => simp [LogicalRepMsg.isMetadata, LogicalRepMsg.isChange] at inBody
  | truncate | streamed => cases run
  | relation r | type | origin | message =>
    cases run
    exact ⟨[], rfl, by simp, rfl, rfl, rfl⟩
  | insert | update | delete =>
    obtain ⟨change, built, run⟩ := Checked.bind_ok run
    cases run
    exact ⟨change.toList, by simp [bufferOne, built, Except.map], rfl, rfl, rfl, rfl⟩

theorem bufferOne_metadata (metadata : msg.isMetadata = true) : bufferOne msg = .ok [] := by
  cases msg <;> first | rfl | simp [LogicalRepMsg.isMetadata] at metadata

theorem bufferAll_filter (shape : ∀ msg ∈ body, msg.isMetadata = true ∨ msg.isChange = true) :
    bufferAll (body.filter LogicalRepMsg.isChange) = bufferAll body := by
  induction body with
  | nil => rfl
  | cons msg rest ih =>
    have tail := ih fun m member => shape m (List.mem_cons_of_mem _ member)
    by_cases change : msg.isChange = true
    · rw [List.filter_cons_of_pos change, bufferAll, bufferAll, tail]
    · have metadata := (shape msg List.mem_cons_self).resolve_right change
      rw [List.filter_cons_of_neg change, bufferAll, bufferOne_metadata metadata, tail]
      cases bufferAll rest <;> rfl

theorem foldlM_handle_body (shape : ∀ msg ∈ body, msg.isMetadata = true ∨ msg.isChange = true)
    (run : body.foldlM Applier.handle a = .ok b) :
    ∃ ps, bufferAll body = .ok ps ∧ b.pending = a.pending ++ ps ∧
      b.relations = body.foldl announce a.relations := by
  induction body generalizing a with
  | nil =>
    cases run
    exact ⟨[], rfl, by simp, rfl⟩
  | cons msg rest ih =>
    obtain ⟨next, first, run⟩ := Checked.foldlM_cons_ok run
    obtain ⟨ps, one, grown, announced, _, _⟩ := handle_body (shape msg List.mem_cons_self) first
    obtain ⟨qs, others, grownRest, announcedRest⟩ :=
      ih (fun m member => shape m (List.mem_cons_of_mem _ member)) run
    refine ⟨ps ++ qs, ?_, ?_, ?_⟩
    · simp [bufferAll, one, others, bind, Except.bind]
    · rw [grownRest, grown, List.append_assoc]
    · rw [announcedRest, announced, List.foldl_cons]

end

theorem planCommit_transact {a : Applier} {c e : Nat} {statements : List String}
    (plan : a.planCommit c e = .ok (.transact statements)) :
    buildStatements a.relations a.pending = .ok statements := by
  unfold Applier.planCommit at plan
  split at plan
  · cases plan
  · obtain ⟨others, built, plan⟩ := Checked.bind_ok plan
    cases plan
    exact built

theorem buildStatement_congr {r s : RelationMap} {change : PendingChange} (same : r change.relOid = s change.relOid) :
    buildStatement r change = buildStatement s change := by
  cases change <;> simp only [PendingChange.relOid] at same <;> simp only [buildStatement, RelationMap.find, same]

theorem buildStatements_congr {r s : RelationMap} {pending : List PendingChange}
    (same : ∀ change ∈ pending, r change.relOid = s change.relOid) :
    buildStatements r pending = buildStatements s pending := by
  induction pending with
  | nil => rfl
  | cons change rest ih =>
    have first := buildStatement_congr (same change List.mem_cons_self)
    rw [buildStatements, buildStatements, first, ih fun c member => same c (List.mem_cons_of_mem _ member)]

end PgShard
