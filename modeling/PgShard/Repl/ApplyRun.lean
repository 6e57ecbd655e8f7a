import PgShard.Lib.Runs
import PgShard.Repl.Source

namespace PgShard

variable {n k : Nat} {log : SourceLog}

/-- A live worker: its applier, the flush position its client reports, and the
source session that feeds it. `index` counts the transactions the session has
delivered in full, `queue` is what is on the wire of the next one. -/
structure Session where
  applier : Applier
  confirmed : Nat
  index : Nat
  announced : RelationMap
  queue : List LogicalRepMsg

/-- The target database, the slot's flush position at the source, and every
worker that is still alive, stale ones included. -/
structure World (Tables : Type) where
  tables : Tables
  progress : Option ProgressRow
  flush : Nat
  sessions : Nat → Option Session

namespace World

variable {Tables : Type}

def set (w : World Tables) (id : Nat) (s : Option Session) : World Tables :=
  { w with sessions := Function.update w.sessions id s }

def checkpoint (w : World Tables) : Nat := ((w.progress.map ProgressRow.lsn).map asU64).getD 0

def initial (log : SourceLog) (tables : Tables) : World Tables := ⟨tables, none, log.origin, fun _ => none⟩

/-- One step of any worker, of the source, or a failure. A worker that fails
for whatever reason (a refused message, a statement error, a lost connection)
is `crash`; `applyLost` is a commit that became durable although its worker
did not live to learn it. -/
inductive Step (db : TargetDb Tables) (log : SourceLog) : World Tables → World Tables → Prop
  | start {w : World Tables} (id n : Nat) (consumer : String) : w.sessions id = none →
      (∀ i < n, ∃ txn, log.txns[i]? = some txn ∧ txn.commitLsn < w.flush) →
      Step db log w (w.set id (some ⟨.new consumer w.progress, 0, n, fun _ => none, []⟩))
  | send {w : World Tables} (id finalLsn : Nat) {s : Session} {txn : Txn} {body : List LogicalRepMsg} :
      w.sessions id = some s → s.queue = [] → log.txns[s.index]? = some txn → txn.Sends s.announced body →
      Step db log w (w.set id (some { s with
        announced := body.foldl announce s.announced,
        queue := .begin finalLsn :: body ++ [.commit txn.commitLsn txn.endLsn] }))
  | receive {w : World Tables} (id : Nat) {s : Session} {msg : LogicalRepMsg} {rest : List LogicalRepMsg}
      {a : Applier} : w.sessions id = some s → s.queue = msg :: rest → (∀ c e, msg ≠ .commit c e) →
      s.applier.handle msg = .ok a → Step db log w (w.set id (some { s with applier := a, queue := rest }))
  | skip {w : World Tables} (id : Nat) {s : Session} {c e : Nat} {rest : List LogicalRepMsg} {a : Applier} :
      w.sessions id = some s → s.queue = .commit c e :: rest → s.applier.planCommit c e = .ok (.skip a) →
      Step db log w (w.set id (some { s with applier := a, queue := rest, index := s.index + 1 }))
  | apply {w : World Tables} (id : Nat) {s : Session} {c e : Nat} {rest : List LogicalRepMsg}
      {statements : List String} {tables : Tables} {row : ProgressRow} :
      w.sessions id = some s → s.queue = .commit c e :: rest →
      s.applier.planCommit c e = .ok (.transact statements) →
      transact db s.applier.consumer statements c e w.tables w.progress = .ok (tables, row) →
      Step db log w ({ w with tables := tables, progress := some row }.set id
        (some { s with applier := s.applier.committed c e, queue := rest, index := s.index + 1 }))
  | applyLost {w : World Tables} (id : Nat) {s : Session} {c e : Nat} {rest : List LogicalRepMsg}
      {statements : List String} {tables : Tables} {row : ProgressRow} :
      w.sessions id = some s → s.queue = .commit c e :: rest →
      s.applier.planCommit c e = .ok (.transact statements) →
      transact db s.applier.consumer statements c e w.tables w.progress = .ok (tables, row) →
      Step db log w ({ w with tables := tables, progress := some row }.set id none)
  | crash {w : World Tables} (id : Nat) : Step db log w (w.set id none)
  | confirm {w : World Tables} (id : Nat) {s : Session} : w.sessions id = some s →
      Step db log w (w.set id (some { s with
        confirmed := if s.applier.ack > s.confirmed then s.applier.ack else s.confirmed }))
  | report {w : World Tables} (id : Nat) {s : Session} : w.sessions id = some s →
      Step db log w { w with flush := s.confirmed }

/-- The states of every run from a freshly seeded target. -/
def Reach (db : TargetDb Tables) (log : SourceLog) (tables : Tables) : World Tables → Prop :=
  Runs.Reachable (· = initial log tables) (Step db log)

end World

theorem asI64_of_lt (bound : n < 2 ^ 63) : asI64 n = n := if_pos bound

theorem asU64_asI64 (bound : n < 2 ^ 64) : asU64 (asI64 n) = n := by
  unfold asU64 asI64
  split
  · exact (by omega : ((n : Int) % 2 ^ 64).toNat = n)
  · exact (by omega : (((n : Int) - 2 ^ 64) % 2 ^ 64).toNat = n)

/-- A position acknowledged while the first `k` transactions are durable. -/
def SourceLog.Acked (log : SourceLog) (k : Nat) (n : Nat) : Prop :=
  n = 0 ∨ ∃ j < k, ∃ txn, log.txns[j]? = some txn ∧ n ≤ txn.endLsn

theorem SourceLog.Acked.mono {l : Nat} (acked : log.Acked k n) (grown : k ≤ l) :
    log.Acked l n := by
  rcases acked with zero | ⟨j, below, txn, found, bound⟩
  · exact .inl zero
  · exact .inr ⟨j, by omega, txn, found, bound⟩

theorem SourceLog.Acked.max {m : Nat} (first : log.Acked k m)
    (second : log.Acked k n) : log.Acked k (Max.max m n) := by
  rcases Nat.le_total m n with le | le
  · rwa [Nat.max_eq_right le]
  · rwa [Nat.max_eq_left le]

/-- The rest of the current transaction on the wire, and what the applier will
hold when it reaches the commit. -/
structure Session.Delivering (log : SourceLog) (s : Session) (txn : Txn) (body : List LogicalRepMsg) : Prop where
  current : log.txns[s.index]? = some txn
  queue : s.queue = body ++ [.commit txn.commitLsn txn.endLsn]
  plain : ∀ msg ∈ body, ∀ c e, msg ≠ .commit c e
  buffered : ∀ a, body.foldlM Applier.handle s.applier = .ok a →
    bufferAll txn.changes = .ok a.pending ∧ a.relations = s.announced ∧
      ∀ change ∈ a.pending, a.relations change.relOid = txn.relations change.relOid

/-- What holds of a live worker while the first `k` transactions are durable. -/
structure Session.Inv (log : SourceLog) (k : Nat) (s : Session) : Prop where
  delivered : s.index ≤ k
  checkpoint : ∀ {i : Nat} {txn : Txn}, log.txns[i]? = some txn → txn.commitLsn ≤ s.applier.checkpoint → i < k
  ack : log.Acked k s.applier.ack
  confirmed : log.Acked k s.confirmed
  stream : (s.queue = [] ∧ s.applier.relations = s.announced) ∨ ∃ txn body, s.Delivering log txn body

theorem Session.Inv.mono {l : Nat} {s : Session} (inv : s.Inv log k) (grown : k ≤ l) :
    s.Inv log l where
  delivered := inv.delivered.trans grown
  checkpoint found below := (inv.checkpoint found below).trans_le grown
  ack := inv.ack.mono grown
  confirmed := inv.confirmed.mono grown
  stream := inv.stream

/-- What holds of the target while the first `k` transactions are durable. -/
structure World.Durable {Tables : Type} (db : TargetDb Tables) (log : SourceLog) (tables : Tables)
    (k : Nat) (w : World Tables) : Prop where
  replayed : (log.txns.take k).foldlM (Txn.effect db) tables = .ok w.tables
  row : (k = 0 ∧ w.progress = none) ∨ ∃ j txn, k = j + 1 ∧ log.txns[j]? = some txn ∧
    w.progress = some ⟨asI64 txn.commitLsn, asI64 txn.endLsn⟩
  flush : w.flush = log.origin ∨ log.Acked k w.flush

def World.Inv {Tables : Type} (db : TargetDb Tables) (log : SourceLog) (tables : Tables) (w : World Tables) : Prop :=
  ∃ k, w.Durable db log tables k ∧ ∀ id s, w.sessions id = some s → s.Inv log k

end PgShard
