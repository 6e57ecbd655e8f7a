import PgShard.Repl.ApplyRun

namespace PgShard

variable {i n c e : Nat} {txn : Txn} {s : Session} {a : Applier} {rest : List LogicalRepMsg} {row : ProgressRow}

variable {Tables : Type} {db : TargetDb Tables} {log : SourceLog} {tables : Tables} {w : World Tables} {k : Nat}

theorem SourceLog.mem_of_get (found : log.txns[i]? = some txn) : txn ∈ log.txns :=
  List.mem_of_getElem? found

theorem SourceLog.Acked.durable (acked : log.Acked k n)
    (found : log.txns[i]? = some txn) (below : txn.commitLsn < n) : i < k := by
  rcases acked with zero | ⟨j, durable, last, atJ, bound⟩
  · omega
  · by_contra later
    have step : j + 1 ≤ i := by omega
    have inside : j + 1 < log.txns.length := by
      have := (List.getElem?_eq_some_iff.mp found).1
      omega
    have next : log.txns[j + 1]? = some log.txns[j + 1] := List.getElem?_eq_getElem inside
    have ends := log.endBeforeNext atJ next
    have ordered := (log.increasing.pos_le next found).mp step
    omega

theorem World.Durable.resume (durable : w.Durable db log tables k)
    (before : ∀ i < n, ∃ txn, log.txns[i]? = some txn ∧ txn.commitLsn < w.flush) : n ≤ k := by
  rcases n with _ | n
  · exact Nat.zero_le k
  · obtain ⟨txn, found, below⟩ := before n (Nat.lt_succ_self n)
    rcases durable.flush with atOrigin | acked
    · have := log.afterOrigin txn (log.mem_of_get found)
      omega
    · exact acked.durable found below

theorem World.Durable.checkpoint_eq {j : Nat} (found : log.txns[j]? = some txn)
    (row : w.progress = some ⟨asI64 txn.commitLsn, asI64 txn.endLsn⟩) : w.checkpoint = txn.commitLsn := by
  have bounds := log.representable txn (log.mem_of_get found)
  simp only [World.checkpoint, row, Option.map_some, Option.getD_some]
  exact asU64_asI64 (by omega)

theorem World.Durable.new_checkpoint (durable : w.Durable db log tables k) (consumer : String)
    (found : log.txns[i]? = some txn) (below : txn.commitLsn ≤ (Applier.new consumer w.progress).checkpoint) :
    i < k := by
  rcases durable.row with ⟨_, empty⟩ | ⟨j, last, rfl, atJ, row⟩
  · have := log.positive txn (log.mem_of_get found)
    simp only [empty, Applier.new] at below
    omega
  · have bounds := log.representable last (log.mem_of_get atJ)
    have commit : asU64 (asI64 last.commitLsn) = last.commitLsn := asU64_asI64 (by omega)
    simp only [row, Applier.new, commit] at below
    have := (log.increasing.pos_le found atJ).mpr below
    omega

theorem World.Durable.new_ack (durable : w.Durable db log tables k) (consumer : String) :
    log.Acked k (Applier.new consumer w.progress).ack := by
  rcases durable.row with ⟨_, empty⟩ | ⟨j, last, rfl, atJ, row⟩
  · exact .inl (by simp [empty, Applier.new])
  · have bounds := log.representable last (log.mem_of_get atJ)
    have ordered := log.commitBeforeEnd last (log.mem_of_get atJ)
    have commit : asU64 (asI64 last.commitLsn) = last.commitLsn := asU64_asI64 (by omega)
    have ending : asU64 (asI64 last.endLsn) = last.endLsn := asU64_asI64 (by omega)
    refine .inr ⟨j, by omega, last, atJ, ?_⟩
    simp only [row, Applier.new, commit, ending]
    omega

theorem World.Durable.start_inv (durable : w.Durable db log tables k) (consumer : String)
    (before : ∀ i < n, ∃ txn, log.txns[i]? = some txn ∧ txn.commitLsn < w.flush) :
    Session.Inv log k ⟨.new consumer w.progress, 0, n, fun _ => none, []⟩ where
  delivered := durable.resume before
  checkpoint := durable.new_checkpoint consumer
  ack := durable.new_ack consumer
  confirmed := .inl rfl
  stream := by
    left
    refine ⟨rfl, ?_⟩
    cases w.progress <;> rfl

theorem Session.Inv.send {finalLsn : Nat} {body : List LogicalRepMsg}
    (inv : s.Inv log k) (idle : s.queue = []) (current : log.txns[s.index]? = some txn)
    (sends : txn.Sends s.announced body) :
    Session.Inv log k { s with
      announced := body.foldl announce s.announced,
      queue := .begin finalLsn :: body ++ [.commit txn.commitLsn txn.endLsn] } where
  delivered := inv.delivered
  checkpoint := inv.checkpoint
  ack := inv.ack
  confirmed := inv.confirmed
  stream := by
    right
    refine ⟨txn, .begin finalLsn :: body, current, rfl, ?_, ?_⟩
    · intro msg member c e same
      subst same
      rcases List.mem_cons.mp member with first | inside
      · cases first
      · simpa [LogicalRepMsg.isMetadata, LogicalRepMsg.isChange] using sends.shape _ inside
    · intro a run
      have known : s.applier.relations = s.announced := by
        rcases inv.stream with ⟨_, same⟩ | ⟨_, rest, delivering⟩
        · exact same
        · have := delivering.queue
          simp [idle] at this
      have run' : body.foldlM Applier.handle { s.applier with pending := [] } = .ok a := run
      obtain ⟨ps, buffered, pending, relations⟩ := foldlM_handle_body sends.shape run'
      have changes : bufferAll txn.changes = .ok a.pending := by
        rw [← sends.changes, bufferAll_filter sends.shape, buffered, pending]
        rfl
      refine ⟨changes, by rw [relations, ← known], fun change member => ?_⟩
      rw [relations, ← sends.described changes member, ← known]

theorem handle_keeps {b : Applier} {msg : LogicalRepMsg} (run : a.handle msg = .ok b) :
    b.checkpoint = a.checkpoint ∧ b.ack = a.ack := by
  cases msg with
  | truncate | streamed => cases run
  | insert | update | delete =>
    obtain ⟨_, -, run⟩ := Checked.bind_ok run
    cases run
    exact ⟨rfl, rfl⟩
  | _ =>
    cases run
    exact ⟨rfl, rfl⟩

theorem Session.Inv.receive {msg : LogicalRepMsg}
    (inv : s.Inv log k) (queue : s.queue = msg :: rest) (plain : ∀ c e, msg ≠ .commit c e)
    (run : s.applier.handle msg = .ok a) : Session.Inv log k { s with applier := a, queue := rest } := by
  obtain ⟨keptCheckpoint, keptAck⟩ := handle_keeps run
  refine ⟨inv.delivered, ?_, ?_, inv.confirmed, ?_⟩
  · intro i txn found below
    rw [keptCheckpoint] at below
    exact inv.checkpoint found below
  · show log.Acked k a.ack
    rw [keptAck]
    exact inv.ack
  · right
    rcases inv.stream with ⟨empty, _⟩ | ⟨txn, body, delivering⟩
    · rw [empty] at queue
      cases queue
    · have wire := delivering.queue
      rw [queue] at wire
      cases body with
      | nil =>
        cases wire
        exact absurd rfl (plain _ _)
      | cons first body =>
        cases wire
        refine ⟨txn, body, delivering.current, rfl,
          fun m member => delivering.plain m (List.mem_cons_of_mem _ member), fun b later => ?_⟩
        refine delivering.buffered b ?_
        simp only [List.foldlM_cons, run, bind, Except.bind]
        exact later

theorem Session.Inv.atCommit (inv : s.Inv log k)
    (queue : s.queue = .commit c e :: rest) :
    ∃ txn, log.txns[s.index]? = some txn ∧ c = txn.commitLsn ∧ e = txn.endLsn ∧ rest = [] ∧
      bufferAll txn.changes = .ok s.applier.pending ∧ s.applier.relations = s.announced ∧
      ∀ change ∈ s.applier.pending, s.applier.relations change.relOid = txn.relations change.relOid := by
  rcases inv.stream with ⟨empty, _⟩ | ⟨txn, body, delivering⟩
  · rw [empty] at queue
    cases queue
  · have wire := delivering.queue
    rw [queue] at wire
    cases body with
    | nil =>
      cases wire
      obtain ⟨buffered, known, described⟩ := delivering.buffered _ rfl
      exact ⟨txn, delivering.current, rfl, rfl, rfl, buffered, known, described⟩
    | cons first body =>
      cases wire
      exact absurd rfl (delivering.plain _ List.mem_cons_self _ _)

theorem Session.Inv.skip
    (inv : s.Inv log k) (queue : s.queue = .commit c e :: rest)
    (plan : s.applier.planCommit c e = .ok (.skip a)) :
    Session.Inv log k { s with applier := a, queue := rest, index := s.index + 1 } := by
  obtain ⟨txn, current, rfl, rfl, rfl, _, known, _⟩ := inv.atCommit queue
  unfold Applier.planCommit at plan
  split at plan
  · rename_i old
    cases plan
    have durable : s.index < k := inv.checkpoint current old
    have ended : log.Acked k txn.endLsn := .inr ⟨s.index, durable, txn, current, le_refl _⟩
    exact ⟨durable, inv.checkpoint, inv.ack.max ended, inv.confirmed, .inl ⟨rfl, known⟩⟩
  · cases built : buildStatements s.applier.relations s.applier.pending with
    | error e | ok statements => simp [built, bind, Except.bind] at plan

theorem transact_ok {consumer : String} {statements : List String} {before after : Tables}
    {progress : Option ProgressRow}
    (run : transact db consumer statements c e before progress = .ok (after, row)) :
    runStatements db statements before = .ok after ∧ advanceProgress progress c e = some row := by
  obtain ⟨result, changed, run⟩ := Checked.bind_ok run
  cases advanced : advanceProgress progress c e with
  | none => simp [advanced] at run
  | some moved =>
    simp only [advanced, Except.ok.injEq, Prod.mk.injEq] at run
    rw [← run.1, ← run.2]
    exact ⟨changed, rfl⟩

/-- The compare-and-set on the checkpoint lets through only the first
transaction that is not durable. -/
theorem World.Durable.advance_next (durable : w.Durable db log tables k)
    (found : log.txns[i]? = some txn) (delivered : i ≤ k)
    (advanced : advanceProgress w.progress txn.commitLsn txn.endLsn = some row) :
    i = k ∧ row = ⟨asI64 txn.commitLsn, asI64 txn.endLsn⟩ := by
  rcases durable.row with ⟨rfl, empty⟩ | ⟨j, last, rfl, atJ, stored⟩
  · rw [empty] at advanced
    cases advanced
    exact ⟨by omega, rfl⟩
  · rw [stored] at advanced
    simp only [advanceProgress] at advanced
    split at advanced
    · rename_i forward
      cases advanced
      refine ⟨?_, rfl⟩
      have newBounds := log.representable txn (log.mem_of_get found)
      have oldBounds := log.representable last (log.mem_of_get atJ)
      rw [asI64_of_lt newBounds.1, asI64_of_lt oldBounds.1] at forward
      have after := (log.increasing.pos_lt atJ found).mpr (by exact_mod_cast forward)
      omega
    · cases advanced

theorem World.Durable.apply {statements : List String}
    {after : Tables} (durable : w.Durable db log tables k) (inv : s.Inv log k)
    (queue : s.queue = .commit c e :: rest) (plan : s.applier.planCommit c e = .ok (.transact statements))
    (run : transact db s.applier.consumer statements c e w.tables w.progress = .ok (after, row)) :
    World.Durable db log tables (k + 1) { w with tables := after, progress := some row } ∧
      Session.Inv log (k + 1)
        { s with applier := s.applier.committed c e, queue := rest, index := s.index + 1 } := by
  obtain ⟨txn, current, rfl, rfl, rfl, buffered, known, described⟩ := inv.atCommit queue
  obtain ⟨changed, advanced⟩ := transact_ok run
  obtain ⟨next, rfl⟩ := durable.advance_next current inv.delivered advanced
  have built := planCommit_transact plan
  rw [buildStatements_congr described] at built
  have effect : Txn.effect db w.tables txn = .ok after := by
    simp [Txn.effect, buffered, built, changed, bind, Except.bind]
  rw [next] at current
  refine ⟨⟨?_, .inr ⟨k, txn, rfl, current, rfl⟩, ?_⟩, ?_, ?_, ?_, inv.confirmed.mono (by omega),
    .inl ⟨rfl, known⟩⟩
  · have extended : log.txns.take (k + 1) = log.txns.take k ++ [txn] := by
      rw [List.take_add_one, current]
      rfl
    rw [extended, List.foldlM_append, durable.replayed]
    simp [bind, Except.bind, effect, pure, Except.pure]
  · exact durable.flush.imp id fun acked => acked.mono (by omega)
  · show s.index + 1 ≤ k + 1
    omega
  · intro i other found below
    have := (log.increasing.pos_le found current).mpr below
    omega
  · exact (inv.ack.mono (by omega)).max (.inr ⟨k, by omega, txn, current, le_refl _⟩)

theorem World.set_sessions {id other : Nat} {s : Option Session} :
    (w.set id s).sessions other = if other = id then s else w.sessions other := by
  simp [World.set, Function.update_apply]

theorem World.Inv.set {id : Nat} {s : Option Session} (durable : w.Durable db log tables k)
    (others : ∀ other live, w.sessions other = some live → live.Inv log k) (own : ∀ live ∈ s, live.Inv log k) :
    World.Inv db log tables (w.set id s) := by
  refine ⟨k, ⟨durable.replayed, durable.row, durable.flush⟩, fun other live found => ?_⟩
  rw [World.set_sessions] at found
  split at found
  · exact own live found
  · exact others other live found

theorem World.Inv.step {after : World Tables} (inv : w.Inv db log tables) (step : World.Step db log w after) :
    after.Inv db log tables := by
  obtain ⟨k, durable, sessions⟩ := inv
  cases step with
  | start id n consumer fresh before =>
    exact .set durable sessions (by rintro live ⟨⟩; exact durable.start_inv consumer before)
  | send id finalLsn found idle current sends =>
    exact .set durable sessions (by rintro live ⟨⟩; exact (sessions _ _ found).send idle current sends)
  | receive id found queue plain run =>
    exact .set durable sessions (by rintro live ⟨⟩; exact (sessions _ _ found).receive queue plain run)
  | skip id found queue plan =>
    exact .set durable sessions (by rintro live ⟨⟩; exact (sessions _ _ found).skip queue plan)
  | apply id found queue plan run =>
    obtain ⟨durableNext, own⟩ := durable.apply (sessions _ _ found) queue plan run
    exact .set durableNext (fun other live at' => (sessions other live at').mono (by omega))
      (by rintro live ⟨⟩; exact own)
  | applyLost id found queue plan run =>
    obtain ⟨durableNext, _⟩ := durable.apply (sessions _ _ found) queue plan run
    exact .set durableNext (fun other live at' => (sessions other live at').mono (by omega)) (by simp)
  | crash id => exact .set durable sessions (by simp)
  | confirm worker found =>
    refine .set durable sessions ?_
    rintro live ⟨⟩
    have own := sessions _ _ found
    refine ⟨own.delivered, own.checkpoint, own.ack, ?_, own.stream.imp id ?_⟩
    · show log.Acked k (if _ then _ else _)
      split
      · exact own.ack
      · exact own.confirmed
    · rintro ⟨txn, body, delivering⟩
      exact ⟨txn, body, delivering.current, delivering.queue, delivering.plain, delivering.buffered⟩
  | report id found =>
    exact ⟨k, ⟨durable.replayed, durable.row, .inr (sessions _ _ found).confirmed⟩, sessions⟩

theorem World.Inv.initial : (World.initial log tables).Inv db log tables :=
  ⟨0, ⟨rfl, .inl ⟨rfl, rfl⟩, .inl rfl⟩, by simp [World.initial]⟩

/-- Exactly-once apply: in every run, with any crashes, replays and stale
workers, the target holds the source's transactions up to the durable
checkpoint, each applied once and in order, and the flush position confirmed
to the source lies within a durable transaction. -/
theorem apply_exactly_once {db : TargetDb Tables} {log : SourceLog} {tables : Tables} {w : World Tables}
    (reach : World.Reach db log tables w) :
    log.replay db tables w.checkpoint = .ok w.tables ∧
      (w.flush ≤ log.origin ∨ ∃ txn ∈ log.txns, txn.commitLsn ≤ w.checkpoint ∧ w.flush ≤ txn.endLsn) := by
  obtain ⟨k, durable, _⟩ : w.Inv db log tables :=
    Runs.Reachable.invariant (by rintro s rfl; exact World.Inv.initial) (fun s t inv step => inv.step step) reach
  unfold SourceLog.replay
  rcases durable.row with ⟨rfl, empty⟩ | ⟨j, last, rfl, atJ, stored⟩
  · have none : w.checkpoint = 0 := by simp [World.checkpoint, empty]
    rw [none, CheckpointedLog.upTo_zero log.positive]
    refine ⟨durable.replayed, .inl ?_⟩
    rcases durable.flush with atOrigin | zero | ⟨j, below, _⟩ <;> omega
  · rw [World.Durable.checkpoint_eq atJ stored, log.increasing.upTo_eq_take atJ]
    refine ⟨durable.replayed, ?_⟩
    rcases durable.flush with atOrigin | zero | ⟨i, below, txn, found, bound⟩
    · exact .inl atOrigin.le
    · exact .inl (by omega)
    · exact .inr ⟨txn, log.mem_of_get found, (log.increasing.pos_le found atJ).mp (by omega), bound⟩

def countingDb : TargetDb Nat := ⟨fun _ n => some (n + 1, 1)⟩

def sampleRelation : Relation := ⟨1, "public", "orders", 'd', [⟨1, "id", 23, 0⟩]⟩

def sampleTxn (commitLsn : Nat) (id : UInt8) : Txn :=
  ⟨commitLsn, commitLsn + 1, [.insert 1 [.text [id]]], fun _ => some (.ofMsg sampleRelation)⟩

def sampleLog : SourceLog where
  txns := [sampleTxn 5 49, sampleTxn 8 50]
  origin := 1
  increasing := by simp [CheckpointedLog.Increasing, sampleTxn]
  positive := by simp [sampleTxn]
  representable := by simp [sampleTxn]
  commitBeforeEnd := by simp [sampleTxn]
  endBeforeNext {i _ _} first second := by
    cases i with
    | zero =>
      cases first
      cases second
      simp [sampleTxn]
    | succ i => simp at second
  afterOrigin := by simp [sampleTxn]

theorem sampleTxn_sends {commitLsn : Nat} {id : UInt8} {announced : RelationMap} :
    (sampleTxn commitLsn id).Sends announced [.relation sampleRelation, .insert 1 [.text [id]]] where
  shape := by simp [LogicalRepMsg.isMetadata, LogicalRepMsg.isChange]
  changes := rfl
  described := by
    rintro _ change ⟨⟩ member
    cases List.mem_singleton.mp member
    rfl
  settled := by
    rintro (_ | ⟨_, _ | ⟨_, before⟩⟩) msg after split ps buffered change member
    · cases split
      cases buffered
      cases member
    · cases split
      cases buffered
      cases List.mem_singleton.mp member
      rfl
    · simp at split

/-- The commit of the first transaction is lost on its worker. The next worker is sent it again and skips it, and
applies the second one. -/
theorem sample_applied_once : ∃ w : World Nat, World.Reach countingDb sampleLog 0 w ∧ w.checkpoint = 8 ∧
    w.tables = 2 ∧ sampleLog.replay countingDb 0 w.checkpoint = .ok w.tables := by
  have fresh : World.Reach countingDb sampleLog 0 (World.initial sampleLog 0) := .start rfl
  have sent := (fresh.next (.start 0 0 "worker" rfl (by simp))).next (.send 0 5 rfl rfl rfl sampleTxn_sends)
  have buffered := ((sent.next (.receive 0 rfl rfl (by simp) rfl)).next (.receive 0 rfl rfl (by simp) rfl)).next
    (.receive 0 rfl rfl (by simp) rfl)
  have lost := buffered.next (.applyLost 0 rfl rfl rfl rfl)
  have resent := (lost.next (.start 1 0 "worker" rfl (by simp))).next (.send 1 5 rfl rfl rfl sampleTxn_sends)
  have replayed := ((resent.next (.receive 1 rfl rfl (by simp) rfl)).next (.receive 1 rfl rfl (by simp) rfl)).next
    (.receive 1 rfl rfl (by simp) rfl)
  have skipped := (replayed.next (.skip 1 rfl rfl rfl)).next (.send 1 8 rfl rfl rfl sampleTxn_sends)
  have rebuffered := ((skipped.next (.receive 1 rfl rfl (by simp) rfl)).next (.receive 1 rfl rfl (by simp) rfl)).next
    (.receive 1 rfl rfl (by simp) rfl)
  have applied : World.Reach countingDb sampleLog 0 _ := rebuffered.next (.apply 1 rfl rfl rfl rfl)
  exact ⟨_, applied, rfl, rfl, (apply_exactly_once applied).1⟩

end PgShard
