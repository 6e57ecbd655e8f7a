import PgShard.Agent.Replica

namespace PgShard

open Checked

variable {f : RelFilter} {relation : Relation}

theorem within_ok {E α : Type} {wrap : E → WorkflowError} {x : Except E α} {a : α} (run : within wrap x = .ok a) :
    x = .ok a := by
  cases x with
  | error e => cases run
  | ok b =>
    cases run
    rfl

theorem ensure_ok {condition : Bool} {reason : String} {u : Unit} (run : ensure condition reason = .ok u) :
    condition = true := by
  unfold ensure at run
  split at run
  · assumption
  · cases run

theorem relFilter_ok {relations : Oid → Option RelFilter} {oid : Oid}
    (run : relFilter relations oid = .ok f) : relations oid = some f := by
  unfold relFilter at run
  split at run
  · rename_i stored found
    cases run
    exact found
  · cases run

theorem admitRelation_ok {run : RunPlan} {rel : Relation} (admitted : admitRelation run rel = .ok f) :
    run.keyOf rel = some f ∧ keyedIdentity rel.replicaIdentity = true ∧
      (rel.columns[f.keyIndex]?).any RelationColumn.isKey = true := by
  unfold admitRelation at admitted
  split at admitted
  · cases admitted
  rename_i table mapped
  obtain ⟨keyIndex, position, admitted⟩ := bind_ok admitted
  obtain ⟨_, _, admitted⟩ := bind_ok admitted
  obtain ⟨_, covered, admitted⟩ := bind_ok admitted
  cases admitted
  refine ⟨?_, Bool.and_eq_true_iff.mp (ensure_ok covered)⟩
  simp [RunPlan.keyOf, mapped, within_ok position]

def LogicalRepMsg.isRow : LogicalRepMsg → Bool
  | .insert _ _ | .update _ _ _ _ | .delete _ _ _ => true
  | _ => false

section

variable {server : TargetServer} {run : RunPlan} {shardFn : ShardFunction} {schema : SourceSchema}
  {s t : Streaming} {msg : LogicalRepMsg}

/-- What the loop knows of the source's tables is what the source published. -/
structure Streaming.Announced (run : RunPlan) (schema : SourceSchema) (s : Streaming) : Prop where
  filters : ∀ {oid f}, s.relations oid = some f → ∃ relation, schema.relation oid = some relation ∧
    run.keyOf relation = some f ∧ keyedIdentity relation.replicaIdentity = true ∧
    (relation.columns[f.keyIndex]?).any RelationColumn.isKey = true
  described : Described schema s.applier.relations

/-- Nothing durable happened. -/
structure Streaming.Quiet (s t : Streaming) : Prop where
  tables : t.tables = s.tables
  checkpoint : t.applier.checkpoint = s.applier.checkpoint

def Streaming.buffer (s : Streaming) (p : PendingChange) : Streaming :=
  { s with applier := { s.applier with pending := s.applier.pending ++ [p] } }

theorem Streaming.Announced.buffer (announced : s.Announced run schema) (p : PendingChange) :
    (s.buffer p).Announced run schema :=
  ⟨announced.filters, announced.described⟩

theorem pendingChange_row (row : msg.isRow = true) {change : Option PendingChange}
    (built : pendingChange msg = .ok change) : ∃ p, change = some p := by
  cases msg with
  | insert oid new =>
    obtain ⟨cells, _, same⟩ := bind_ok built
    cases same
    exact ⟨_, rfl⟩
  | update oid key old new =>
    obtain ⟨keySource, _, built⟩ := bind_ok built
    obtain ⟨cells, _, same⟩ := bind_ok built
    cases same
    exact ⟨_, rfl⟩
  | delete oid key old =>
    simp only [pendingChange] at built
    split at built
    · obtain ⟨keySource, _, same⟩ := bind_ok built
      cases same
      exact ⟨_, rfl⟩
    · cases built
  | _ => cases row

theorem keep_ok (row : msg.isRow = true) {kept : Bool} (ran : s.keep server msg kept = .ok t) :
    kept = false ∧ t = s ∨ kept = true ∧ ∃ p, pendingChange msg = .ok (some p) ∧ t = s.buffer p := by
  unfold Streaming.keep at ran
  split at ran
  · rename_i isKept
    refine .inr ⟨isKept, ?_⟩
    have handled : (within .apply (s.applier.handle msg) >>= fun next => .ok { s with applier := next }) = .ok t := by
      cases msg <;> first | exact ran | cases row
    obtain ⟨next, applied, same⟩ := bind_ok handled
    cases same
    have buffered : (pendingChange msg >>= fun change =>
        .ok { s.applier with pending := s.applier.pending ++ change.toList }) = Except.ok next := by
      have inner := within_ok applied
      cases msg <;> first | exact inner | cases row
    obtain ⟨change, built, same⟩ := bind_ok buffered
    cases same
    obtain ⟨p, rfl⟩ := pendingChange_row row built
    exact ⟨p, built, rfl⟩
  · rename_i notKept
    cases ran
    exact .inl ⟨by simpa using notKept, rfl⟩

theorem onMessage_row (row : msg.isRow = true) (ran : onMessage server run shardFn s msg = .ok t) :
    s.dispatch server run shardFn msg = .ok t := by
  obtain ⟨next, dispatched, same⟩ := bind_ok ran
  cases msg <;> first | (cases same; exact dispatched) | cases row

theorem keeps_eq (key : run.keyOf relation = some f) (row : Row) :
    run.keeps shardFn relation row = row.inRange f.keyIndex f.keyType shardFn run.range := by
  simp [RunPlan.keeps, key]

theorem wire_getElem?_text {row : Row} {i : Nat} {bytes : List UInt8}
    (sent : (row.map wire)[i]? = some (.text bytes)) : row[i]? = some (some bytes) := by
  rw [List.getElem?_map] at sent
  obtain ⟨value, stored, shown⟩ := Option.map_eq_some_iff.mp sent
  rw [stored, wire_eq_text shown]

theorem keep_update {oid : Oid} {key before : Option TupleData} {toasted : Nat → Bool} {old new : Row} {kept : Bool}
    (ran : s.keep server (.update oid key before (newTuple toasted new)) kept = .ok t)
    (keepsOld : run.keeps shardFn relation old = kept) (keepsNew : run.keeps shardFn relation new = kept)
    (identity : IdentityOf relation old (((key.or before).getD (newTuple toasted new)).map TupleColumn.cell))
    (unchanged : ∀ i, toasted i = true → old[i]? = new[i]?) :
    Drops run shardFn relation (.update oid old new) ∧ t = s ∨
      ∃ p, Buffers run shardFn relation (.update oid old new) p ∧ t = s.buffer p := by
  rcases keep_ok rfl ran with ⟨rfl, rfl⟩ | ⟨rfl, p, built, rfl⟩
  · exact .inl ⟨⟨keepsOld, keepsNew⟩, rfl⟩
  · obtain ⟨keySource, keyShown, built⟩ := bind_ok built
    obtain ⟨cells, shown, same⟩ := bind_ok built
    cases same
    rw [tupleCells_ok keyShown, tupleCells_ok shown]
    exact .inr ⟨_, .update keepsOld keepsNew identity (updatedCells_newTuple unchanged), rfl⟩

/-- One shipped change: all its rows are outside the range and it is dropped,
or all are inside and it is buffered. An update that would cross the range
ends the run. -/
theorem onMessage_change (announced : s.Announced run schema) {c : RowChange}
    (found : schema.relation c.oid = some relation) (ships : c.Ships relation msg)
    (ran : onMessage server run shardFn s msg = .ok t) :
    Drops run shardFn relation c ∧ t = s ∨ ∃ p, Buffers run shardFn relation c p ∧ t = s.buffer p := by
  cases ships with
  | @insert oid row =>
    obtain ⟨f, filter, ran⟩ := bind_ok (onMessage_row rfl ran)
    obtain ⟨kept, decided, ran⟩ := bind_ok ran
    obtain ⟨r, found', key, _⟩ := announced.filters (relFilter_ok filter)
    cases found.symm.trans found'
    have keeps := (keeps_eq key row).trans
      (tupleInRange_eq_ok (within_ok decided) fun _ sent => wire_getElem?_text sent)
    rcases keep_ok rfl ran with ⟨rfl, rfl⟩ | ⟨rfl, p, built, rfl⟩
    · exact .inl ⟨keeps, rfl⟩
    · obtain ⟨cells, shown, same⟩ := bind_ok built
      cases same
      rw [tupleCells_ok shown, List.map_map, show TupleColumn.cell ∘ wire = Cell.ofValue from funext cell_wire]
      exact .inr ⟨_, .insert keeps, rfl⟩
  | @updateKey oid old new toasted keyed unchanged =>
    obtain ⟨f, filter, ran⟩ := bind_ok (onMessage_row rfl ran)
    obtain ⟨newIn, decided, ran⟩ := bind_ok ran
    obtain ⟨oldIn, decidedOld, ran⟩ := bind_ok ran
    obtain ⟨_, sameSide, kept⟩ := bind_ok ran
    obtain ⟨r, found', key, _⟩ := announced.filters (relFilter_ok filter)
    cases found.symm.trans found'
    cases beq_iff_eq.mp (ensure_ok sameSide)
    refine keep_update kept ?_ ?_ (identityOf_keyTuple relation old) unchanged
    · exact (keeps_eq key old).trans (tupleInRange_eq_ok (within_ok decidedOld) fun _ sent => keyTuple_text sent)
    · exact (keeps_eq key new).trans (tupleInRange_eq_ok (within_ok decided) fun _ sent => newTuple_text sent)
  | @updateSameKey oid old new toasted keyed unchanged sameKey =>
    obtain ⟨f, filter, ran⟩ := bind_ok (onMessage_row rfl ran)
    obtain ⟨newIn, decided, ran⟩ := bind_ok ran
    obtain ⟨r, found', key, _, covered⟩ := announced.filters (relFilter_ok filter)
    cases found.symm.trans found'
    -- The identity covers the shard key, so the old row has the new row's key.
    obtain ⟨column, atKey, isKey⟩ := (Option.any_eq_true _ _).mp covered
    have sameCell := sameKey f.keyIndex column atKey isKey
    refine keep_update ran ?_ ?_ (identityOf_newTuple sameKey) unchanged
    · exact (keeps_eq key old).trans
        (tupleInRange_eq_ok (within_ok decided) fun _ sent => sameCell.trans (newTuple_text sent))
    · exact (keeps_eq key new).trans (tupleInRange_eq_ok (within_ok decided) fun _ sent => newTuple_text sent)
  | @updateFull oid old new toasted full unchanged | @deleteFull oid old full =>
    obtain ⟨f, filter, ran⟩ := bind_ok (onMessage_row rfl ran)
    obtain ⟨r, found', _, keyed, _⟩ := announced.filters (relFilter_ok filter)
    cases found.symm.trans found'
    simp [full, keyedIdentity] at keyed
  | @deleteKey oid old keyed =>
    obtain ⟨f, filter, ran⟩ := bind_ok (onMessage_row rfl ran)
    obtain ⟨kept, decided, ran⟩ := bind_ok ran
    obtain ⟨r, found', key, _⟩ := announced.filters (relFilter_ok filter)
    cases found.symm.trans found'
    have keeps := (keeps_eq key old).trans (tupleInRange_eq_ok (within_ok decided) fun _ sent => keyTuple_text sent)
    rcases keep_ok rfl ran with ⟨rfl, rfl⟩ | ⟨rfl, p, built, rfl⟩
    · exact .inl ⟨keeps, rfl⟩
    · obtain ⟨cells, shown, same⟩ := bind_ok built
      cases same
      rw [tupleCells_ok shown]
      exact .inr ⟨_, .delete keeps (identityOf_keyTuple relation old), rfl⟩

theorem onMessage_between (announced : s.Announced run schema) (between : schema.Between msg)
    (ran : onMessage server run shardFn s msg = .ok t) :
    s.Quiet t ∧ t.applier.pending = s.applier.pending ∧ t.Announced run schema := by
  obtain ⟨next, dispatched, same⟩ := bind_ok ran
  cases between with
  | origin lsn name | type oid =>
    cases same
    cases dispatched
    exact ⟨⟨rfl, rfl⟩, rfl, announced⟩
  | message transactional lsn tag content =>
    cases same
    cases dispatched
    simp only [Streaming.noteJournal]
    split
    · exact ⟨⟨rfl, rfl⟩, rfl, announced.filters, announced.described⟩
    · exact ⟨⟨rfl, rfl⟩, rfl, announced⟩
  | @relation oid r found =>
    cases same
    obtain ⟨f, admitted, dispatched⟩ := bind_ok dispatched
    cases dispatched
    obtain ⟨key, keyed, covered⟩ := admitRelation_ok admitted
    have found' : schema.relation r.oid = some r := (schema.oid_eq found).symm ▸ found
    refine ⟨⟨rfl, rfl⟩, rfl, ?_, ?_⟩
    · intro o g stored
      replace stored : (if o = r.oid then some f else s.relations o) = some g := stored
      split at stored
      · rename_i here
        cases stored
        exact ⟨r, here ▸ found', key, keyed, covered⟩
      · exact announced.filters stored
    · intro o info stored
      replace stored : (if o = r.oid then some (.ofMsg r) else s.applier.relations o) = some info := stored
      split at stored
      · rename_i here
        cases stored
        exact ⟨r, here ▸ found', rfl⟩
      · exact announced.described o info stored

theorem onMessage_body {changes : List RowChange} {body : List LogicalRepMsg} (carries : schema.Carries changes body)
    (announced : s.Announced run schema) (ran : body.foldlM (onMessage server run shardFn) s = .ok t) :
    s.Quiet t ∧ t.Announced run schema ∧
      ∃ pending, t.applier.pending = s.applier.pending ++ pending ∧ BuffersAll run shardFn schema changes pending := by
  induction carries generalizing s with
  | done =>
    cases ran
    exact ⟨⟨rfl, rfl⟩, announced, [], by simp, .done⟩
  | between between _ ih =>
    obtain ⟨next, first, rest⟩ := foldlM_cons_ok ran
    obtain ⟨quiet, same, announced⟩ := onMessage_between announced between first
    obtain ⟨quiet', announced', pending, grown, buffers⟩ := ih announced rest
    exact ⟨⟨quiet'.tables.trans quiet.tables, quiet'.checkpoint.trans quiet.checkpoint⟩, announced', pending,
      by rw [grown, same], buffers⟩
  | change found ships _ ih =>
    obtain ⟨next, first, rest⟩ := foldlM_cons_ok ran
    rcases onMessage_change announced found ships first with ⟨drops, rfl⟩ | ⟨p, buffers, rfl⟩
    · obtain ⟨quiet, announced', pending, grown, all⟩ := ih announced rest
      exact ⟨quiet, announced', pending, grown, .dropped found drops all⟩
    · obtain ⟨quiet, announced', pending, grown, all⟩ := ih (announced.buffer p) rest
      refine ⟨⟨quiet.tables, quiet.checkpoint⟩, announced', p :: pending, ?_, .kept found buffers all⟩
      rw [grown, Streaming.buffer, List.append_assoc]
      rfl

theorem onMessage_begin {finalLsn : Nat} (announced : s.Announced run schema)
    (ran : onMessage server run shardFn s (.begin finalLsn) = .ok t) :
    s.Quiet t ∧ t.applier.pending = [] ∧ t.Announced run schema := by
  cases ran
  exact ⟨⟨rfl, rfl⟩, rfl, announced.filters, announced.described⟩

theorem onMessage_commit {commitLsn endLsn : Nat} (fresh : s.applier.checkpoint < commitLsn)
    (ran : onMessage server run shardFn s (.commit commitLsn endLsn) = .ok t) :
    ∃ statements, buildStatements s.applier.relations s.applier.pending = .ok statements ∧
      runStatements server.db statements s.tables = .ok t.tables ∧ t.applier.checkpoint = commitLsn ∧
      t.applier.relations = s.applier.relations ∧ t.relations = s.relations := by
  obtain ⟨next, dispatched, same⟩ := bind_ok ran
  cases same
  obtain ⟨plan, planned, dispatched⟩ := bind_ok dispatched
  have transacts := within_ok planned
  have notBehind : ¬ commitLsn ≤ s.applier.checkpoint := by omega
  simp only [Applier.planCommit, Streaming.noteJournal, notBehind, if_false] at transacts
  obtain ⟨statements, built, same⟩ := bind_ok transacts
  cases same
  obtain ⟨⟨tables, row⟩, applied, same⟩ := bind_ok dispatched
  cases same
  obtain ⟨changed, ran, advanced⟩ := bind_ok (within_ok applied)
  split at advanced
  · cases advanced
    exact ⟨statements, built, ran, rfl, rfl, rfl⟩
  · cases advanced

/-- No update of the changes moves a row into or out of the range. -/
def NeverCrosses (run : RunPlan) (shardFn : ShardFunction) (schema : SourceSchema) (changes : List RowChange) : Prop :=
  ∀ oid old new relation, RowChange.update oid old new ∈ changes → schema.relation oid = some relation →
    run.keeps shardFn relation old = run.keeps shardFn relation new

theorem BuffersAll.neverCrosses {changes : List RowChange} {pending : List PendingChange}
    (buffers : BuffersAll run shardFn schema changes pending) : NeverCrosses run shardFn schema changes := by
  induction buffers with
  | done => exact fun _ _ _ _ member => nomatch member
  | dropped found drops _ ih =>
    intro oid old new relation member known
    rcases List.mem_cons.mp member with rfl | later
    · cases found.symm.trans known
      exact drops.1.trans drops.2.symm
    · exact ih oid old new relation later known
  | kept found buffers _ ih =>
    intro oid old new relation member known
    rcases List.mem_cons.mp member with rfl | later
    · cases found.symm.trans known
      cases buffers with
      | update keptOld keptNew => exact keptOld.trans keptNew.symm
    · exact ih oid old new relation later known

theorem NeverCrosses.append {first second : List RowChange} (here : NeverCrosses run shardFn schema first)
    (there : NeverCrosses run shardFn schema second) : NeverCrosses run shardFn schema (first ++ second) := by
  intro oid old new relation member known
  rcases List.mem_append.mp member with left | right
  · exact here oid old new relation left known
  · exact there oid old new relation right known

/-- One whole transaction moves the target as it moved the source. -/
theorem onMessage_txn {txn : SourceTxn} {finalLsn : Nat} {body : List LogicalRepMsg} {source : SourceTables}
    (carries : schema.Carries txn.changes body) (fits : ∀ oid, ∀ row ∈ source oid, schema.Fits oid row)
    (valid : ValidFrom schema source txn.changes) (announced : s.Announced run schema)
    (fresh : s.applier.checkpoint < txn.commitLsn) (replicates : Replicates run shardFn schema source s.tables)
    (ran : List.foldlM (onMessage server run shardFn) s
      (.begin finalLsn :: body ++ [.commit txn.commitLsn txn.endLsn]) = .ok t) :
    Replicates run shardFn schema (applyAll source txn.changes) t.tables ∧ t.Announced run schema ∧
      t.applier.checkpoint = txn.commitLsn ∧ NeverCrosses run shardFn schema txn.changes := by
  obtain ⟨opened, begun, ran⟩ := foldlM_cons_ok ran
  obtain ⟨buffered, inBody, ran⟩ := foldlM_append_ok ran
  obtain ⟨closed, committed, same⟩ := foldlM_cons_ok ran
  cases same
  obtain ⟨start, empty, announced⟩ := onMessage_begin announced begun
  obtain ⟨quiet, announced', pending, grown, buffers⟩ := onMessage_body carries announced inBody
  obtain ⟨statements, built, applied, checkpoint, described, filters⟩ :=
    onMessage_commit (by rwa [quiet.checkpoint, start.checkpoint]) committed
  rw [grown, empty, List.nil_append] at built
  rw [quiet.tables, start.tables] at applied
  refine ⟨replicates.all fits valid buffers announced'.described built applied, ⟨?_, ?_⟩, checkpoint,
    buffers.neverCrosses⟩
  · rw [filters]
    exact announced'.filters
  · rw [described]
    exact announced'.described

theorem onMessage_stream {txns : List SourceTxn} {frames : List LogicalRepMsg} (streams : schema.Streams txns frames)
    {source : SourceTables} (fits : ∀ oid, ∀ row ∈ source oid, schema.Fits oid row)
    (valid : ValidFrom schema source (txns.flatMap SourceTxn.changes))
    (increasing : txns.Pairwise fun a b => a.commitLsn < b.commitLsn) (announced : s.Announced run schema)
    (ahead : ∀ txn ∈ txns, s.applier.checkpoint < txn.commitLsn)
    (replicates : Replicates run shardFn schema source s.tables)
    (ran : frames.foldlM (onMessage server run shardFn) s = .ok t) :
    Replicates run shardFn schema (applyAll source (txns.flatMap SourceTxn.changes)) t.tables ∧
      t.Announced run schema ∧ NeverCrosses run shardFn schema (txns.flatMap SourceTxn.changes) := by
  induction streams generalizing s source with
  | done =>
    cases ran
    exact ⟨replicates, announced, fun _ _ _ _ member => nomatch member⟩
  | @txn txn txns body rest finalLsn carries _ ih =>
    rw [List.flatMap_cons] at valid ⊢
    rw [show LogicalRepMsg.begin finalLsn :: body ++ .commit txn.commitLsn txn.endLsn :: rest =
      (.begin finalLsn :: body ++ [.commit txn.commitLsn txn.endLsn]) ++ rest by simp] at ran
    obtain ⟨middle, first, later⟩ := foldlM_append_ok ran
    obtain ⟨moved, announced', checkpoint, stays⟩ := onMessage_txn carries fits valid.left announced
      (ahead txn List.mem_cons_self) replicates first
    obtain ⟨order, increasing'⟩ := List.pairwise_cons.mp increasing
    obtain ⟨replicated, announced'', rest⟩ := ih (applyAll_fits fits valid.left) valid.append increasing' announced'
      (fun next member => checkpoint.symm ▸ order next member) moved later
    rw [applyAll_append]
    exact ⟨replicated, announced'', stays.append rest⟩

end

end PgShard
