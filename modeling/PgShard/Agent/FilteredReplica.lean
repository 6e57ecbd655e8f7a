import PgShard.Agent.StreamRun

namespace PgShard

open Checked

variable {relation : Relation}

theorem copyLine_copyRow {row : Row} (nonempty : row ≠ []) : TargetServer.copyLine (copyRow row) = row := by
  simp [TargetServer.copyLine, copyRow, splitOn_copyFields nonempty, Function.comp_def, copyFieldUnescape_copyField]

theorem RunPlan.table?_of_mem (run : RunPlan) {table : TablePlan} (member : table ∈ run.tables) :
    run.table? table.schema table.name = some table := by
  have distinct := run.distinct
  unfold RunPlan.table?
  generalize run.tables = tables at member distinct
  induction tables with
  | nil => cases member
  | cons first rest ih =>
    obtain ⟨apart, distinct⟩ := List.pairwise_cons.mp distinct
    rcases List.mem_cons.mp member with rfl | later
    · simp
    · have other := apart table later
      rw [List.find?_cons_of_neg (by simpa using other)]
      exact ih later distinct

/-- Where a mapped table is in the source, with what the seed reads of it: its
columns, and the COPY stream of its rows in some order and some chunks. -/
structure SeedReads.Table (reads : SeedReads) (schema : SourceSchema) (source : SourceTables) (table : TablePlan)
    (oid : Oid) (relation : Relation) : Prop where
  found : schema.relation oid = some relation
  namespaceEq : relation.namespace = table.schema
  nameEq : relation.name = table.name
  columns : reads.columns table = relation.columns.map RelationColumn.name
  rows : ∃ rows : List Row, (rows : Multiset Row) = source oid ∧
    (reads.chunks table).flatten = (rows.map copyRow).flatten

/-- The seed reads every mapped table as it was in one state of the source. -/
def SeedReads.Consistent (reads : SeedReads) (run : RunPlan) (schema : SourceSchema) (source : SourceTables) : Prop :=
  ∀ table ∈ run.tables, ∃ oid relation, reads.Table schema source table oid relation

section

variable {server : TargetServer} {run : RunPlan} {shardFn : ShardFunction} {schema : SourceSchema}
  {source : SourceTables} {reads : SeedReads} {target target' : TargetTables} {table : TablePlan}

theorem keyOf_table (member : table ∈ run.tables) (namespaceEq : relation.namespace = table.schema)
    (nameEq : relation.name = table.name) {keyIndex : Nat}
    (position : shardKeyIndex relation table.shardKeyColumn = .ok keyIndex) :
    run.keyOf relation = some ⟨keyIndex, table.shardKeyType⟩ := by
  simp [RunPlan.keyOf, namespaceEq, nameEq, run.table?_of_mem member, position]

theorem copyFiltered_ok {snapshot : String} {chunks lines : List (List UInt8)} {spec : CopySpec}
    (copied : copyFiltered snapshot chunks spec shardFn = .ok lines) :
    ∃ keyIndex, spec.columns.findIdx? (· == spec.shardKeyColumn) = some keyIndex ∧
      ∃ sink n, streamFiltered chunks keyIndex spec shardFn = (sink, .ok n) ∧ sink.sent = lines := by
  unfold copyFiltered at copied
  split at copied
  · cases copied
  · split at copied
    · cases copied
    · rename_i keyIndex found
      obtain ⟨n, done, rfl⟩ := map_ok copied
      exact ⟨keyIndex, found, _, n, Prod.ext rfl done, rfl⟩

theorem shardKeyIndex_of_findIdx? {column : String} {keyIndex : Nat}
    (found : (relation.columns.map RelationColumn.name).findIdx? (· == column) = some keyIndex) :
    shardKeyIndex relation column = .ok keyIndex := by
  rw [List.findIdx?_map] at found
  have found' : relation.columns.findIdx? (fun c => c.name == column) = some keyIndex := found
  simp [shardKeyIndex, found']

theorem copyFrom_ok {name : String × String} {columns : List String} {lines : List (List UInt8)}
    (loaded : server.copyFrom name columns lines target = some target') :
    target' = Function.update target name
      (target name + ((lines.map TargetServer.copyLine : List Row) : Multiset Row).map (Row.named columns)) := by
  simp only [TargetServer.copyFrom] at loaded
  split at loaded
  · cases loaded
  · cases loaded
    rfl

theorem slice_coe {f : RelFilter} (key : run.keyOf relation = some f) (rows : List Row) :
    run.slice shardFn relation rows =
      ((rows.filter fun row => row.inRange f.keyIndex f.keyType shardFn run.range : List Row) : Multiset Row).map
        (Row.named (relation.columns.map RelationColumn.name)) := by
  simp only [RunPlan.slice, keeps_eq key, Multiset.filter_coe, Bool.decide_eq_true]

theorem seedTable_ok (fits : ∀ oid, ∀ row ∈ source oid, schema.Fits oid row) (member : table ∈ run.tables)
    {oid : Oid} (isTable : reads.Table schema source table oid relation)
    (seeded : seedTable server run shardFn reads target table = .ok target') :
    (∃ keyIndex, shardKeyIndex relation table.shardKeyColumn = .ok keyIndex) ∧
      target' = Function.update target (table.schema, table.name) (run.slice shardFn relation (source oid)) := by
  obtain ⟨lines, copied, loaded⟩ := bind_ok seeded
  obtain ⟨keyIndex, position, sink, n, streamed, rfl⟩ := copyFiltered_ok (within_ok copied)
  obtain ⟨rows, listed, encoded⟩ := isTable.rows
  simp only [copySpec, isTable.columns] at position
  have atKey := shardKeyIndex_of_findIdx? position
  have key := keyOf_table member isTable.namespaceEq isTable.nameEq atKey
  refine ⟨⟨keyIndex, atKey⟩, ?_⟩
  have bound : ∀ row ∈ rows, keyIndex < row.length := by
    intro row inRows
    obtain ⟨r, found, length⟩ := fits oid row (listed ▸ Multiset.mem_coe.mpr inRows)
    cases isTable.found.symm.trans found
    have inColumns := (List.findIdx?_eq_some_iff_findIdx_eq.mp position).1
    rw [List.length_map] at inColumns
    omega
  have sent := streamFiltered_copyRows keyIndex (copySpec run reads table) shardFn encoded bound streamed
  have decoded : sink.sent.map TargetServer.copyLine = keptRows keyIndex (copySpec run reads table) shardFn rows := by
    rw [sent, List.map_map]
    refine (List.map_congr_left fun row kept => copyLine_copyRow ?_).trans (List.map_id _)
    rintro rfl
    exact absurd (bound [] (List.mem_of_mem_filter kept)) (by simp)
  split at loaded
  · rename_i seededTables copiedIn
    cases loaded
    rw [copyFrom_ok copiedIn, decoded, TargetServer.truncate, Function.update_self, Function.update_idem, zero_add,
      ← listed, slice_coe key, isTable.columns]
    rfl
  · cases loaded

theorem seedTables_ok (fits : ∀ oid, ∀ row ∈ source oid, schema.Fits oid row)
    (consistent : reads.Consistent run schema source) {tables : List TablePlan} (mapped : ∀ t ∈ tables, t ∈ run.tables)
    (distinct : tables.Pairwise fun a b => ¬ (a.schema = b.schema ∧ a.name = b.name))
    (seeded : tables.foldlM (seedTable server run shardFn reads) target = .ok target') :
    (∀ name, (∀ t ∈ tables, (t.schema, t.name) ≠ name) → target' name = target name) ∧
      ∀ t ∈ tables, ∀ oid relation, schema.relation oid = some relation → relation.namespace = t.schema →
        relation.name = t.name → (∃ keyIndex, shardKeyIndex relation t.shardKeyColumn = .ok keyIndex) ∧
          target' (t.schema, t.name) = run.slice shardFn relation (source oid) := by
  induction tables generalizing target with
  | nil =>
    cases seeded
    exact ⟨fun _ _ => rfl, fun _ member => nomatch member⟩
  | cons first rest ih =>
    obtain ⟨next, own, later⟩ := foldlM_cons_ok seeded
    obtain ⟨apart, distinct⟩ := List.pairwise_cons.mp distinct
    obtain ⟨untouched, others⟩ := ih (fun t member => mapped t (List.mem_cons_of_mem _ member)) distinct later
    have isMapped := mapped first List.mem_cons_self
    obtain ⟨oid, relation, isTable⟩ := consistent first isMapped
    obtain ⟨position, rfl⟩ := seedTable_ok fits isMapped isTable own
    refine ⟨fun name other => ?_, fun t member o r found namespaceEq nameEq => ?_⟩
    · rw [untouched name fun t member => other t (List.mem_cons_of_mem _ member),
        Function.update_of_ne (other first List.mem_cons_self).symm]
    · rcases List.mem_cons.mp member with rfl | inRest
      · cases schema.unique found isTable.found (namespaceEq.trans isTable.namespaceEq.symm)
          (nameEq.trans isTable.nameEq.symm)
        cases found.symm.trans isTable.found
        refine ⟨position, ?_⟩
        rw [untouched _ fun t inRest same => apart t inRest ⟨(congrArg Prod.fst same).symm,
          (congrArg Prod.snd same).symm⟩, Function.update_self]
      · exact others t inRest o r found namespaceEq nameEq

theorem mem_of_keyOf {f : RelFilter} (key : run.keyOf relation = some f) :
    ∃ t ∈ run.tables, relation.namespace = t.schema ∧ relation.name = t.name := by
  unfold RunPlan.keyOf at key
  split at key
  · cases key
  · rename_i t found
    have names := List.find?_some found
    simp only [Bool.and_eq_true, beq_iff_eq] at names
    exact ⟨t, List.mem_of_find?_eq_some found, names.1.symm, names.2.symm⟩

end

/-- The frames after the last whole transaction: none, or the start of one that
has not committed, with the changes it has sent. -/
inductive SourceSchema.Opens (schema : SourceSchema) : List RowChange → List LogicalRepMsg → Prop
  | idle : Opens schema [] []
  | begun {changes : List RowChange} {body : List LogicalRepMsg} (finalLsn : Nat) : schema.Carries changes body →
      Opens schema changes (.begin finalLsn :: body)

theorem onMessage_opens {server : TargetServer} {run : RunPlan} {shardFn : ShardFunction} {schema : SourceSchema}
    {s t : Streaming} {changes : List RowChange} {frames : List LogicalRepMsg} (opens : schema.Opens changes frames)
    (announced : s.Announced run schema) (ran : frames.foldlM (onMessage server run shardFn) s = .ok t) :
    t.tables = s.tables ∧ NeverCrosses run shardFn schema changes := by
  cases opens with
  | idle =>
    cases ran
    exact ⟨rfl, fun _ _ _ _ member => nomatch member⟩
  | begun finalLsn carries =>
    obtain ⟨opened, begun, ran⟩ := foldlM_cons_ok ran
    obtain ⟨start, _, announced⟩ := onMessage_begin announced begun
    obtain ⟨quiet, _, pending, _, buffers⟩ := onMessage_body carries announced ran
    exact ⟨quiet.tables.trans start.tables, buffers.neverCrosses⟩

theorem runWorkflow_replicates {server : TargetServer} {xxh64 : Xxh64} {run : RunPlan} {reads : SeedReads}
    {target : TargetTables} {schema : SourceSchema} {history : SourceHistory schema} {snapshot streamed : Nat}
    {begun : List RowChange} {frames rest : List LogicalRepMsg} {s : Streaming}
    (consistent : reads.Consistent run schema (history.after snapshot))
    (streams : schema.Streams ((history.txns.drop snapshot).take streamed) frames) (opens : schema.Opens begun rest)
    (ran : runWorkflow server xxh64 run reads target (frames ++ rest) = .ok s) :
    (∀ table ∈ run.tables, ∀ oid relation, schema.relation oid = some relation → relation.namespace = table.schema →
      relation.name = table.name → ∃ keyIndex, shardKeyIndex relation table.shardKeyColumn = .ok keyIndex) ∧
    Replicates run xxh64.v1 schema (history.after (snapshot + streamed)) s.tables ∧
    NeverCrosses run xxh64.v1 schema
      (((history.txns.drop snapshot).take streamed).flatMap SourceTxn.changes ++ begun) := by
  obtain ⟨shardFn, known, ran⟩ := bind_ok ran
  obtain ⟨_, rfl⟩ := shardFunction_ok_iff.mp (within_ok known)
  obtain ⟨seeded, seeds, ran⟩ := bind_ok ran
  obtain ⟨middle, whole, tail⟩ := foldlM_append_ok ran
  have fits := history.after_fits snapshot
  obtain ⟨_, sliced⟩ := seedTables_ok fits consistent (fun _ member => member) run.distinct seeds
  have replicates : Replicates run xxh64.v1 schema (history.after snapshot) seeded := by
    intro oid relation f found key
    obtain ⟨t, member, namespaceEq, nameEq⟩ := mem_of_keyOf key
    rw [namespaceEq, nameEq]
    exact (sliced t member oid relation found namespaceEq nameEq).2
  have announced : (Streaming.start run reads seeded).Announced run schema :=
    ⟨fun stored => (nomatch stored), fun _ _ stored => (nomatch stored)⟩
  have part : ((history.txns.drop snapshot).take streamed).Sublist history.txns :=
    (List.take_sublist _ _).trans (List.drop_sublist _ _)
  obtain ⟨replicated, announced', stays⟩ := onMessage_stream streams fits (history.valid_between snapshot streamed)
    (history.increasing.sublist part) announced (fun txn member => history.positive txn (part.subset member))
    replicates whole
  obtain ⟨same, staysOpen⟩ := onMessage_opens opens announced' tail
  rw [← history.after_add, ← same] at replicated
  exact ⟨fun table member oid relation found namespaceEq nameEq =>
    (sliced table member oid relation found namespaceEq nameEq).1, replicated, stays.append staysOpen⟩

/-- A workflow that has not failed holds, for each of its tables, exactly the
source's rows in its range as of the last transaction streamed to it, and no
update it was sent moved a row across the boundary of the range. -/
theorem seed_and_stream_replicate {server : TargetServer} {xxh64 : Xxh64} {run : RunPlan} {reads : SeedReads}
    {target : TargetTables} {schema : SourceSchema} (history : SourceHistory schema) (snapshot streamed : Nat)
    {begun : List RowChange} {frames rest : List LogicalRepMsg} {s : Streaming}
    (consistent : reads.Consistent run schema (history.after snapshot))
    (streams : schema.Streams ((history.txns.drop snapshot).take streamed) frames) (opens : schema.Opens begun rest)
    (ran : runWorkflow server xxh64 run reads target (frames ++ rest) = .ok s) :
    ∀ table ∈ run.tables, ∀ oid relation, schema.relation oid = some relation → relation.namespace = table.schema →
      relation.name = table.name → ∃ keyIndex, shardKeyIndex relation table.shardKeyColumn = .ok keyIndex ∧
        s.tables (table.schema, table.name) =
          ((history.after (snapshot + streamed) oid).filter fun row =>
            row.inRange keyIndex table.shardKeyType xxh64.v1 run.range = true).map
              (Row.named (relation.columns.map RelationColumn.name)) ∧
        ∀ old new, .update oid old new ∈
            ((history.txns.drop snapshot).take streamed).flatMap SourceTxn.changes ++ begun →
          old.inRange keyIndex table.shardKeyType xxh64.v1 run.range =
            new.inRange keyIndex table.shardKeyType xxh64.v1 run.range := by
  obtain ⟨positions, replicated, stays⟩ := runWorkflow_replicates consistent streams opens ran
  intro table member oid relation found namespaceEq nameEq
  obtain ⟨keyIndex, position⟩ := positions table member oid relation found namespaceEq nameEq
  have key := keyOf_table member namespaceEq nameEq position
  refine ⟨keyIndex, position, ?_, fun old new update => ?_⟩
  · have rows := replicated oid relation _ found key
    rw [namespaceEq, nameEq] at rows
    simpa only [RunPlan.slice, keeps_eq key] using rows
  · have side := stays oid old new relation update found
    simpa only [keeps_eq key] using side

/-! A table of two rows, one of them in the range: the seed copies it, the
stream updates it, and an open transaction updates the other. -/

namespace SampleRun

def orders : Relation := ⟨1, "public", "orders", 'd', [⟨1, "region", 25, -1⟩, ⟨0, "state", 25, -1⟩]⟩

def schema : SourceSchema where
  relation oid := if oid = 1 then some orders else none
  oid_eq found := by
    split at found
    · cases found
      exact .symm ‹_›
    · cases found
  unique found found' _ _ := by
    split at found
    · split at found'
      · exact .trans ‹_› (.symm ‹_›)
      · cases found'
    · cases found
  columns_nodup found := by
    split at found
    · cases found
      decide
    · cases found

def kept : Row := [some [49], some [97]]
def moved : Row := [some [49], some [99]]
def foreign : Row := [some [50], some [98]]

def history : SourceHistory schema where
  initial := fun _ => 0
  txns := [⟨5, 6, [.insert 1 kept, .insert 1 foreign]⟩, ⟨8, 9, [.update 1 kept moved]⟩]
  fits := by simp
  valid := ⟨⟨orders, rfl, rfl⟩, ⟨orders, rfl, rfl⟩, ⟨by decide, orders, rfl, rfl⟩, trivial⟩
  positive := by simp
  increasing := by simp

def xxh64 : Xxh64 := ⟨fun bytes => if bytes = [49] then 0 else 2 ^ 63⟩

def run : RunPlan where
  id := "seed"
  tables := [⟨"public", "orders", "region", .text⟩]
  range := ⟨0, some (2 ^ 63), by rintro e ⟨⟩; decide⟩
  hashFunction := "xxhash64_v1"
  distinct := by simp

def server : TargetServer := ⟨fun _ _ => false, fun _ _ _ => false, fun _ _ a b => a == b, by simp⟩

def reads : SeedReads where
  snapshot := "00000003-1"
  consistentPoint := 6
  columns _ := ["region", "state"]
  chunks _ := [(copyRow foreign).take 3, (copyRow foreign).drop 3 ++ copyRow kept]

def frames : List LogicalRepMsg :=
  [.begin 8, .relation orders, .update 1 none none [.text [49], .text [99]], .commit 8 9]

def openFrames : List LogicalRepMsg :=
  [.begin 11, .update 1 none none [.text [50], .unchangedToast]]

theorem consistent : reads.Consistent run schema (history.after 1) := by
  intro table member
  cases List.mem_singleton.mp member
  refine ⟨1, orders, rfl, rfl, rfl, rfl, [foreign, kept], by decide, by decide⟩

theorem ships : RowChange.Ships orders (.update 1 kept moved) (.update 1 none none (newTuple (fun _ => false) moved)) := by
  refine .updateSameKey rfl (by simp) ?_
  rintro (_ | _ | i) column found key
  · rfl
  · cases found
    cases key
  · cases found

theorem streams : SourceSchema.Streams schema ((history.txns.drop 1).take 1) frames := by
  have found : SourceSchema.relation schema 1 = some orders := rfl
  have carries := SourceSchema.Carries.between (.relation found) (.change (c := .update 1 kept moved) found ships .done)
  exact .txn (t := ⟨8, 9, [.update 1 kept moved]⟩) 8 carries .done

theorem opens : SourceSchema.Opens schema [.update 1 foreign foreign] openFrames := by
  have ships : RowChange.Ships orders (.update 1 foreign foreign)
      (.update 1 none none (newTuple (fun i => i == 1) foreign)) :=
    .updateSameKey rfl (fun _ _ => rfl) (fun _ _ _ _ => rfl)
  exact .begun 11 (.change rfl ships .done)

end SampleRun

theorem sampleRun_replicates : ∃ s, runWorkflow SampleRun.server SampleRun.xxh64 SampleRun.run SampleRun.reads
      (fun _ => 0) (SampleRun.frames ++ SampleRun.openFrames) = .ok s ∧
    s.tables ("public", "orders") = {Row.named ["region", "state"] SampleRun.moved} := by
  cases ran : runWorkflow SampleRun.server SampleRun.xxh64 SampleRun.run SampleRun.reads (fun _ => 0)
      (SampleRun.frames ++ SampleRun.openFrames) with
  | error e =>
    have ok : (runWorkflow SampleRun.server SampleRun.xxh64 SampleRun.run SampleRun.reads (fun _ => 0)
      (SampleRun.frames ++ SampleRun.openFrames)).toBool = true := by decide +kernel
    rw [ran] at ok
    cases ok
  | ok s =>
    obtain ⟨keyIndex, position, rows, _⟩ := seed_and_stream_replicate SampleRun.history 1 1 SampleRun.consistent
      SampleRun.streams SampleRun.opens ran _ List.mem_cons_self 1 SampleRun.orders rfl rfl rfl
    cases position
    exact ⟨s, rfl, rows.trans (by rfl)⟩

end PgShard
