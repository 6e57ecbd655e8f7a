import PgShard.Agent.FilteredReplica

/-! The acknowledgement of a cutover barrier: what the published journal position
says about the transactions before the barrier. -/

namespace PgShard

open Checked

def LogicalRepMsg.barrier? : LogicalRepMsg → Option Nat
  | .message transactional lsn tag _ => if tag = "pgshard" ∧ transactional then some lsn else none
  | _ => none

structure LoggedTxn extends SourceTxn where
  startLsn : Nat
  barriers : List Nat
  inside : ∀ lsn ∈ barriers, startLsn ≤ lsn ∧ lsn < commitLsn

structure SourceWal (schema : SourceSchema) extends SourceHistory schema where
  logged : List LoggedTxn
  listed : logged.map LoggedTxn.toSourceTxn = txns

/-- Of two transactions with barriers, one starts after the other has committed. -/
def SourceWal.BarriersApart {schema : SourceSchema} (wal : SourceWal schema) : Prop :=
  wal.logged.Pairwise fun a b => a.barriers ≠ [] → b.barriers ≠ [] →
    a.commitLsn < b.startLsn ∨ b.commitLsn < a.startLsn

/-- The messages of whole transactions, each with the barriers it has emitted. -/
inductive SourceSchema.Logs (schema : SourceSchema) : List LoggedTxn → List LogicalRepMsg → Prop
  | done : Logs schema [] []
  | txn {t : LoggedTxn} {txns : List LoggedTxn} {body rest : List LogicalRepMsg} (finalLsn : Nat) :
      schema.Carries t.changes body → body.filterMap LogicalRepMsg.barrier? = t.barriers → Logs schema txns rest →
      Logs schema (t :: txns) (.begin finalLsn :: body ++ .commit t.commitLsn t.endLsn :: rest)

theorem SourceSchema.Logs.streams {schema : SourceSchema} {txns : List LoggedTxn} {frames : List LogicalRepMsg}
    (logs : schema.Logs txns frames) : schema.Streams (txns.map LoggedTxn.toSourceTxn) frames := by
  induction logs with
  | done => exact .done
  | txn finalLsn carries _ _ ih => exact .txn finalLsn carries ih

/-! ### The journal of the streaming loop -/

section

variable {server : TargetServer} {run : RunPlan} {shardFn : ShardFunction} {schema : SourceSchema}
  {s t : Streaming} {msg : LogicalRepMsg} {body frames : List LogicalRepMsg} {txns : List LoggedTxn}

structure Streaming.SameJournal (s t : Streaming) : Prop where
  pending : t.pendingJournal = s.pendingJournal
  published : t.journalLsn = s.journalLsn

theorem handle_journal (ran : s.handle server msg = .ok t) : s.SameJournal t := by
  unfold Streaming.handle at ran
  split at ran
  · obtain ⟨plan, _, ran⟩ := bind_ok ran
    split at ran
    · cases ran
      exact ⟨rfl, rfl⟩
    · obtain ⟨⟨tables, row⟩, _, ran⟩ := bind_ok ran
      cases ran
      exact ⟨rfl, rfl⟩
  · obtain ⟨next, _, ran⟩ := bind_ok ran
    cases ran
    exact ⟨rfl, rfl⟩

theorem keep_journal {kept : Bool} (ran : s.keep server msg kept = .ok t) : s.SameJournal t := by
  unfold Streaming.keep at ran
  split at ran
  · exact handle_journal ran
  · cases ran
    exact ⟨rfl, rfl⟩

theorem dispatch_journal (ran : s.dispatch server run shardFn msg = .ok t) : s.SameJournal t := by
  unfold Streaming.dispatch at ran
  split at ran
  · obtain ⟨f, _, ran⟩ := bind_ok ran
    exact ⟨(handle_journal ran).pending, (handle_journal ran).published⟩
  · obtain ⟨f, _, ran⟩ := bind_ok ran
    obtain ⟨kept, _, ran⟩ := bind_ok ran
    exact keep_journal ran
  · obtain ⟨f, _, ran⟩ := bind_ok ran
    obtain ⟨newIn, _, ran⟩ := bind_ok ran
    split at ran
    · obtain ⟨oldIn, _, ran⟩ := bind_ok ran
      obtain ⟨_, _, ran⟩ := bind_ok ran
      exact keep_journal ran
    · exact keep_journal ran
  · obtain ⟨f, _, ran⟩ := bind_ok ran
    split at ran
    · obtain ⟨kept, _, ran⟩ := bind_ok ran
      exact keep_journal ran
    · cases ran
  · cases ran
  · exact handle_journal ran

theorem onMessage_journal (ran : onMessage server run shardFn s msg = .ok t) :
    match msg with
    | .commit _ _ => t.pendingJournal = none ∧ t.journalLsn = s.pendingJournal.or s.journalLsn
    | _ => t.pendingJournal = msg.barrier?.or s.pendingJournal ∧ t.journalLsn = s.journalLsn := by
  obtain ⟨next, dispatched, same⟩ := bind_ok ran
  cases same
  obtain ⟨pending, published⟩ := dispatch_journal dispatched
  cases msg with
  | commit commitLsn endLsn => exact ⟨rfl, by simp [Streaming.publish, pending, published, Streaming.noteJournal]⟩
  | message transactional lsn tag content =>
    simp only [Streaming.publish, pending, published, Streaming.noteJournal, LogicalRepMsg.barrier?]
    split <;> simp
  | _ => exact ⟨pending, published⟩

theorem carries_not_commit {changes : List RowChange} (carries : schema.Carries changes (msg :: body)) :
    (∀ commitLsn endLsn, msg ≠ .commit commitLsn endLsn) ∧ ∃ later, schema.Carries later body := by
  cases carries with
  | between between rest => exact ⟨by cases between <;> exact fun _ _ => nofun, _, rest⟩
  | change found ships rest => exact ⟨by cases ships <;> exact fun _ _ => nofun, _, rest⟩

theorem body_journal {changes : List RowChange} (carries : schema.Carries changes body)
    (ran : body.foldlM (onMessage server run shardFn) s = .ok t) :
    t.journalLsn = s.journalLsn ∧
      t.pendingJournal = (body.filterMap LogicalRepMsg.barrier?).getLast?.or s.pendingJournal := by
  induction body generalizing s changes with
  | nil =>
    cases ran
    exact ⟨rfl, rfl⟩
  | cons msg rest ih =>
    obtain ⟨next, first, later⟩ := foldlM_cons_ok ran
    obtain ⟨notCommit, remaining, carries⟩ := carries_not_commit carries
    obtain ⟨published, pending⟩ := ih carries later
    have own : next.pendingJournal = msg.barrier?.or s.pendingJournal ∧ next.journalLsn = s.journalLsn := by
      have noted := onMessage_journal first
      cases msg with
      | commit commitLsn endLsn => exact absurd rfl (notCommit commitLsn endLsn)
      | _ => exact noted
    refine ⟨published.trans own.2, ?_⟩
    rw [pending, own.1]
    cases barrier : msg.barrier? with
    | none => simp [barrier]
    | some lsn =>
      rw [List.filterMap_cons_some barrier, List.getLast?_cons]
      cases (rest.filterMap LogicalRepMsg.barrier?).getLast? <;> rfl

theorem logs_journal (logs : schema.Logs txns frames) (idle : s.pendingJournal = none)
    (ran : frames.foldlM (onMessage server run shardFn) s = .ok t) {lsn : Nat} (published : t.journalLsn = some lsn) :
    s.journalLsn = some lsn ∨ ∃ txn ∈ txns, lsn ∈ txn.barriers := by
  induction logs generalizing s with
  | done =>
    cases ran
    exact .inl published
  | @txn txn txns body rest finalLsn carries emitted _ ih =>
    rw [List.cons_append] at ran
    obtain ⟨opened, begun, ran⟩ := foldlM_cons_ok ran
    obtain ⟨buffered, inBody, ran⟩ := foldlM_append_ok ran
    obtain ⟨closed, committed, ran⟩ := foldlM_cons_ok ran
    obtain ⟨pending, same⟩ := onMessage_journal begun
    obtain ⟨same', pending'⟩ := body_journal carries inBody
    obtain ⟨cleared, takes⟩ := onMessage_journal committed
    rcases ih cleared ran with old | ⟨later, member, barrier⟩
    · rw [takes, pending', pending, idle, emitted, same', same] at old
      cases last : txn.barriers.getLast? with
      | none => exact .inl (by simpa [last, LogicalRepMsg.barrier?] using old)
      | some barrier =>
        simp only [last, Option.some_or, Option.some.injEq] at old
        exact .inr ⟨txn, List.mem_cons_self, old ▸ List.mem_of_getLast? last⟩
    · exact .inr ⟨later, List.mem_cons_of_mem _ member, barrier⟩

theorem opens_journal {changes : List RowChange} (opens : schema.Opens changes frames)
    (ran : frames.foldlM (onMessage server run shardFn) s = .ok t) : t.journalLsn = s.journalLsn := by
  cases opens with
  | idle =>
    cases ran
    rfl
  | begun finalLsn carries =>
    obtain ⟨opened, begun, ran⟩ := foldlM_cons_ok ran
    exact (body_journal carries ran).1.trans (onMessage_journal begun).2

end

theorem SourceWal.BarriersApart.index_le {schema : SourceSchema} {wal : SourceWal schema} (apart : wal.BarriersApart)
    {i k : Nat} {t u : LoggedTxn} (first : wal.logged[k]? = some u) (second : wal.logged[i]? = some t)
    {lsn published : Nat} (emitted : published ∈ u.barriers) (barrier : lsn ∈ t.barriers) (reached : lsn ≤ published) :
    i ≤ k := by
  by_contra later
  obtain ⟨inK, rfl⟩ := List.getElem?_eq_some_iff.mp first
  obtain ⟨inI, rfl⟩ := List.getElem?_eq_some_iff.mp second
  have order := List.pairwise_iff_getElem.mp apart k i inK inI (by omega) (List.ne_nil_of_mem emitted)
    (List.ne_nil_of_mem barrier)
  have commits : wal.logged[k].commitLsn < wal.logged[i].commitLsn := by
    have increasing := wal.increasing
    rw [← wal.listed, List.pairwise_map] at increasing
    exact List.pairwise_iff_getElem.mp increasing k i inK inI (by omega)
  have inside := wal.logged[k].inside published emitted
  have inside' := wal.logged[i].inside lsn barrier
  omega

/-- The acknowledgement of a barrier is sound: once the published journal position has
reached it, the target holds the source's rows of the range as of some moment at which
the barrier's transaction, and every one before it, had committed. -/
theorem barrier_acknowledged {server : TargetServer} {xxh64 : Xxh64} {run : RunPlan} {reads : SeedReads}
    {target : TargetTables} {schema : SourceSchema} (wal : SourceWal schema) (snapshot streamed : Nat)
    {begun : List RowChange} {frames rest : List LogicalRepMsg} {s : Streaming} (apart : wal.BarriersApart)
    (consistent : reads.Consistent run schema (wal.after snapshot))
    (logs : schema.Logs ((wal.logged.drop snapshot).take streamed) frames) (opens : schema.Opens begun rest)
    (ran : runWorkflow server xxh64 run reads target (frames ++ rest) = .ok s) {published : Nat}
    (journal : s.journalLsn = some published) {i : Nat} {t : LoggedTxn} (committed : wal.logged[i]? = some t) {lsn : Nat}
    (barrier : lsn ∈ t.barriers) (reached : lsn ≤ published) :
    ∃ n, i < n ∧ Replicates run xxh64.v1 schema (wal.after n) s.tables := by
  have streams : schema.Streams ((wal.txns.drop snapshot).take streamed) frames := by
    have sent := logs.streams
    rwa [List.map_take, List.map_drop, wal.listed] at sent
  obtain ⟨-, replicated, -⟩ := runWorkflow_replicates consistent streams opens ran
  refine ⟨snapshot + streamed, ?_, replicated⟩
  obtain ⟨shardFn, _, ran⟩ := bind_ok ran
  obtain ⟨seeded, _, ran⟩ := bind_ok ran
  obtain ⟨middle, whole, tail⟩ := foldlM_append_ok ran
  rcases logs_journal logs rfl whole ((opens_journal opens tail).symm.trans journal) with none | ⟨u, member, emitted⟩
  · cases none
  · obtain ⟨k, inStream, found⟩ := List.getElem_of_mem member
    rw [List.getElem_take, List.getElem_drop] at found
    rw [List.length_take, List.length_drop] at inStream
    have first : wal.logged[snapshot + k]? = some u := by
      rw [List.getElem?_eq_getElem (by omega), found]
    have := apart.index_le first committed emitted barrier reached
    omega

namespace SampleRun

def wal : SourceWal schema where
  toSourceHistory := history
  logged := [⟨⟨5, 6, [.insert 1 kept, .insert 1 foreign]⟩, 2, [], by simp⟩,
    ⟨⟨8, 9, [.update 1 kept moved]⟩, 7, [7], by simp⟩]
  listed := rfl

def barrierFrames : List LogicalRepMsg :=
  [.begin 8, .relation orders, .message true 7 "pgshard" [], .update 1 none none [.text [49], .text [99]], .commit 8 9]

theorem logs : SourceSchema.Logs schema ((wal.logged.drop 1).take 1) barrierFrames := by
  have found : SourceSchema.relation schema 1 = some orders := rfl
  have carries := SourceSchema.Carries.between (.relation found)
    (.between (.message true 7 "pgshard" []) (.change (c := .update 1 kept moved) found ships .done))
  exact .txn (t := ⟨⟨8, 9, [.update 1 kept moved]⟩, 7, [7], by simp⟩) 8 carries rfl .done

end SampleRun

theorem sampleRun_acknowledged : ∃ s, runWorkflow SampleRun.server SampleRun.xxh64 SampleRun.run SampleRun.reads
      (fun _ => 0) (SampleRun.barrierFrames ++ []) = .ok s ∧ s.journalLsn = some 7 ∧
    ∃ n, 1 < n ∧ Replicates SampleRun.run SampleRun.xxh64.v1 SampleRun.schema (SampleRun.wal.after n) s.tables := by
  have ok : (runWorkflow SampleRun.server SampleRun.xxh64 SampleRun.run SampleRun.reads (fun _ => 0)
      (SampleRun.barrierFrames ++ [])).toOption.any (fun s => s.journalLsn == some 7) = true := by decide +kernel
  cases ran : runWorkflow SampleRun.server SampleRun.xxh64 SampleRun.run SampleRun.reads (fun _ => 0)
      (SampleRun.barrierFrames ++ []) with
  | error e =>
    rw [ran] at ok
    cases ok
  | ok s =>
    rw [ran] at ok
    have journal : s.journalLsn = some 7 := by simpa [Except.toOption] using ok
    have apart : SampleRun.wal.BarriersApart := by simp [SourceWal.BarriersApart, SampleRun.wal]
    exact ⟨s, rfl, journal, barrier_acknowledged SampleRun.wal 1 1 apart SampleRun.consistent SampleRun.logs .idle ran
      journal (i := 1) rfl List.mem_cons_self (le_refl 7)⟩

end PgShard
