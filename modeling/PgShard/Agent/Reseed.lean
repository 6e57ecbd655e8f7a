import PgShard.Agent.FilteredReplica
import PgShard.Lib.Runs

/-! A re-seed of a workflow's target while an earlier applier of the same workflow may
still run transactions on it. -/

namespace PgShard

/-- What a re-seeding worker is about to do. -/
inductive Reseeding
  /-- Clear the consumer's checkpoint. -/
  | clearing
  /-- Truncate and copy each table. -/
  | seeding (todo : List TablePlan) (truncated : Bool)
  | streaming (s : Streaming)
  | ended

/-- The target, the earlier applier as long as its session lasts, and the new worker;
with the tables copied so far, and those on which a transaction of the earlier applier
has taken effect since. -/
structure Handover where
  tables : TargetTables
  progress : Option ProgressRow
  earlier : Option Streaming
  worker : Reseeding := .clearing
  copied : List (String × String) := []
  disturbed : List (String × String) := []

def Applier.touched (a : Applier) : List (String × String) :=
  a.pending.filterMap fun change =>
    match buildStatement a.relations change, a.relations change.relOid with
    | .ok (some _), some info => some (info.schema, info.table)
    | _, _ => none

def Streaming.effects (s : Streaming) : LogicalRepMsg → List (String × String)
  | .commit commitLsn _ => if commitLsn ≤ s.applier.checkpoint then [] else s.applier.touched
  | _ => []

/-- The workflow that is seeded: its plan, what its source answers, and its filter. -/
structure Seed where
  run : RunPlan
  reads : SeedReads
  shardFn : ShardFunction

inductive HandoverEvent
  /-- The earlier worker handles a frame. -/
  | earlier (msg : LogicalRepMsg)
  /-- The session of the earlier applier ends. -/
  | departs
  | clear
  | truncate
  | copy
  /-- `Applier::new`: the stream lease is free only once the earlier session has ended. -/
  | connect
  /-- The new worker handles a frame. -/
  | stream (msg : LogicalRepMsg)
  /-- The new worker fails, or is stopped. -/
  | stop

section

variable (server : TargetServer) (earlier later : Seed)

def Handover.handle (seed : Seed) (h : Handover) (s : Streaming) (msg : LogicalRepMsg) :
    Except WorkflowError Streaming :=
  onMessage server seed.run seed.shardFn { s with tables := h.tables, progress := h.progress } msg

def Handover.step (h : Handover) : HandoverEvent → Option Handover
  | .earlier msg =>
    match h.earlier with
    | none => none
    | some s =>
      match h.handle server earlier s msg with
      | .error _ => some { h with earlier := none }
      | .ok t => some { h with
          tables := t.tables
          progress := t.progress
          earlier := some t
          disturbed := h.disturbed ++ (s.effects msg).filter (h.copied.contains ·) }
  | .departs => some { h with earlier := none }
  | .clear =>
    match h.worker with
    | .clearing => some { h with progress := none, worker := .seeding later.run.tables false }
    | _ => none
  | .truncate =>
    match h.worker with
    | .seeding (table :: todo) false => some { h with
        tables := TargetServer.truncate h.tables (table.schema, table.name)
        worker := .seeding (table :: todo) true }
    | _ => none
  | .copy =>
    match h.worker with
    | .seeding (table :: todo) true =>
      match copyTable server later.run later.shardFn later.reads h.tables table with
      | .error _ => some { h with worker := .ended }
      | .ok tables => some { h with
          tables
          worker := .seeding todo false
          copied := h.copied ++ [(table.schema, table.name)] }
    | _ => none
  | .connect =>
    match h.worker, h.earlier with
    | .seeding [] _, none =>
      let start := Streaming.start later.run later.reads h.tables
      some { h with worker := .streaming { start with applier := .new later.run.id h.progress, progress := h.progress } }
    | .seeding [] _, some _ => some { h with worker := .ended }
    | _, _ => none
  | .stream msg =>
    match h.worker with
    | .streaming s =>
      match h.handle server later s msg with
      | .error _ => some { h with worker := .ended }
      | .ok t => some { h with tables := t.tables, progress := t.progress, worker := .streaming t }
    | _ => none
  | .stop => some { h with worker := .ended }

abbrev Handover.Reached (allowed : Handover → HandoverEvent → Bool) (start : Handover) : Handover → Prop :=
  Runs.Under (Handover.step server earlier later) allowed start

end

/-- A table is copied only once the session of the earlier applier has ended. -/
def Handover.copiesAlone (h : Handover) : HandoverEvent → Bool
  | .copy => h.earlier.isNone
  | _ => true

section

variable {server : TargetServer} {earlier later : Seed} {h h' : Handover}

/-- The earlier applier is there only while nothing is copied, and never beside a
streaming worker. -/
structure Handover.Fenced (h : Handover) : Prop where
  alone : h.earlier ≠ none → h.copied = []
  streaming : ∀ s, h.worker = .streaming s → h.earlier = none
  undisturbed : h.disturbed = []

theorem Handover.Fenced.next (fenced : h.Fenced) {event : HandoverEvent} (allowed : h.copiesAlone event = true)
    (taken : h.step server earlier later event = some h') : h'.Fenced := by
  obtain ⟨alone, streaming, undisturbed⟩ := fenced
  cases event with
  | earlier msg =>
    simp only [Handover.step] at taken
    split at taken
    · cases taken
    rename_i s present
    have nothing := alone (by simp [present])
    split at taken
    · cases taken
      exact ⟨fun absent => absurd rfl absent, fun _ _ => rfl, undisturbed⟩
    · cases taken
      refine ⟨fun _ => nothing, fun t streams => ?_, by simp [undisturbed, nothing]⟩
      cases present.symm.trans (streaming t streams)
  | departs =>
    cases taken
    exact ⟨fun absent => absurd rfl absent, fun _ _ => rfl, undisturbed⟩
  | clear | truncate =>
    simp only [Handover.step] at taken
    split at taken
    · cases taken
      exact ⟨alone, fun _ streams => (nomatch streams), undisturbed⟩
    · cases taken
  | copy =>
    simp only [Handover.step] at taken
    split at taken
    · split at taken
      · cases taken
        exact ⟨alone, fun _ streams => (nomatch streams), undisturbed⟩
      · cases taken
        exact ⟨fun present => absurd (Option.isNone_iff_eq_none.mp allowed) present, fun _ streams => (nomatch streams), undisturbed⟩
    · cases taken
  | connect =>
    simp only [Handover.step] at taken
    split at taken
    · rename_i absent
      cases taken
      exact ⟨alone, fun _ _ => absent, undisturbed⟩
    · cases taken
      exact ⟨alone, fun _ streams => (nomatch streams), undisturbed⟩
    · cases taken
  | stream msg =>
    simp only [Handover.step] at taken
    split at taken
    · rename_i s streams
      have absent := streaming s streams
      split at taken
      · cases taken
        exact ⟨alone, fun _ streams => (nomatch streams), undisturbed⟩
      · cases taken
        exact ⟨alone, fun _ _ => absent, undisturbed⟩
    · cases taken
  | stop =>
    cases taken
    exact ⟨alone, fun _ streams => (nomatch streams), undisturbed⟩

def Handover.begin (tables : TargetTables) (progress : Option ProgressRow) (old : Option Streaming) : Handover :=
  { tables, progress, earlier := old }

theorem Handover.Reached.fenced {tables : TargetTables} {progress : Option ProgressRow} {old : Option Streaming}
    (reached : Reached server earlier later copiesAlone (.begin tables progress old) h) : h.Fenced := by
  have atStart : (begin tables progress old).Fenced := ⟨fun _ => rfl, fun _ streams => (nomatch streams), rfl⟩
  exact reached.invariant atStart fun _ _ _ fenced allowed taken => fenced.next allowed taken

/-- A re-seed whose tables are each copied alone fences its predecessor: once the new
worker streams, no transaction of the earlier applier has taken effect on a table after
its copy, and the earlier applier can run none. -/
theorem reseed_fences {tables : TargetTables} {progress : Option ProgressRow} {old : Option Streaming}
    (reached : Handover.Reached server earlier later Handover.copiesAlone (.begin tables progress old) h) {s : Streaming}
    (streams : h.worker = .streaming s) :
    h.disturbed = [] ∧ ∀ msg, h.step server earlier later (.earlier msg) = none := by
  have fenced := reached.fenced
  refine ⟨fenced.undisturbed, fun msg => ?_⟩
  simp [Handover.step, fenced.streaming s streams]

end

namespace SampleRun

def latest : Row := [some [49], some [100]]

def delayed : Option Streaming :=
  (runWorkflow server xxh64 run reads (fun _ => 0)
    [.begin 8, .relation orders, .update 1 none none [.text [49], .text [99]]]).toOption

def first : Seed := ⟨run, reads, xxh64.v1⟩

def again : Seed := ⟨run, { reads with consistentPoint := 12, chunks := fun _ => [copyRow latest] }, xxh64.v1⟩

def handedOver (allowed : Handover → HandoverEvent → Bool) (events : List HandoverEvent) : Option Handover :=
  delayed.bind fun s =>
    Runs.exec (Handover.step server first again) allowed (.begin s.tables s.progress (some s)) events

theorem handedOver_reached {allowed : Handover → HandoverEvent → Bool} {events : List HandoverEvent} {h : Handover}
    (done : handedOver allowed events = some h) : ∃ s, delayed = some s ∧
      Handover.Reached server first again allowed (.begin s.tables s.progress (some s)) h := by
  obtain ⟨s, present, ran⟩ := Option.bind_eq_some_iff.mp done
  exact ⟨s, present, .exec .start ran⟩

def isStreaming : Reseeding → Bool
  | .streaming _ => true
  | _ => false

theorem isStreaming_iff {w : Reseeding} (streams : isStreaming w = true) : ∃ s, w = .streaming s := by
  cases w with
  | streaming s => exact ⟨s, rfl⟩
  | _ => cases streams

end SampleRun

theorem sampleRun_reseeds : ∃ s h, SampleRun.delayed = some s ∧ Handover.Reached SampleRun.server SampleRun.first
      SampleRun.again Handover.copiesAlone (.begin s.tables s.progress (some s)) h ∧
    h.copied = [("public", "orders")] ∧ h.disturbed = [] := by
  have done : (SampleRun.handedOver Handover.copiesAlone [.clear, .earlier (.commit 8 9), .truncate, .departs, .copy,
      .connect]).any (fun h => SampleRun.isStreaming h.worker && h.copied == [("public", "orders")]) = true := by
    decide +kernel
  obtain ⟨h, run, holds⟩ := (Option.any_eq_true _ _).mp done
  obtain ⟨s, present, reached⟩ := SampleRun.handedOver_reached run
  simp only [Bool.and_eq_true, beq_iff_eq] at holds
  obtain ⟨t, streams⟩ := SampleRun.isStreaming_iff holds.1
  exact ⟨s, h, present, reached, holds.2, (reseed_fences reached streams).1⟩

/-- The earlier applier commits its update after the table's copy: the new worker then
streams to a target whose row is older than the one it has copied. -/
theorem delayed_applier_disturbs : ∃ s h, SampleRun.delayed = some s ∧ Handover.Reached SampleRun.server
      SampleRun.first SampleRun.again (fun _ _ => true) (.begin s.tables s.progress (some s)) h ∧
    (∃ t, h.worker = .streaming t) ∧ h.disturbed = [("public", "orders")] ∧
    (h.tables ("public", "orders")).map (fun row => row "state") = {some [99]} := by
  have done : (SampleRun.handedOver (fun _ _ => true) [.clear, .truncate, .copy, .earlier (.commit 8 9), .departs,
      .connect]).any (fun h => SampleRun.isStreaming h.worker && h.disturbed == [("public", "orders")] &&
        decide ((h.tables ("public", "orders")).map (fun row => row "state") = {some [99]})) = true := by
    decide +kernel
  obtain ⟨h, run, holds⟩ := (Option.any_eq_true _ _).mp done
  obtain ⟨s, present, reached⟩ := SampleRun.handedOver_reached run
  simp only [Bool.and_eq_true, beq_iff_eq, decide_eq_true_eq] at holds
  exact ⟨s, h, present, reached, SampleRun.isStreaming_iff holds.1.1, holds.1.2, holds.2⟩

end PgShard
