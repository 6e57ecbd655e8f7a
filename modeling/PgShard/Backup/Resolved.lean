import PgShard.Backup.Resolver

/-! What a resolved restore plan says: its topology, its shards and the backup set of each. -/

namespace PgShard.Backup

open Checked

variable {e : BackupShard} {backup : BackupManifest} {p : ShardPlan}

/-! ### The searches -/

section

variable {catalog : Catalog} {stanza : String} {t : Time}

theorem newer_ranks (a b : BackupShard) : a.newer b = true ↔ b.stopTime.nanos < a.stopTime.nanos := by
  simp [BackupShard.newer, Time.after]

theorem supersedes_ranks (a b : TopologySnapshot) :
    a.supersedes b = true ↔ toLex (b.validFrom.nanos, b.generation) < toLex (a.validFrom.nanos, a.generation) := by
  simp only [TopologySnapshot.supersedes, Time.after, Time.equal, Bool.or_eq_true, Bool.and_eq_true, decide_eq_true_eq,
    Prod.Lex.toLex_lt_toLex]
  rw [eq_comm (a := a.validFrom.nanos)]

theorem later_ranks (a b : BackupManifest) :
    a.later b = true ↔ toLex (b.completedAt.nanos, b.id) < toLex (a.completedAt.nanos, a.id) := by
  simp only [BackupManifest.later, Time.after, Time.equal, Bool.or_eq_true, Bool.and_eq_true, decide_eq_true_eq,
    Prod.Lex.toLex_lt_toLex]
  rw [eq_comm (a := a.completedAt.nanos)]

theorem newestBackupBefore_eq :
    newestBackupBefore catalog stanza t = Selection.scan (BackupShard.precedes stanza t) BackupShard.newer catalog.entries := by
  rw [Selection.scan, Catalog.entries, List.foldl_flatMap]
  rfl

theorem latestBackup_eq (backups : List BackupManifest) :
    latestBackup backups = Selection.scan (fun _ => true) BackupManifest.later backups := by
  cases backups with
  | nil => rfl
  | cons first rest =>
    rw [Selection.scan, List.foldl_cons]
    have start : Selection.keep (fun _ => true) BackupManifest.later none first = some first := rfl
    rw [start, latestBackup]
    induction rest generalizing first with
    | nil => rfl
    | cons next rest ih =>
      rw [List.foldl_cons, List.foldl_cons]
      by_cases wins : next.later first = true
      · have kept : Selection.keep (fun _ => true) BackupManifest.later (some first) next = some next := by
          simp [Selection.keep, wins]
        rw [if_pos wins, kept]
        exact ih next rfl
      · have kept : Selection.keep (fun _ => true) BackupManifest.later (some first) next = some first := by
          simp [Selection.keep, wins]
        rw [if_neg wins, kept]
        exact ih first rfl

end

/-- The entry is one of the stanza's newest at or before a time. -/
structure Newest (catalog : Catalog) (stanza : String) (t : Time) (e : BackupShard) : Prop where
  recorded : e ∈ catalog.entries
  own : e.stanza = stanza
  before : e.stopTime.nanos ≤ t.nanos
  newest : ∀ other ∈ catalog.entries, other.stanza = stanza → other.stopTime.nanos ≤ t.nanos →
    other.stopTime.nanos ≤ e.stopTime.nanos

theorem precedes_iff {stanza : String} {t : Time} :
    e.precedes stanza t = true ↔ e.stanza = stanza ∧ e.stopTime.nanos ≤ t.nanos := by
  simp [BackupShard.precedes, Time.after]

theorem best_iff_newest {catalog : Catalog} {stanza : String} {t : Time} :
    Selection.Best (BackupShard.precedes stanza t) (fun e => e.stopTime.nanos) catalog.entries e ↔ Newest catalog stanza t e := by
  constructor
  · intro best
    obtain ⟨own, before⟩ := precedes_iff.mp best.able
    exact ⟨best.mem, own, before, fun other member same early => best.top other member (precedes_iff.mpr ⟨same, early⟩)⟩
  · intro newest
    refine ⟨newest.recorded, precedes_iff.mpr ⟨newest.own, newest.before⟩, fun other member ok => ?_⟩
    obtain ⟨same, early⟩ := precedes_iff.mp ok
    exact newest.newest other member same early

theorem newestBackupBefore_newest {catalog : Catalog} {stanza : String} {t : Time}
    (found : newestBackupBefore catalog stanza t = some e) : Newest catalog stanza t e := by
  rw [newestBackupBefore_eq] at found
  exact best_iff_newest.mp (Selection.best_of_scan newer_ranks found)

/-- The snapshot in force at a time: of those that begin at or before it the last to begin, and
of several that begin together the one of the highest generation. -/
structure InForce (catalog : Catalog) (t : Time) (s : TopologySnapshot) : Prop where
  recorded : s ∈ catalog.topologies
  begun : s.validFrom.nanos ≤ t.nanos
  last : ∀ other ∈ catalog.topologies, other.validFrom.nanos ≤ t.nanos → other.validFrom.nanos < s.validFrom.nanos ∨
    other.validFrom.nanos = s.validFrom.nanos ∧ other.generation ≤ s.generation

theorem topologyAt_inForce {catalog : Catalog} {t : Time} {s : TopologySnapshot} (found : topologyAt catalog t = .ok s) :
    InForce catalog t s := by
  unfold topologyAt at found
  split at found
  · rename_i scanned
    cases found
    have best := Selection.best_of_scan supersedes_ranks scanned
    refine ⟨best.mem, by simpa [Time.after] using best.able, fun other member early => ?_⟩
    have lower := best.top other member (by simpa [Time.after] using early)
    exact Prod.Lex.toLex_le_toLex.mp lower
  · cases found

/-- The backup is maximal by completion time and then by id. -/
structure Latest (catalog : Catalog) (backup : BackupManifest) : Prop where
  recorded : backup ∈ catalog.backups
  last : ∀ other ∈ catalog.backups, other.completedAt.nanos < backup.completedAt.nanos ∨
    other.completedAt.nanos = backup.completedAt.nanos ∧ other.id ≤ backup.id

theorem latestBackup_latest {catalog : Catalog}
    (found : latestBackup catalog.backups = some backup) : Latest catalog backup := by
  rw [latestBackup_eq] at found
  have best := Selection.best_of_scan later_ranks found
  exact ⟨best.mem, fun other member => Prod.Lex.toLex_le_toLex.mp (best.top other member rfl)⟩

theorem findOr_ok {α : Type} {p : α → Bool} {message : String} {items : List α} {x : α}
    (found : findOr p message items = .ok x) : x ∈ items ∧ p x = true := by
  unfold findOr at found
  split at found
  · rename_i here
    cases found
    exact ⟨List.mem_of_find?_eq_some here, List.find?_some here⟩
  · cases found

/-! ### The checks -/

theorem checkUnique_ok_iff {α β : Type} [DecidableEq β] {identity : α → β} {message : β → String} {items : List α} :
    checkUnique identity message items = .ok () ↔ (items.map identity).Nodup := by
  have spec : ∀ (earlier : List α) (x : α), (if identity x ∈ earlier.map identity then .error (message (identity x))
      else .ok () : Except String Unit) = .ok () ↔ True ∧ ∀ y ∈ earlier, identity y ≠ identity x := by
    intro earlier x
    split_ifs with seen
    · obtain ⟨y, member, same⟩ := List.mem_map.mp seen
      exact iff_of_false (by simp) fun parts => parts.2 y member same
    · exact iff_of_true rfl ⟨trivial, fun y member same => seen (same ▸ List.mem_map_of_mem member)⟩
  rw [checkUnique, eachWith_ok_iff spec, List.Nodup, List.pairwise_map]
  simp

theorem validate_ok_iff {catalog : Catalog} : validate catalog = .ok () ↔
    (catalog.barriers.map BarrierManifest.id).Nodup ∧ (catalog.backups.map BackupManifest.id).Nodup ∧
      (catalog.topologies.map TopologySnapshot.generation).Nodup := by
  unfold validate
  constructor
  · intro run
    obtain ⟨_, barriers, run⟩ := bind_ok run
    obtain ⟨_, backups, generations⟩ := bind_ok run
    exact ⟨checkUnique_ok_iff.mp barriers, checkUnique_ok_iff.mp backups, checkUnique_ok_iff.mp generations⟩
  · rintro ⟨barriers, backups, generations⟩
    rw [checkUnique_ok_iff.mpr barriers, checkUnique_ok_iff.mpr backups, checkUnique_ok_iff.mpr generations]
    rfl

theorem checkStanza_ok_iff {generation : String} (earlier : List ShardTopology) (s : ShardTopology) :
    checkStanza generation earlier s = .ok () ↔
      s.stanza ≠ "" ∧ ∀ y ∈ earlier, y.name ≠ s.name ∧ y.stanza ≠ s.stanza := by
  unfold checkStanza
  split_ifs with empty seen
  · exact iff_of_false (by simp) fun parts => parts.1 empty
  · obtain ⟨y, member, same⟩ := List.mem_map.mp seen
    exact iff_of_false (by simp) fun parts => (parts.2 y member).1 same
  · cases shared : earlier.find? fun other => other.stanza == s.stanza with
    | some other =>
      have same : other.stanza = s.stanza := by simpa using List.find?_some shared
      exact iff_of_false (by simp) fun parts => (parts.2 other (List.mem_of_find?_eq_some shared)).2 same
    | none =>
      refine iff_of_true rfl ⟨empty, fun y member => ⟨fun same => seen (same ▸ List.mem_map_of_mem member), ?_⟩⟩
      simpa using List.find?_eq_none.mp shared y member

structure ShardPlan.Passes (topology : TopologySnapshot) (p : ShardPlan) : Prop where
  recorded : ∃ s, (topology.shards.find? fun s => s.name == p.shard) = some s ∧ p.stanza = s.stanza
  set : p.set ≠ ""
  value : p.targetType = .name ∨ p.targetType = .lsn → p.targetValue ≠ ""
  verify : p.targetType = .name → p.verifyLSN ≠ ""

theorem checkEntry_ok_iff {topology : TopologySnapshot} (earlier : List ShardPlan) (p : ShardPlan) :
    checkEntry topology earlier p = .ok () ↔ p.Passes topology ∧ ∀ y ∈ earlier, y.shard ≠ p.shard := by
  unfold checkEntry
  cases found : topology.shards.find? fun s => s.name == p.shard with
  | none =>
    refine iff_of_false (by simp) fun parts => ?_
    obtain ⟨s, there, -⟩ := parts.1.recorded
    cases found.symm.trans there
  | some s =>
    simp only
    split_ifs with seen stanza set value verify
    · obtain ⟨y, member, same⟩ := List.mem_map.mp seen
      exact iff_of_false (by simp) fun parts => parts.2 y member same
    · refine iff_of_false (by simp) fun parts => ?_
      obtain ⟨other, there, same⟩ := parts.1.recorded
      cases found.symm.trans there
      exact stanza same
    · exact iff_of_false (by simp) fun parts => parts.1.set set
    · exact iff_of_false (by simp) fun parts => parts.1.value value.1 value.2
    · exact iff_of_false (by simp) fun parts => parts.1.verify verify.1 verify.2
    · refine iff_of_true rfl ⟨⟨⟨s, found, not_not.mp stanza⟩, set, ?_, ?_⟩, fun y member same => ?_⟩
      · exact fun type empty => value ⟨type, empty⟩
      · exact fun type empty => verify ⟨type, empty⟩
      · exact seen (same ▸ List.mem_map_of_mem member)

structure RestorePlan.Sane (lower : String → String) (plan : RestorePlan) : Prop where
  complete : snapshotComplete lower plan.topology = .ok ()
  covers : plan.shards.length = plan.topology.shards.length
  stanzas : ∀ s ∈ plan.topology.shards, s.stanza ≠ ""
  apart : plan.topology.shards.Pairwise fun s u => s.name ≠ u.name ∧ s.stanza ≠ u.stanza
  entries : ∀ p ∈ plan.shards, p.Passes plan.topology
  once : (plan.shards.map ShardPlan.shard).Nodup
  all : ∀ s ∈ plan.topology.shards, s.name ∈ plan.shards.map ShardPlan.shard

theorem sanity_ok_iff {lower : String → String} {plan : RestorePlan} : sanity lower plan = .ok () ↔ plan.Sane lower := by
  unfold sanity
  constructor
  · intro run
    obtain ⟨_, complete, run⟩ := bind_ok run
    split_ifs at run with differs
    · obtain ⟨_, refused, -⟩ := bind_ok run
      cases refused
    · obtain ⟨_, stanzas, run⟩ := bind_ok run
      obtain ⟨_, entries, run⟩ := bind_ok run
      obtain ⟨stanzas, apart, -⟩ := (eachWith_ok_iff checkStanza_ok_iff).mp stanzas
      obtain ⟨entries, once, -⟩ := (eachWith_ok_iff checkEntry_ok_iff).mp entries
      split at run
      · cases run
      · rename_i all
        refine ⟨complete, not_not.mp differs, stanzas, apart, entries, List.pairwise_map.mpr once, fun s member => ?_⟩
        simpa using List.find?_eq_none.mp all s member
  · intro sane
    have stanzas (generation : String) : eachWith (checkStanza generation) [] plan.topology.shards = .ok () :=
      (eachWith_ok_iff checkStanza_ok_iff).mpr ⟨sane.stanzas, sane.apart, by simp⟩
    have entries : eachWith (checkEntry plan.topology) [] plan.shards = .ok () :=
      (eachWith_ok_iff checkEntry_ok_iff).mpr ⟨sane.entries, List.pairwise_map.mp sane.once, by simp⟩
    have all : (plan.topology.shards.find? fun s => s.name ∉ plan.shards.map ShardPlan.shard) = none :=
      List.find?_eq_none.mpr fun s member => by simpa using sane.all s member
    simp only [sane.complete, sane.covers, ne_eq, not_true_eq_false, if_false, all]
    rw [stanzas, entries]
    rfl

theorem checked_ok_iff {lower : String → String} {plan result : RestorePlan} :
    checked lower plan = .ok result ↔ plan.Sane lower ∧ result = plan := by
  rw [← sanity_ok_iff]
  constructor
  · intro run
    obtain ⟨_, sane, run⟩ := bind_ok run
    cases run
    exact ⟨sane, rfl⟩
  · rintro ⟨sane, rfl⟩
    rw [checked, sane]
    rfl

/-! ### A resolved plan -/

/-- Plan entries and shards of the topology correspond one to one by name, each entry with the
stanza the topology records for it, no two with the same one, and with a backup set. -/
structure Matches (plan : RestorePlan) : Prop where
  names : (plan.shards.map ShardPlan.shard).Perm (plan.topology.shards.map ShardTopology.name)
  once : (plan.shards.map ShardPlan.shard).Nodup
  stanza : ∀ p ∈ plan.shards, ∃ s ∈ plan.topology.shards, s.name = p.shard ∧ s.stanza = p.stanza
  filled : ∀ p ∈ plan.shards, p.stanza ≠ "" ∧ p.set ≠ ""
  apart : (plan.shards.map ShardPlan.stanza).Nodup

theorem RestorePlan.Sane.matches {lower : String → String} {plan : RestorePlan} (sane : plan.Sane lower) : Matches plan := by
  have stanza : ∀ p ∈ plan.shards, ∃ s ∈ plan.topology.shards, s.name = p.shard ∧ s.stanza = p.stanza := by
    intro p member
    obtain ⟨s, found, same⟩ := (sane.entries p member).recorded
    exact ⟨s, List.mem_of_find?_eq_some found, by simpa using List.find?_some found, same.symm⟩
  have names : (plan.topology.shards.map ShardTopology.name).Nodup :=
    List.pairwise_map.mpr (sane.apart.imp fun both => both.1)
  have stanzas : (plan.topology.shards.map ShardTopology.stanza).Nodup :=
    List.pairwise_map.mpr (sane.apart.imp fun both => both.2)
  refine ⟨?_, sane.once, stanza, fun p member => ⟨?_, (sane.entries p member).set⟩, ?_⟩
  · refine (List.perm_ext_iff_of_nodup sane.once names).mpr fun name => ⟨fun planned => ?_, fun recorded => ?_⟩
    · obtain ⟨p, member, rfl⟩ := List.mem_map.mp planned
      obtain ⟨s, there, same, -⟩ := stanza p member
      exact same ▸ List.mem_map_of_mem there
    · obtain ⟨s, member, rfl⟩ := List.mem_map.mp recorded
      exact sane.all s member
  · obtain ⟨s, there, -, same⟩ := stanza p member
    exact same ▸ sane.stanzas s there
  · -- equal stanzas are of one shard of the topology, hence of one entry
    refine List.Nodup.map_on (fun p first q second same => ?_) (List.Nodup.of_map _ sane.once)
    obtain ⟨s, there, name, own⟩ := stanza p first
    obtain ⟨u, also, name', own'⟩ := stanza q second
    have one : s = u := List.inj_on_of_nodup_map stanzas there also (own.trans (same.trans own'.symm))
    exact List.inj_on_of_nodup_map sane.once first second (name.symm.trans ((congrArg _ one).trans name'))

/-- The topology of a plan is the recorded one of a generation. -/
structure OfGeneration (catalog : Catalog) (generation : Int) (plan : RestorePlan) : Prop where
  recorded : plan.topology ∈ catalog.topologies
  generation : plan.topology.generation = generation

/-- Every entry restores from a newest recorded backup of its stanza at or before a time. -/
def NewestSets (catalog : Catalog) (t : Time) (plan : RestorePlan) : Prop :=
  ∀ p ∈ plan.shards, ∃ e, Newest catalog p.stanza t e ∧ p.set = e.label

/-- Every entry stops at the restore point of its shard in the barrier. -/
def StopsAtBarrier (barrier : BarrierManifest) (plan : RestorePlan) : Prop :=
  ∀ p ∈ plan.shards, ∃ shard ∈ barrier.shards, p.shard = shard.name ∧ p.stanza = shard.stanza ∧ p.targetType = .name ∧
    p.targetValue = shard.restorePoint ∧ p.verifyLSN = shard.lsn ∧ shard.restorePoint ≠ "" ∧ shard.lsn ≠ ""

/-- Every entry restores the set of its shard in the backup and stops at its stop LSN. -/
def StopsAtBackup (backup : BackupManifest) (plan : RestorePlan) : Prop :=
  ∀ p ∈ plan.shards, ∃ shard ∈ backup.shards, p.shard = shard.name ∧ p.stanza = shard.stanza ∧ p.set = shard.label ∧
    p.targetType = .lsn ∧ p.targetValue = shard.stopLSN ∧ p.verifyLSN = shard.stopLSN ∧ shard.stopLSN ≠ ""

inductive PlanFor (catalog : Catalog) (plan : RestorePlan) : Target → Prop
  | barrier {barrier : BarrierManifest} : barrier ∈ catalog.barriers →
      OfGeneration catalog barrier.topologyGeneration plan → NewestSets catalog barrier.time plan →
      StopsAtBarrier barrier plan → PlanFor catalog plan { barrierID := barrier.id }
  | time {t : Time} : InForce catalog t plan.topology → NewestSets catalog t plan →
      (∀ p ∈ plan.shards, p.targetType = .time) → PlanFor catalog plan { time := some t }
  | backup {backup : BackupManifest} : backup ∈ catalog.backups →
      OfGeneration catalog backup.topologyGeneration plan → StopsAtBackup backup plan →
      PlanFor catalog plan { backupID := backup.id }
  | latest {backup : BackupManifest} : Latest catalog backup →
      OfGeneration catalog backup.topologyGeneration plan → StopsAtBackup backup plan →
      PlanFor catalog plan { latest := true }

section

variable {lower : String → String} {catalog : Catalog} {target : Target} {plan : RestorePlan}

theorem selectors_cases (one : target.selectors = 1) :
    (∃ id, id ≠ "" ∧ target = { barrierID := id }) ∨ (∃ t, target = { time := some t }) ∨
      (∃ id, id ≠ "" ∧ target = { backupID := id }) ∨ target = { latest := true } := by
  obtain ⟨barrierID, time, backupID, latest⟩ := target
  by_cases barrier : barrierID = "" <;> by_cases backup : backupID = "" <;> cases time <;> cases latest <;>
    simp_all [Target.selectors]

theorem resolve_barrier {id : String} (named : id ≠ "") :
    resolve lower catalog { barrierID := id } = (do validate catalog; resolveBarrier lower catalog id) := by
  simp [resolve, Target.selectors, named]

theorem resolve_time {t : Time} :
    resolve lower catalog { time := some t } = (do validate catalog; resolveTime lower catalog t) := by
  simp [resolve, Target.selectors]

theorem resolve_backup {id : String} (named : id ≠ "") :
    resolve lower catalog { backupID := id } = (do validate catalog; resolveBackup lower catalog id) := by
  simp [resolve, Target.selectors, named]

theorem resolve_latest :
    resolve lower catalog { latest := true } = (do validate catalog; resolveLatest lower catalog) := by
  simp [resolve, Target.selectors]

theorem selectors_of_resolve (resolved : resolve lower catalog target = .ok plan) : target.selectors = 1 := by
  by_contra several
  simp [resolve, several, bind, Except.bind] at resolved

theorem topologyByGeneration_ok {generation : Int} {topology : TopologySnapshot}
    (found : topologyByGeneration catalog generation = .ok topology) :
    topology ∈ catalog.topologies ∧ topology.generation = generation := by
  obtain ⟨member, same⟩ := findOr_ok found
  exact ⟨member, by simpa using same⟩

theorem barrierEntry_ok {barrier : BarrierManifest} {shard : BarrierShard}
    (built : barrierEntry catalog barrier shard = .ok p) : ∃ e, newestBackupBefore catalog shard.stanza barrier.time = some e ∧
      p = ⟨shard.name, shard.stanza, e.label, .name, shard.restorePoint, timelineArg shard.timeline, false, shard.lsn⟩ := by
  unfold barrierEntry at built
  split at built
  · cases built
  · cases built
    exact ⟨_, ‹_›, rfl⟩

theorem timeEntry_ok {t : Time} {shard : ShardTopology} (built : timeEntry catalog t shard = .ok p) :
    ∃ e, newestBackupBefore catalog shard.stanza t = some e ∧
      p = ⟨shard.name, shard.stanza, e.label, .time, t.rfc3339Nano, "latest", false, ""⟩ := by
  unfold timeEntry at built
  split at built
  · cases built
  · cases built
    exact ⟨_, ‹_›, rfl⟩

theorem backupEntry_ok {shard : BackupShard}
    (built : backupEntry backup shard = .ok p) : shard.stopLSN ≠ "" ∧
      p = ⟨shard.name, shard.stanza, shard.label, .lsn, shard.stopLSN, timelineArg shard.timeline, true, shard.stopLSN⟩ := by
  unfold backupEntry at built
  split_ifs at built with missing
  cases built
  exact ⟨missing, rfl⟩

theorem resolveBarrier_ok {id : String} (resolved : resolveBarrier lower catalog id = .ok plan) : plan.Sane lower ∧
    ∃ barrier ∈ catalog.barriers, barrier.id = id ∧ OfGeneration catalog barrier.topologyGeneration plan ∧
      NewestSets catalog barrier.time plan ∧ StopsAtBarrier barrier plan := by
  obtain ⟨barrier, found, resolved⟩ := bind_ok resolved
  obtain ⟨topology, recorded, resolved⟩ := bind_ok resolved
  obtain ⟨shards, built, resolved⟩ := bind_ok resolved
  obtain ⟨sane, rfl⟩ := checked_ok_iff.mp resolved
  obtain ⟨member, named⟩ := findOr_ok found
  obtain ⟨there, generation⟩ := topologyByGeneration_ok recorded
  refine ⟨sane, barrier, member, by simpa using named, ⟨there, generation⟩, fun p inside => ?_, fun p inside => ?_⟩
  · obtain ⟨shard, -, own⟩ := mem_of_mapM_ok built inside
    obtain ⟨e, newest, rfl⟩ := barrierEntry_ok own
    exact ⟨e, newestBackupBefore_newest newest, rfl⟩
  · obtain ⟨shard, listed, own⟩ := mem_of_mapM_ok built inside
    obtain ⟨e, -, rfl⟩ := barrierEntry_ok own
    have passes := sane.entries _ inside
    exact ⟨shard, listed, rfl, rfl, rfl, rfl, rfl, passes.value (.inl rfl), passes.verify rfl⟩

theorem resolveTime_ok {t : Time} (resolved : resolveTime lower catalog t = .ok plan) : plan.Sane lower ∧
    InForce catalog t plan.topology ∧ NewestSets catalog t plan ∧ ∀ p ∈ plan.shards, p.targetType = .time := by
  obtain ⟨topology, recorded, resolved⟩ := bind_ok resolved
  obtain ⟨shards, built, resolved⟩ := bind_ok resolved
  obtain ⟨sane, rfl⟩ := checked_ok_iff.mp resolved
  refine ⟨sane, topologyAt_inForce recorded, fun p inside => ?_, fun p inside => ?_⟩
  · obtain ⟨shard, -, own⟩ := mem_of_mapM_ok built inside
    obtain ⟨e, newest, rfl⟩ := timeEntry_ok own
    exact ⟨e, newestBackupBefore_newest newest, rfl⟩
  · obtain ⟨shard, -, own⟩ := mem_of_mapM_ok built inside
    obtain ⟨e, -, rfl⟩ := timeEntry_ok own
    rfl

theorem planFromBackup_ok (resolved : planFromBackup lower catalog backup = .ok plan) :
    plan.Sane lower ∧ OfGeneration catalog backup.topologyGeneration plan ∧ StopsAtBackup backup plan := by
  obtain ⟨topology, recorded, resolved⟩ := bind_ok resolved
  obtain ⟨shards, built, resolved⟩ := bind_ok resolved
  obtain ⟨sane, rfl⟩ := checked_ok_iff.mp resolved
  obtain ⟨there, generation⟩ := topologyByGeneration_ok recorded
  refine ⟨sane, ⟨there, generation⟩, fun p inside => ?_⟩
  obtain ⟨shard, listed, own⟩ := mem_of_mapM_ok built inside
  obtain ⟨stop, rfl⟩ := backupEntry_ok own
  exact ⟨shard, listed, rfl, rfl, rfl, rfl, rfl, rfl, stop⟩

theorem resolve_ok (resolved : resolve lower catalog target = .ok plan) : plan.Sane lower ∧ PlanFor catalog plan target := by
  rcases selectors_cases (selectors_of_resolve resolved) with ⟨id, named, rfl⟩ | ⟨t, rfl⟩ | ⟨id, named, rfl⟩ | rfl
  · rw [resolve_barrier named] at resolved
    obtain ⟨_, -, resolved⟩ := bind_ok resolved
    obtain ⟨sane, barrier, member, rfl, topology, sets, stops⟩ := resolveBarrier_ok resolved
    exact ⟨sane, .barrier member topology sets stops⟩
  · rw [resolve_time] at resolved
    obtain ⟨_, -, resolved⟩ := bind_ok resolved
    obtain ⟨sane, topology, sets, stops⟩ := resolveTime_ok resolved
    exact ⟨sane, .time topology sets stops⟩
  · rw [resolve_backup named] at resolved
    obtain ⟨_, -, resolved⟩ := bind_ok resolved
    obtain ⟨backup, found, resolved⟩ := bind_ok resolved
    obtain ⟨sane, topology, stops⟩ := planFromBackup_ok resolved
    obtain ⟨member, own⟩ := findOr_ok found
    have same : backup.id = id := by simpa using own
    subst same
    exact ⟨sane, .backup member topology stops⟩
  · rw [resolve_latest] at resolved
    obtain ⟨_, -, resolved⟩ := bind_ok resolved
    unfold resolveLatest at resolved
    split at resolved
    · cases resolved
    · rename_i newest found
      obtain ⟨sane, topology, stops⟩ := planFromBackup_ok resolved
      exact ⟨sane, .latest (latestBackup_latest found) topology stops⟩

/-- A resolved plan matches its topology and is the plan its target asks for. -/
theorem resolved_plan_right (resolved : resolve lower catalog target = .ok plan) : Matches plan ∧ PlanFor catalog plan target := by
  obtain ⟨sane, wanted⟩ := resolve_ok resolved
  exact ⟨sane.matches, wanted⟩

end

def pairCatalog : Catalog where
  topologies := [{
    generation := 1, validFrom := ⟨0, "t0", "t0"⟩, hashFunction := "xxhash64_v1"
    shards := [
      { name := "data", stanza := "s-data", role := "data", state := "serving" },
      { name := "sys", stanza := "s-sys", role := "system", state := "serving" }]
    tables := [{ schema := "public", name := "orders", type := "sharded", shardKeyColumn := "id", shardKeyType := "int" }] }]
  barriers := [⟨"b1", ⟨50, "t50", "t50"⟩, 0, 1, [
    ⟨"data", "s-data", "0/50", 1, "pgshard_b1"⟩, ⟨"sys", "s-sys", "0/60", 1, "pgshard_b1"⟩]⟩]
  backups := [
    ⟨"k1", ⟨11, "t11", "t11"⟩, 1, 0, [
      ⟨"data", "s-data", "full-1", "0/10", 1, ⟨10, "t10", "t10"⟩⟩, ⟨"sys", "s-sys", "full-2", "0/11", 1, ⟨11, "t11", "t11"⟩⟩]⟩,
    ⟨"k2", ⟨91, "t91", "t91"⟩, 1, 0, [
      ⟨"data", "s-data", "full-3", "0/90", 1, ⟨90, "t90", "t90"⟩⟩, ⟨"sys", "s-sys", "full-4", "0/91", 1, ⟨91, "t91", "t91"⟩⟩]⟩]

/-- The barrier is restored from the backup before it. -/
theorem resolved_plan_right_barrier : ∃ plan, resolve id pairCatalog { barrierID := "b1" } = .ok plan ∧
    plan.shards.map ShardPlan.set = ["full-1", "full-2"] ∧ PlanFor pairCatalog plan { barrierID := "b1" } := by
  have resolved : ((resolve id pairCatalog { barrierID := "b1" }).toOption.map fun plan => plan.shards.map ShardPlan.set) =
      some ["full-1", "full-2"] := by decide +kernel
  cases made : resolve id pairCatalog { barrierID := "b1" } with
  | error e => simp [made, Except.toOption] at resolved
  | ok plan =>
    simp only [made, Except.toOption, Option.map_some, Option.some.injEq] at resolved
    exact ⟨plan, rfl, resolved, (resolved_plan_right made).2⟩

end PgShard.Backup
