import PgShard.Lib.KeySort
import PgShard.Backup.Resolved

/-! When the outcome of a resolution does not depend on the order of the catalog. -/

namespace PgShard.Backup

open Checked

variable {t : Time} {stanza : String} {a b : BackupManifest} {plan : RestorePlan} {target : Target}

theorem InForce.unique {catalog : Catalog} {s u : TopologySnapshot} (first : InForce catalog t s)
    (valid : validate catalog = .ok ()) (second : InForce catalog t u) : s = u := by
  have below := first.last u second.recorded second.begun
  have above := second.last s first.recorded first.begun
  exact List.inj_on_of_nodup_map (validate_ok_iff.mp valid).2.2 first.recorded second.recorded (by omega)

/-- The same manifest with its shard entries in another order. -/
def BackupManifest.Reorders (a b : BackupManifest) : Prop :=
  ∃ shards, a.shards.Perm shards ∧ b = { a with shards }

structure Reordered (c d : Catalog) : Prop where
  topologies : c.topologies.Perm d.topologies
  barriers : c.barriers.Perm d.barriers
  backups : KeySort.Shuffled BackupManifest.Reorders c.backups d.backups

/-- Both fail, or both give the same plan up to the order of its entries. -/
def SameOutcome : Except String RestorePlan → Except String RestorePlan → Prop
  | .error _, .error _ => True
  | .ok p, .ok q => p.topology = q.topology ∧ p.shards.Perm q.shards
  | _, _ => False

theorem SameOutcome.refl (result : Except String RestorePlan) : SameOutcome result result := by
  cases result with
  | error e => trivial
  | ok p => exact ⟨rfl, .refl _⟩

def OrderFree (lower : String → String) (catalog : Catalog) (target : Target) : Prop :=
  ∀ d, Reordered catalog d → SameOutcome (resolve lower catalog target) (resolve lower d target)

/-- A target asks for the newest backup of a stanza at or before a time. -/
inductive Wanted (catalog : Catalog) : Target → Time → String → Prop
  | barrier {barrier : BarrierManifest} {topology : TopologySnapshot} {shard : BarrierShard} :
      barrier ∈ catalog.barriers → barrier.id ≠ "" →
      topologyByGeneration catalog barrier.topologyGeneration = .ok topology →
      shard ∈ barrier.shards → Wanted catalog { barrierID := barrier.id } barrier.time shard.stanza
  | time {t : Time} {topology : TopologySnapshot} {shard : ShardTopology} : InForce catalog t topology →
      shard ∈ topology.shards → Wanted catalog { time := some t } t shard.stanza

/-- In a catalog that is valid the entries that tie for the newest backup a target asks for are of one backup set. -/
def Decided (catalog : Catalog) (target : Target) : Prop :=
  validate catalog = .ok () → ∀ t stanza, Wanted catalog target t stanza → ∀ e other, Newest catalog stanza t e → Newest catalog stanza t other →
    e.label = other.label

section

variable {c d : Catalog}

variable {lower : String → String}

theorem findOr_perm {α : Type} {l m : List α} (perm : l.Perm m) {p : α → Bool} (message : String)
    (one : ∀ x ∈ l, ∀ y ∈ l, p x = true → p y = true → x = y) : findOr p message l = findOr p message m := by
  have same : l.find? p = m.find? p := by
    cases left : l.find? p with
    | none =>
      symm
      exact List.find?_eq_none.mpr fun x member => List.find?_eq_none.mp left x (perm.symm.subset member)
    | some x =>
      cases right : m.find? p with
      | none =>
        exact absurd (List.find?_some left) (List.find?_eq_none.mp right x (perm.subset (List.mem_of_find?_eq_some left)))
      | some y =>
        have inside := perm.symm.subset (List.mem_of_find?_eq_some right)
        rw [one x (List.mem_of_find?_eq_some left) y inside (List.find?_some left) (List.find?_some right)]
  rw [findOr, findOr, same]

theorem barrierEntry_congr {barrier : BarrierManifest} {shard : BarrierShard}
    (same : (newestBackupBefore c shard.stanza barrier.time).map BackupShard.label =
      (newestBackupBefore d shard.stanza barrier.time).map BackupShard.label) :
    barrierEntry c barrier shard = barrierEntry d barrier shard := by
  unfold barrierEntry
  cases left : newestBackupBefore c shard.stanza barrier.time <;>
    cases right : newestBackupBefore d shard.stanza barrier.time <;> simp_all

theorem timeEntry_congr {shard : ShardTopology}
    (same : (newestBackupBefore c shard.stanza t).map BackupShard.label =
      (newestBackupBefore d shard.stanza t).map BackupShard.label) : timeEntry c t shard = timeEntry d t shard := by
  unfold timeEntry
  cases left : newestBackupBefore c shard.stanza t <;> cases right : newestBackupBefore d shard.stanza t <;> simp_all

theorem RestorePlan.Sane.perm {topology : TopologySnapshot} {l m : List ShardPlan} (perm : l.Perm m)
    (sane : RestorePlan.Sane lower ⟨topology, l⟩) : RestorePlan.Sane lower ⟨topology, m⟩ where
  complete := sane.complete
  covers := perm.length_eq.symm.trans sane.covers
  stanzas := sane.stanzas
  apart := sane.apart
  entries p member := sane.entries p (perm.symm.subset member)
  once := (perm.map _).nodup_iff.mp sane.once
  all s member := (perm.map _).subset (sane.all s member)

theorem BackupManifest.Reorders.symm (reorders : a.Reorders b) : b.Reorders a := by
  obtain ⟨shards, perm, rfl⟩ := reorders
  exact ⟨a.shards, perm.symm, rfl⟩

theorem SameOutcome.of_ok {left right : Except String RestorePlan}
    (forth : ∀ plan, left = .ok plan → ∃ other, right = .ok other ∧ plan.topology = other.topology ∧
      plan.shards.Perm other.shards) (back : ∀ plan, right = .ok plan → ∃ other, left = .ok other) :
    SameOutcome left right := by
  cases left with
  | ok plan =>
    obtain ⟨other, rfl, same⟩ := forth plan rfl
    exact same
  | error e =>
    cases right with
    | error f => trivial
    | ok plan =>
      obtain ⟨other, impossible⟩ := back plan rfl
      cases impossible

theorem findBackup_error {id e : String} (missing : findBackup c id = .error e) : ∀ b ∈ c.backups, b.id ≠ id := by
  intro b member same
  unfold findBackup findOr at missing
  split at missing
  · cases missing
  · rename_i none
    simpa [same] using List.find?_eq_none.mp none b member

theorem latestBackup_none_iff {backups : List BackupManifest} : latestBackup backups = none ↔ backups = [] := by
  cases backups <;> simp [latestBackup]

section Order

variable (reordered : Reordered c d)
include reordered

theorem Reordered.entries : c.entries.Perm d.entries :=
  reordered.backups.flatMap fun a _ b ⟨shards, perm, same⟩ => by
    subst same
    exact perm

theorem Reordered.validate_iff : validate c = .ok () ↔ validate d = .ok () := by
  have ids : (c.backups.map BackupManifest.id).Perm (d.backups.map BackupManifest.id) :=
    reordered.backups.map fun a _ b ⟨shards, perm, same⟩ => by
      subst same
      rfl
  rw [validate_ok_iff, validate_ok_iff, (reordered.barriers.map _).nodup_iff, ids.nodup_iff,
    (reordered.topologies.map _).nodup_iff]

theorem Reordered.symm : Reordered d c where
  topologies := reordered.topologies.symm
  barriers := reordered.barriers.symm
  backups := reordered.backups.symm fun _ _ reorders => reorders.symm

theorem Reordered.newest_label (one : ∀ e other, Newest c stanza t e → Newest c stanza t other → e.label = other.label) :
    (newestBackupBefore c stanza t).map BackupShard.label = (newestBackupBefore d stanza t).map BackupShard.label := by
  rw [newestBackupBefore_eq, newestBackupBefore_eq]
  exact Selection.scan_map_perm newer_ranks reordered.entries fun x y first second =>
    one x y (best_iff_newest.mp first) (best_iff_newest.mp second)

theorem Latest.same (first : Latest c a) (second : Latest d b) : a.id = b.id := by
  obtain ⟨a', inside, shards, perm, rfl⟩ := reordered.backups.mem second.recorded
  obtain ⟨b', inside', shards', perm', same⟩ := reordered.symm.backups.mem first.recorded
  have above := first.last a' inside
  have below := second.last b' inside'
  have id : b'.id = a.id := by rw [same]
  have time : b'.completedAt = a.completedAt := by rw [same]
  rw [id, time] at below
  rcases above with earlier | ⟨tie, le⟩ <;> rcases below with earlier' | ⟨tie', ge⟩
  · exact absurd (earlier.trans earlier') (lt_irrefl _)
  · simp only at tie'
    omega
  · simp only at earlier'
    omega
  · exact le_antisymm ge le

variable (valid : validate c = .ok ())
include valid

theorem Reordered.findBarrier_eq (id : String) : findBarrier c id = findBarrier d id := by
  refine findOr_perm reordered.barriers _ fun x inside y inside' first second => ?_
  have same : x.id = y.id := by simp_all
  exact List.inj_on_of_nodup_map (validate_ok_iff.mp valid).1 inside inside' same

theorem Reordered.topologyByGeneration_eq (generation : Int) :
    topologyByGeneration c generation = topologyByGeneration d generation := by
  refine findOr_perm reordered.topologies _ fun x inside y inside' first second => ?_
  have same : x.generation = y.generation := by simp_all
  exact List.inj_on_of_nodup_map (validate_ok_iff.mp valid).2.2 inside inside' same

theorem Reordered.topologyAt_eq (t : Time) : topologyAt c t = topologyAt d t := by
  let begun (s : TopologySnapshot) : Bool := !s.validFrom.after t
  have same : (Selection.scan begun TopologySnapshot.supersedes c.topologies).map id =
      (Selection.scan begun TopologySnapshot.supersedes d.topologies).map id := by
    refine Selection.scan_map_perm supersedes_ranks reordered.topologies fun x y first second => ?_
    have generation : x.generation = y.generation := (Prod.mk.inj (toLex.injective (first.same_key second))).2
    exact List.inj_on_of_nodup_map (validate_ok_iff.mp valid).2.2 first.mem second.mem generation
  simp only [Option.map_id, id_eq] at same
  unfold topologyAt
  rw [same]

/-! ### Targets with a time -/

theorem Reordered.resolveBarrier_eq {id : String} (named : id ≠ "") (decided : Decided c { barrierID := id }) :
    resolveBarrier lower c id = resolveBarrier lower d id := by
  unfold resolveBarrier
  rw [← reordered.findBarrier_eq valid]
  cases found : findBarrier c id with
  | error e => rfl
  | ok barrier =>
    obtain ⟨member, own⟩ := findOr_ok found
    have same : barrier.id = id := by simpa using own
    subst same
    show (topologyByGeneration c barrier.topologyGeneration).bind _ =
      (topologyByGeneration d barrier.topologyGeneration).bind _
    rw [← reordered.topologyByGeneration_eq valid]
    cases recorded : topologyByGeneration c barrier.topologyGeneration with
    | error e => rfl
    | ok topology =>
      have entries : barrier.shards.mapM (barrierEntry c barrier) = barrier.shards.mapM (barrierEntry d barrier) :=
        mapM_congr fun shard listed =>
          barrierEntry_congr (reordered.newest_label (decided valid _ _ (.barrier member named recorded listed)))
      show (barrier.shards.mapM (barrierEntry c barrier)).bind _ = (barrier.shards.mapM (barrierEntry d barrier)).bind _
      rw [entries]

theorem Reordered.resolveTime_eq (decided : Decided c { time := some t }) :
    resolveTime lower c t = resolveTime lower d t := by
  unfold resolveTime
  rw [← reordered.topologyAt_eq valid]
  cases found : topologyAt c t with
  | error e => rfl
  | ok topology =>
    have entries : topology.shards.mapM (timeEntry c t) = topology.shards.mapM (timeEntry d t) :=
      mapM_congr fun shard listed =>
        timeEntry_congr (reordered.newest_label (decided valid _ _ (.time (topologyAt_inForce found) listed)))
    show (topology.shards.mapM (timeEntry c t)).bind _ = (topology.shards.mapM (timeEntry d t)).bind _
    rw [entries]

/-! ### Targets that name a backup -/

theorem Reordered.planFromBackup_ok (reorders : a.Reorders b) (resolved : planFromBackup lower c a = .ok plan) :
    ∃ other, planFromBackup lower d b = .ok other ∧ plan.topology = other.topology ∧ plan.shards.Perm other.shards := by
  obtain ⟨listed, perm, rfl⟩ := reorders
  obtain ⟨topology, recorded, resolved⟩ := bind_ok resolved
  obtain ⟨shards, built, resolved⟩ := bind_ok resolved
  obtain ⟨sane, rfl⟩ := checked_ok_iff.mp resolved
  obtain ⟨others, related, permuted⟩ := List.perm_comp_forall₂ perm.symm (mapM_forall₂.mp built)
  have rebuilt : listed.mapM (backupEntry { a with shards := listed }) = .ok others := mapM_forall₂.mpr related
  have verdict : checked lower ⟨topology, others⟩ = .ok ⟨topology, others⟩ :=
    checked_ok_iff.mpr ⟨sane.perm permuted.symm, rfl⟩
  refine ⟨⟨topology, others⟩, ?_, rfl, permuted.symm⟩
  show (topologyByGeneration d a.topologyGeneration).bind _ = _
  rw [← reordered.topologyByGeneration_eq valid, recorded]
  show (listed.mapM (backupEntry { a with shards := listed })).bind _ = _
  rw [rebuilt]
  exact verdict

theorem Reordered.planFromBackup_same (reorders : a.Reorders b) :
    SameOutcome (planFromBackup lower c a) (planFromBackup lower d b) := by
  refine .of_ok (fun plan resolved => reordered.planFromBackup_ok valid reorders resolved) fun plan resolved => ?_
  obtain ⟨other, found, -⟩ :=
    reordered.symm.planFromBackup_ok (reordered.validate_iff.mp valid) reorders.symm resolved
  exact ⟨other, found⟩

theorem Reordered.same_backup (left : a ∈ c.backups) (right : b ∈ d.backups) (same : a.id = b.id) : a.Reorders b := by
  obtain ⟨other, inside, shards, perm, rfl⟩ := reordered.backups.mem right
  have one : a = other := List.inj_on_of_nodup_map (validate_ok_iff.mp valid).2.1 left inside same
  subst one
  exact ⟨shards, perm, rfl⟩

theorem Reordered.resolveBackup_same (id : String) :
    SameOutcome (resolveBackup lower c id) (resolveBackup lower d id) := by
  unfold resolveBackup
  cases left : findBackup c id with
  | ok a =>
    obtain ⟨inside, own⟩ := findOr_ok left
    cases right : findBackup d id with
    | ok b =>
      obtain ⟨inside', own'⟩ := findOr_ok right
      have same : a.id = b.id := by simp_all
      exact reordered.planFromBackup_same valid (reordered.same_backup valid inside inside' same)
    | error e =>
      obtain ⟨b, inside', shards, perm, same⟩ := reordered.symm.backups.mem inside
      have own' : b.id = id := by simpa [same] using own
      exact absurd own' (findBackup_error right b inside')
  | error e =>
    cases right : findBackup d id with
    | ok b =>
      obtain ⟨inside', own'⟩ := findOr_ok right
      obtain ⟨a, inside, shards, perm, same⟩ := reordered.backups.mem inside'
      have own : a.id = id := by simpa [same] using own'
      exact absurd own (findBackup_error left a inside)
    | error f => trivial

theorem Reordered.resolveLatest_same : SameOutcome (resolveLatest lower c) (resolveLatest lower d) := by
  have sizes : c.backups = [] ↔ d.backups = [] := by
    constructor <;> intro empty <;> refine List.eq_nil_iff_forall_not_mem.mpr fun b member => ?_
    · obtain ⟨a, inside, -⟩ := reordered.backups.mem member
      simp [empty] at inside
    · obtain ⟨a, inside, -⟩ := reordered.symm.backups.mem member
      simp [empty] at inside
  unfold resolveLatest
  cases left : latestBackup c.backups with
  | none =>
    have right : latestBackup d.backups = none := latestBackup_none_iff.mpr (sizes.mp (latestBackup_none_iff.mp left))
    rw [right]
    trivial
  | some a =>
    cases right : latestBackup d.backups with
    | none => simp [latestBackup_none_iff.mpr (sizes.mpr (latestBackup_none_iff.mp right))] at left
    | some b =>
      have first := latestBackup_latest left
      have second := latestBackup_latest right
      exact reordered.planFromBackup_same valid
        (reordered.same_backup valid first.recorded second.recorded (first.same reordered second))

end Order

/-! ### Every target -/

theorem orderFree_of_decided (decided : Decided c target) : OrderFree lower c target := by
  intro d reordered
  by_cases one : target.selectors = 1
  · -- the catalogs pass or fail `validate` together, and what follows is resolved alike
    have bind_same : ∀ left right, (validate c = .ok () → SameOutcome left right) →
        SameOutcome (do validate c; left) (do validate d; right) := by
      intro left right same
      cases valid : validate c with
      | ok _ =>
        rw [reordered.validate_iff.mp valid]
        exact same valid
      | error e =>
        cases other : validate d with
        | ok _ => cases (reordered.validate_iff.mpr other).symm.trans valid
        | error f => trivial
    rcases selectors_cases one with ⟨id, named, rfl⟩ | ⟨t, rfl⟩ | ⟨id, named, rfl⟩ | rfl
    · rw [resolve_barrier named, resolve_barrier named]
      exact bind_same _ _ fun valid => reordered.resolveBarrier_eq valid named decided ▸ .refl _
    · rw [resolve_time, resolve_time]
      exact bind_same _ _ fun valid => reordered.resolveTime_eq valid decided ▸ .refl _
    · rw [resolve_backup named, resolve_backup named]
      exact bind_same _ _ fun valid => reordered.resolveBackup_same valid id
    · rw [resolve_latest, resolve_latest]
      exact bind_same _ _ fun valid => reordered.resolveLatest_same valid
  · have refused : ∀ catalog, ∃ e, resolve lower catalog target = .error e := by
      intro catalog
      cases resolved : resolve lower catalog target with
      | error e => exact ⟨e, rfl⟩
      | ok plan => exact absurd (selectors_of_resolve resolved) one
    obtain ⟨e, left⟩ := refused c
    obtain ⟨f, right⟩ := refused d
    rw [left, right]
    trivial

/-! ### Ties that matter -/

theorem planned_set (resolved : resolve lower c target = .ok plan) (wanted : Wanted c target t stanza) :
    ∃ p ∈ plan.shards, p.stanza = stanza ∧ (newestBackupBefore c stanza t).map BackupShard.label = some p.set := by
  cases wanted with
  | @barrier barrier _ shard member named _ listed =>
    rw [resolve_barrier named] at resolved
    obtain ⟨_, valid, resolved⟩ := bind_ok resolved
    obtain ⟨found, search, resolved⟩ := bind_ok resolved
    obtain ⟨topology, -, resolved⟩ := bind_ok resolved
    obtain ⟨shards, built, resolved⟩ := bind_ok resolved
    obtain ⟨-, rfl⟩ := checked_ok_iff.mp resolved
    obtain ⟨inside, own⟩ := findOr_ok search
    have same : found = barrier :=
      List.inj_on_of_nodup_map (validate_ok_iff.mp valid).1 inside member (by simpa using own)
    subst same
    obtain ⟨p, planned, own⟩ := exists_of_forall₂ (mapM_forall₂.mp built) listed
    obtain ⟨e, newest, rfl⟩ := barrierEntry_ok own
    exact ⟨_, planned, rfl, by rw [newest]; rfl⟩
  | @time _ topology shard inForce listed =>
    rw [resolve_time] at resolved
    obtain ⟨_, valid, resolved⟩ := bind_ok resolved
    obtain ⟨found, search, resolved⟩ := bind_ok resolved
    obtain ⟨shards, built, resolved⟩ := bind_ok resolved
    obtain ⟨-, rfl⟩ := checked_ok_iff.mp resolved
    have same : found = topology := (topologyAt_inForce search).unique valid inForce
    subst same
    obtain ⟨p, planned, own⟩ := exists_of_forall₂ (mapM_forall₂.mp built) listed
    obtain ⟨e, newest, rfl⟩ := timeEntry_ok own
    exact ⟨_, planned, rfl, by rw [newest]; rfl⟩

theorem exists_first {e : BackupShard} (recorded : e ∈ c.entries) : ∃ d rest, Reordered c d ∧ d.entries = e :: rest ∧
    d.topologies = c.topologies ∧ d.barriers = c.barriers := by
  obtain ⟨backup, inside, listed⟩ := List.mem_flatMap.mp recorded
  obtain ⟨before, after, split⟩ := List.append_of_mem inside
  obtain ⟨others, more, parts⟩ := List.append_of_mem listed
  have front : backup.shards.Perm (e :: (others ++ more)) := by
    rw [parts]
    exact List.perm_middle
  refine ⟨⟨c.topologies, c.barriers, { backup with shards := e :: (others ++ more) } :: (before ++ after)⟩, _,
    ⟨.refl _, .refl _, backup :: (before ++ after), ?_, .cons ⟨_, front, rfl⟩ ?_⟩, rfl, rfl, rfl⟩
  · rw [split]
    exact List.perm_middle
  · exact List.forall₂_same.mpr fun b _ => ⟨b.shards, .refl _, rfl⟩

theorem label_of_orderFree (resolved : resolve lower c target = .ok plan)
    (free : OrderFree lower c target) (wanted : Wanted c target t stanza) {p : ShardPlan}
    (planned : p ∈ plan.shards) (own : p.stanza = stanza) {e : BackupShard} (newest : Newest c stanza t e) :
    e.label = p.set := by
  obtain ⟨d, rest, reordered, first, topologies, barriers⟩ := exists_first newest.recorded
  have outcome := free d reordered
  rw [resolved] at outcome
  cases other : resolve lower d target with
  | error f => simp [other, SameOutcome] at outcome
  | ok plan' =>
    rw [other] at outcome
    obtain ⟨-, perm⟩ := outcome
    have wanted' : Wanted d target t stanza := by
      cases wanted with
      | @barrier barrier topology _ member named recorded listed =>
        have recorded' : topologyByGeneration d barrier.topologyGeneration = .ok topology := by
          rw [topologyByGeneration, topologies]
          exact recorded
        exact .barrier (barriers ▸ member) named recorded' listed
      | time inForce listed =>
        refine .time ⟨topologies ▸ inForce.recorded, inForce.begun, ?_⟩ listed
        rw [topologies]
        exact inForce.last
    obtain ⟨q, planned', own', set⟩ := planned_set other wanted'
    have best := (best_iff_newest.mpr newest).perm reordered.entries
    rw [first] at best
    have found : newestBackupBefore d stanza t = some e := by
      rw [newestBackupBefore_eq, first]
      exact Selection.scan_cons_of_best newer_ranks best
    rw [found, Option.map_some, Option.some.injEq] at set
    -- stanzas tell the entries of a plan apart
    have one : q = p := List.inj_on_of_nodup_map (resolve_ok resolved).1.matches.apart (perm.symm.subset planned') planned
      (own'.trans own.symm)
    rw [set, one]

end

/-- Where the entries that tie for a newest backup the target asks for are of one set, resolution
does not depend on the order of the catalog; and where a target resolves, only there. -/
theorem resolve_order_free {lower : String → String} {catalog : Catalog} {target : Target} :
    (Decided catalog target → OrderFree lower catalog target) ∧
      ∀ plan, resolve lower catalog target = .ok plan → OrderFree lower catalog target → Decided catalog target := by
  refine ⟨orderFree_of_decided, fun plan resolved free _ t stanza wanted e other newest newest' => ?_⟩
  obtain ⟨p, planned, own, -⟩ := planned_set resolved wanted
  rw [label_of_orderFree resolved free wanted planned own newest,
    label_of_orderFree resolved free wanted planned own newest']

theorem decided_of_distinct {catalog : Catalog} (distinct : ∀ e ∈ catalog.entries, ∀ other ∈ catalog.entries,
    e.stanza = other.stanza → e.stopTime.nanos = other.stopTime.nanos → e.label = other.label) (target : Target) :
    Decided catalog target := by
  intro _ t stanza _ e other first second
  refine distinct e first.recorded other second.recorded (first.own.trans second.own.symm) ?_
  exact le_antisymm (second.newest e first.recorded first.own first.before)
    (first.newest other second.recorded second.own second.before)

theorem resolve_order_free_barrier : OrderFree id pairCatalog { barrierID := "b1" } :=
  resolve_order_free.1 (decided_of_distinct (by decide) _)

def tiedBackup : BackupManifest :=
  ⟨"k3", ⟨12, "t12", "t12"⟩, 1, 0, [⟨"data", "s-data", "full-5", "0/12", 1, ⟨10, "t10", "t10"⟩⟩]⟩

/-- Two backups of a stanza stop at the same time: the barrier is restored from the one that is
listed first. -/
theorem tied_backups_reorder :
    ¬ OrderFree id { pairCatalog with backups := tiedBackup :: pairCatalog.backups } { barrierID := "b1" } := by
  intro free
  have reordered : Reordered { pairCatalog with backups := tiedBackup :: pairCatalog.backups }
      { pairCatalog with backups := pairCatalog.backups ++ [tiedBackup] } :=
    ⟨.refl _, .refl _, pairCatalog.backups ++ [tiedBackup], (List.perm_append_singleton _ _).symm,
      List.forall₂_same.mpr fun b _ => ⟨b.shards, .refl _, rfl⟩⟩
  have outcome := free _ reordered
  have left : ((resolve id { pairCatalog with backups := tiedBackup :: pairCatalog.backups }
      { barrierID := "b1" }).toOption.map fun plan => plan.shards.map ShardPlan.set) = some ["full-5", "full-2"] := by
    decide +kernel
  have right : ((resolve id { pairCatalog with backups := pairCatalog.backups ++ [tiedBackup] }
      { barrierID := "b1" }).toOption.map fun plan => plan.shards.map ShardPlan.set) = some ["full-1", "full-2"] := by
    decide +kernel
  cases first : resolve id { pairCatalog with backups := tiedBackup :: pairCatalog.backups } { barrierID := "b1" } with
  | error e => simp [first, Except.toOption] at left
  | ok p =>
    cases second : resolve id { pairCatalog with backups := pairCatalog.backups ++ [tiedBackup] } { barrierID := "b1" } with
    | error e => simp [second, Except.toOption] at right
    | ok q =>
      rw [first, second] at outcome
      simp only [first, second, Except.toOption, Option.map_some, Option.some.injEq] at left right
      have sets := outcome.2.map ShardPlan.set
      rw [left, right] at sets
      exact absurd (sets.subset List.mem_cons_self) (by decide)

end PgShard.Backup
