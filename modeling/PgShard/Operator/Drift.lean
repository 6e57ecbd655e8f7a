import PgShard.Operator.Withdrawal

/-! The sharded tables of a cutover, from the drift check to the commit. -/

namespace PgShard.Operator

open Versioned

variable {w w' after : World} {n : String} {c : Choice} {p q : Pass} {r r' : Reshard}

def World.tableConfigs (w : World) : List TableConfig :=
  w.configs.current.getD []

def declaredTables (configs : List TableConfig) (cluster : String) : List SeedTable :=
  pinTables (shardedTables configs cluster)

/-! ## The drift check -/

theorem eq_of_zip_find {α : Type} [BEq α] [LawfulBEq α] {first second : List α} (length : first.length = second.length)
    (found : (first.zip second).find? (fun (a, b) => a != b) = none) : first = second := by
  induction first generalizing second with
  | nil => exact (List.length_eq_zero_iff.mp length.symm).symm
  | cons a rest ih =>
    cases second with
    | nil => cases length
    | cons b rest' =>
      rw [List.zip_cons_cons, List.find?_cons] at found
      split at found
      · cases found
      · rename_i same
        rw [ih (Nat.succ.inj length) found, show a = b by simpa using same]

theorem tablesDiffer_none {pinned : List SeedTable} {live : List TableEntry} :
    tablesDiffer pinned live = none ↔ pinned = pinTables live := by
  unfold tablesDiffer
  constructor
  · intro undrifted
    split at undrifted
    · cases undrifted
    · rename_i length
      refine eq_of_zip_find ?_ (Option.map_eq_none_iff.mp undrifted)
      simpa [pinTables] using length
  · rintro rfl
    rw [if_neg (by simp [pinTables]), Option.map_eq_none_iff, List.find?_eq_none]
    rintro ⟨a, b⟩ member
    have same : a = b := by
      obtain ⟨i, bound, found⟩ := List.getElem_of_mem member
      rw [List.getElem_zip] at found
      cases found
      rfl
    simp [same]

/-! ## The conditions -/

/-- A pass that lists the table configs sees the current ones. -/
def configsFresh (w : World) : Choice → Bool
  | .advance n (.version i) =>
    match w.pending n with
    | some .listTableConfigs => decide ((w.configs.entry i).getD [] = w.tableConfigs)
    | _ => true
  | _ => true

/-- The reshard is past the drift check and has not committed. -/
def Reshard.awaitsCommit (r : Reshard) : Bool :=
  (r.status.phase == .readyToCutover || r.status.phase == .cuttingOver) && !r.status.switchCommitted

/-- An edit leaves alone the sharded tables of a cluster while a reshard of it awaits
its commit, or a pass of one that has listed the configs runs. -/
def tablesKept (w : World) : Choice → Bool
  | .editConfigs items => w.names.all fun n =>
    ((w.reshard n).all fun r => !r.awaitsCommit ||
      declaredTables items r.spec.clusterRef == declaredTables w.tableConfigs r.spec.clusterRef) &&
    (w.threads n).all fun t => t.pass.configs.isNone || t.pass.held.all fun h =>
      declaredTables items h.obj.spec.clusterRef == declaredTables w.tableConfigs h.obj.spec.clusterRef
  | _ => true

def undrifting (w : World) (c : Choice) : Bool :=
  configsFresh w c && tablesKept w c

/-! ## What a pass knows of the tables -/

/-- What a pass has listed declares the cluster's tables as they are now. -/
def Pass.Tabled (w : World) : Pass → Prop :=
  Pass.Read (·.configs) fun spec items =>
    declaredTables items spec.clusterRef = declaredTables w.tableConfigs spec.clusterRef

@[simp] theorem Pass.wroteShard_configs (p : Pass) (x : Copy Shard) (answer : Wrote) :
    (p.wroteShard x answer).configs = p.configs := by
  cases answer <;> rfl

theorem Acted.tabled (acted : Acted w p after q) (tabled : p.Tabled w)
    (fresh : ∀ items, q.configs = some items → p.configs = some items ∨ items = w.tableConfigs) : q.Tabled w := by
  refine Pass.Read.acted tabled acted ?_
  cases acted with
  | readConfigs held stored =>
    rcases fresh _ rfl with same | rfl
    · exact .inl same.symm
    · exact .inr ⟨_, _, held, rfl, rfl⟩
  | madeNode held _ _ _ _ known | unpinned _ _ _ known => cases known <;> exact .inl rfl
  | edited | tried => exact .inl (by simp)
  | _ => exact .inl rfl

theorem Happens.freshConfigs (happens : Happens w c w') (fresh : configsFresh w c = true) {t t' : Thread}
    (running : w.threads n = some t) (running' : w'.threads n = some t') {items : List TableConfig}
    (read : t'.pass.configs = some items) : t.pass.configs = some items ∨ items = w.tableConfigs := by
  rcases happens.thread running running' with rfl | ⟨reply, o, _, _, answer, rfl, calls, done, -, rfl, -⟩
  · exact .inl read
  by_cases lists : o = .listTableConfigs
  · subst lists
    cases answer with
    | found listed =>
      obtain ⟨-, failed | answered⟩ := answerGet_cases done
      · cases failed
      · cases reply with
        | version i =>
          simp only [configsFresh, World.pending_call running calls, decide_eq_true_eq] at fresh
          cases answered
          cases read
          exact .inr fresh
        | _ => cases answered
    | notFound | failed => exact .inl read
  · exact .inl ((Pass.next_reads _ o answer).1 lists ▸ read)

/-! ## From the check to the commit -/

/-- A reshard that awaits its commit has the cluster's tables pinned. -/
def Reshard.Undrifted (w : World) (r : Reshard) : Prop :=
  r.awaitsCommit = true → r.status.seedTables = declaredTables w.tableConfigs r.spec.clusterRef

theorem Reshard.awaitsCommit_iff : r.awaitsCommit = true ↔
    (r.status.phase = .readyToCutover ∨ r.status.phase = .cuttingOver) ∧ r.status.switchCommitted = false := by
  simp [Reshard.awaitsCommit]

theorem Move.undrifted {status : ReshardStatus} {h : Copy Reshard} (move : Move p h.obj status) (held : p.held = some h)
    (tabled : p.Tabled w) (before : h.obj.Undrifted w) : ({ h.obj with status } : Reshard).Undrifted w := by
  intro awaits
  obtain ⟨phase, open_⟩ := Reshard.awaitsCommit_iff.mp awaits
  -- a move that stays past the check was past it before
  have stays : (h.obj.status.phase = .readyToCutover ∨ h.obj.status.phase = .cuttingOver) →
      h.obj.status.switchCommitted = status.switchCommitted → h.obj.status.seedTables = status.seedTables →
      status.seedTables = declaredTables w.tableConfigs h.obj.spec.clusterRef := fun phase same tables =>
    tables ▸ before (Reshard.awaitsCommit_iff.mpr ⟨phase, same.trans open_⟩)
  cases move with
  | caughtUp _ _ _ read undrifted =>
    exact (tablesDiffer_none.mp undrifted).trans (tabled.known held read)
  | gate _ ready => exact stays (.inl ready) rfl rfl
  | commit => cases open_
  | pinned _ _ seeding => simp [seeding] at phase
  | hold | observed | oweFence | frozen | settled | ungated => exact stays phase rfl rfl
  | _ => simp at phase

theorem Move.keeps_tables {status : ReshardStatus} (move : Move p r status) (phase : r.status.phase = .cuttingOver) :
    r.status.seedTables = status.seedTables := by
  cases move with
  | pinned _ _ seeding => cases phase.symm.trans seeding
  | _ => rfl

theorem Stored.undrifted (stored : Stored w c n r) (all : ∀ n t, w.threads n = some t → t.pass.Tabled w)
    (before : ∀ r, w.reshard n = some r → r.Undrifted w) : r.Undrifted w := by
  cases stored with
  | same stored => exact before _ stored
  | moved running held stored move => exact move.undrifted held (all n _ running) (before _ stored)
  | @pinned r _ stored | @deleted r _ stored => exact (before r stored :)
  | born => exact nofun

structure AllUndrifted (w : World) : Prop where
  passes : ∀ n t, w.threads n = some t → t.pass.Tabled w
  stored : ∀ n r, w.reshard n = some r → r.Undrifted w

theorem Acted.configs (acted : Acted w p after q) : after.configs = w.configs := by
  cases acted <;> rfl

theorem Happens.tableConfigs (happens : Happens w c w') (other : ∀ items, c ≠ .editConfigs items) :
    w'.tableConfigs = w.tableConfigs := by
  cases happens with
  | acted _ _ _ _ acted => exact congrArg (·.current.getD []) acted.configs
  | configured items => exact absurd rfl (other items)
  | _ => rfl

theorem AllUndrifted.besides (all : AllUndrifted w) (lawful : Lawful w) (happens : Happens w c w')
    (fresh : configsFresh w c = true) (other : ∀ items, c ≠ .editConfigs items) : AllUndrifted w' := by
  have same := happens.tableConfigs other
  have passes : ∀ {p : Pass}, p.Tabled w → p.Tabled w' := fun tabled => by
    simpa only [Pass.Tabled, same] using tabled
  refine ⟨happens.passes Pass.Tabled all.passes (fun _ => ⟨fun _ => rfl, nofun⟩) (fun _ _ _ => passes) ?_, fun n r stored => ?_⟩
  · rintro n t t' after running rfl acted tabled
    exact passes (acted.tabled tabled fun items =>
      happens.freshConfigs fresh running (World.threads_setThread_self ..))
  · simpa only [Reshard.Undrifted, same] using
      (happens.stored lawful stored).undrifted all.passes (all.stored n)

theorem AllUndrifted.edited (all : AllUndrifted w) (lawful : Lawful w) {items : List TableConfig}
    (kept : tablesKept w (.editConfigs items) = true) : AllUndrifted (w.storeConfigs items) := by
  have now : (w.storeConfigs items).tableConfigs = items := by simp [World.tableConfigs, World.storeConfigs]
  simp only [tablesKept, List.all_eq_true, Bool.and_eq_true, Option.all_eq_true] at kept
  refine ⟨fun n t running => ⟨(all.passes n t running).unheld, fun {h listed} held read => ?_⟩, fun n r stored awaits => ?_⟩
  · obtain ⟨named, -, genuine⟩ := lawful.thread running
    have known : n ∈ w.names := named ▸ (lawful.reshard (genuine.held h held).1).2.2.2
    have same := (kept n known).2 t running
    rw [held, read] at same
    rw [now, (all.passes n t running).known held read]
    exact Eq.symm (by simpa using same)
  · have same := (kept n (lawful.reshard stored).2.2.2).1 r stored
    rw [awaits] at same
    rw [now, all.stored n r stored awaits]
    exact Eq.symm (by simpa using same)

theorem ReachedUnder.undrifted (reached : ReachedUnder undrifting w) : AllUndrifted w := by
  refine reached.invariant ⟨fun _ _ running => (by cases running), fun _ _ stored => (by cases stored)⟩ ?_
  intro w c w' reached all fit taken
  obtain ⟨fresh, kept⟩ := Bool.and_eq_true_iff.mp fit
  have happens := step_happens reached.lawful taken
  by_cases edits : ∃ items, c = .editConfigs items
  · obtain ⟨items, rfl⟩ := edits
    cases taken
    exact all.edited reached.lawful kept
  · exact all.besides reached.lawful happens fresh fun items same => edits ⟨items, same⟩

/-- A switch that commits has the sharded tables pinned that are declared then. -/
theorem commit_matches_tables (reached : ReachedUnder undrifting w) (taken : step w c = some w')
    (stored : w.reshard n = some r) (open_ : r.status.switchCommitted = false) (stored' : w'.reshard n = some r')
    (committed : r'.status.switchCommitted = true) :
    r'.status.seedTables = declaredTables w.tableConfigs r'.spec.clusterRef := by
  have lawful := reached.reached.lawful
  have absent : r'.status.switchCommitted = r.status.switchCommitted → False :=
    fun same => absurd (committed.symm.trans (same.trans open_)) (by decide)
  cases (step_happens lawful taken).stored lawful stored' with
  | same before | pinned _ before | deleted _ before =>
    cases stored.symm.trans before
    exact (absent rfl).elim
  | @moved t h status running held before move =>
    cases stored.symm.trans before
    obtain ⟨phase, -⟩ := (move.commits committed).resolve_left (by simp [open_])
    rw [← move.keeps_tables phase]
    exact reached.undrifted.stored n _ stored (Reshard.awaitsCommit_iff.mpr ⟨.inr phase, open_⟩)
  | born => cases committed

set_option maxRecDepth 100000 in
theorem splitUndrifted_ends : (runUnder undrifting {} (splitToFrozen ++ splitAcknowledged 11)).any
    (·.writes "split" (!·.status.switchCommitted) (·.status.switchCommitted)) = true := by
  decide +kernel

theorem commit_matches_tables_split : ∃ w r w' r', ReachedUnder undrifting w ∧
    step w (.advance "split" .done) = some w' ∧ w.reshard "split" = some r ∧ r.status.switchCommitted = false ∧
    w'.reshard "split" = some r' ∧ r'.status.switchCommitted = true ∧
    r'.status.seedTables = declaredTables w.tableConfigs r'.spec.clusterRef := by
  obtain ⟨w, reached, holds⟩ := ReachedUnder.of_run splitUndrifted_ends
  obtain ⟨r, w', r', stored, open_, taken, stored', committed⟩ := World.writes_step holds
  replace open_ : r.status.switchCommitted = false := by simpa using open_
  exact ⟨w, r, w', r', reached, taken, stored, open_, stored', committed,
    commit_matches_tables reached taken stored open_ stored' committed⟩

/-- Every read through the cache sees the current object. -/
def readsCurrent (w : World) : Choice → Bool
  | .advance n (.version i) =>
    match w.pending n with
    | some (.getReshard name) => decide ((w.reshards name).read i = (w.reshards name).latest)
    | some (.getShard name) => decide ((w.shards name).read i = (w.shards name).latest)
    | some (.getRouting name) => decide ((w.routings name).entry i = (w.routings name).current)
    | some .listTableConfigs => decide ((w.configs.entry i).getD [] = w.tableConfigs)
    | _ => true
  | _ => true

def itemsConfig : TableConfig :=
  { ordersConfig with
    name := "more"
    tables := ordersConfig.tables.map fun t => { t with name := "items" } }

set_option maxRecDepth 100000 in
theorem splitDrifted_ends : (runUnder readsCurrent {}
    (splitToFrozen ++ .editConfigs [ordersConfig, itemsConfig] :: splitAcknowledged 11)).any
    (fun w => w.writes "split" (!·.status.switchCommitted) fun r => r.status.switchCommitted &&
      r.status.seedTables != declaredTables w.tableConfigs r.spec.clusterRef) = true := by
  decide +kernel

/-- A table declared while the source is frozen is not noticed, although every read
sees the current objects. -/
theorem drifted_commits : ∃ w r w' r', ReachedUnder readsCurrent w ∧ step w (.advance "split" .done) = some w' ∧
    w.reshard "split" = some r ∧ r.status.switchCommitted = false ∧ w'.reshard "split" = some r' ∧
    r'.status.switchCommitted = true ∧ r'.status.seedTables ≠ declaredTables w.tableConfigs r'.spec.clusterRef := by
  obtain ⟨w, reached, holds⟩ := ReachedUnder.of_run splitDrifted_ends
  obtain ⟨r, w', r', stored, open_, taken, stored', holds⟩ := World.writes_step holds
  obtain ⟨committed, differs⟩ := Bool.and_eq_true_iff.mp holds
  exact ⟨w, r, w', r', reached, taken, stored, by simpa using open_, stored', committed, by simpa using differs⟩

end PgShard.Operator
