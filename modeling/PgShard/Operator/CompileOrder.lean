import PgShard.Lib.KeySort
import PgShard.Operator.BoundOrder

/-! What the compiler publishes does not depend on the order of its inputs, and a primary that it publishes is
confirmed. -/

namespace PgShard.Operator

variable {u : TableEntry} {spec : RoutingSpec} {ep : RoutingEndpoint}

/-! ## The loop over the shards -/

variable {endpoints : List (String × RoutingEndpoint)} {s t : Shard} {shards : List Shard} {seen : Bool}
  {compiled : CompiledShards} {ranges : List KeyRange} {inputs inputs' : CompileInputs}

def Shard.isSystem (s : Shard) : Bool :=
  s.role == .system

/-- The ranges of the data shards that serve, as far as they parse. -/
def servingRangesOf (shards : List Shard) : List KeyRange :=
  (shards.filter fun s => !s.isSystem && s.serving).filterMap fun s => (toRange s.keyRange).toOption

def compiledOf (endpoints : List (String × RoutingEndpoint)) (shards : List Shard) : CompiledShards where
  entries := (shards.filter (!·.isSystem)).map (shardEntry endpoints)
  servingRanges := servingRangesOf shards
  sequenceEndpoint := (shards.find? (·.isSystem)).bind (publishedPrimary endpoints)

/-- The loop ends: every data shard has a range, and there is at most one system shard. -/
def Compilable (shards : List Shard) (seen : Bool) : Prop :=
  (∀ s ∈ shards, s.isSystem = false → ∃ r, toRange s.keyRange = .ok r) ∧
    shards.countP (·.isSystem) + seen.toNat ≤ 1

theorem compileShards_ok_iff : compileShards endpoints shards seen = .ok compiled ↔
    Compilable shards seen ∧ compiled = compiledOf endpoints shards := by
  induction shards generalizing seen compiled with
  | nil =>
    have fits : seen.toNat ≤ 1 := by cases seen <;> decide
    simp only [compileShards, compiledOf, servingRangesOf, Compilable, Except.ok.injEq, List.not_mem_nil, false_implies,
      implies_true, List.countP_nil, Nat.zero_add, true_and, fits, List.filter_nil, List.map_nil, List.filterMap_nil,
      List.find?_nil, Option.bind_none, eq_comm]
  | cons s rest ih =>
    unfold compileShards
    by_cases system : s.role = .system
    · have is : s.isSystem = true := beq_iff_eq.mpr system
      rw [if_pos system]
      have others : compiledOf endpoints (s :: rest) =
          { compiledOf endpoints rest with sequenceEndpoint := publishedPrimary endpoints s } := by
        simp [compiledOf, servingRangesOf, is]
      have fits : Compilable (s :: rest) seen ↔ Compilable rest true ∧ seen = false := by
        cases seen <;> simp [Compilable, is]
      rw [fits, others]
      cases seen with
      | true => simp
      | false =>
        simp only [Bool.false_eq_true, if_false, and_true]
        constructor
        · intro run
          obtain ⟨rest', looped, done⟩ := Checked.bind_ok run
          obtain ⟨fits, rfl⟩ := ih.mp looped
          cases done
          exact ⟨fits, rfl⟩
        · rintro ⟨fits, rfl⟩
          rw [ih.mpr ⟨fits, rfl⟩]
          rfl
    · have is : s.isSystem = false := beq_eq_false_iff_ne.mpr system
      rw [if_neg system]
      cases parsed : toRange s.keyRange with
      | error e =>
        have unfit : ¬ Compilable (s :: rest) seen := by
          rintro ⟨parses, -⟩
          obtain ⟨r, found⟩ := parses s List.mem_cons_self is
          cases parsed.symm.trans found
        simp [unfit]
      | ok kr =>
        have others : compiledOf endpoints (s :: rest) = { compiledOf endpoints rest with
            entries := shardEntry endpoints s :: (compiledOf endpoints rest).entries
            servingRanges := if s.serving then kr :: (compiledOf endpoints rest).servingRanges
              else (compiledOf endpoints rest).servingRanges } := by
          cases serves : s.serving <;> simp [compiledOf, servingRangesOf, is, serves, parsed, Except.toOption]
        have fits : Compilable (s :: rest) seen ↔ Compilable rest seen := by
          simp [Compilable, is, parsed]
        rw [fits, others]
        constructor
        · intro run
          obtain ⟨rest', looped, done⟩ := Checked.bind_ok run
          obtain ⟨fits, rfl⟩ := ih.mp looped
          cases done
          exact ⟨fits, rfl⟩
        · rintro ⟨fits, rfl⟩
          simp only [ih.mpr ⟨fits, rfl⟩]
          rfl

theorem Compilable.of_perm {shards' : List Shard} (compilable : Compilable shards seen)
    (same : (shards.map fun s => (s.isSystem, s.keyRange)).Perm (shards'.map fun s => (s.isSystem, s.keyRange))) :
    Compilable shards' seen := by
  obtain ⟨parses, single⟩ := compilable
  constructor
  · intro t member data
    obtain ⟨s, listed, pair⟩ := List.mem_map.mp (same.symm.subset (List.mem_map_of_mem member))
    obtain ⟨role, bounds⟩ := Prod.mk.injEq .. ▸ pair
    rw [← bounds]
    exact parses s listed (role.trans data)
  · have count := same.countP_eq fun p => p.1
    simp only [List.countP_map, Function.comp_def] at count
    rw [← count]
    exact single

theorem Compilable.perm {shards' : List Shard} (same : shards.Perm shards') :
    Compilable shards seen ↔ Compilable shards' seen :=
  ⟨fun compilable => compilable.of_perm (same.map _), fun compilable => compilable.of_perm (same.symm.map _)⟩

/-! ## The partition -/

theorem partitionWindows_ok_iff (index : Nat) :
    partitionWindows (index + 1) ranges = .ok () ↔ validateWindows index ranges = .ok () := by
  induction ranges generalizing index with
  | nil => simp [partitionWindows, validateWindows]
  | cons a rest ih =>
    cases rest with
    | nil => simp [partitionWindows, validateWindows]
    | cons b rest =>
      simp only [partitionWindows, validateWindows]
      by_cases joined : a.stop = some b.start
      · simp only [joined, ne_eq, not_true_eq_false, if_false, if_true]
        exact ih (index + 1)
      · simp [joined]

/-- The operator's check is the router's, but for the words of its errors. -/
theorem validatePartition_ok_iff : validatePartition ranges = .ok () ↔ PgShard.validatePartition ranges = .ok () := by
  unfold validatePartition PgShard.validatePartition
  cases ranges with
  | nil => simp
  | cons first rest =>
    dsimp only
    by_cases zero : first.start = 0
    · simp only [zero, ne_eq, not_true_eq_false, if_false]
      have windows : partitionWindows (0 + 1) (first :: rest) = .ok () ↔ validateWindows 0 (first :: rest) = .ok () :=
        partitionWindows_ok_iff 0
      cases ours : partitionWindows (0 + 1) (first :: rest) with
      | ok u =>
        simp only [windows.mp ours, bind, Except.bind]
        cases ((first :: rest).getLast (List.cons_ne_nil first rest)).stop <;> simp
      | error e =>
        cases theirs : validateWindows 0 (first :: rest) with
        | ok u => cases ours.symm.trans (windows.mpr theirs)
        | error e => simp [bind, Except.bind]
    · simp [zero]

/-- The number of data shards in service whose range has the id. -/
def servingOwners (shards : List Shard) (id : KeyspaceId) : Nat :=
  shards.countP fun s => !s.isSystem && s.serving && (toRange s.keyRange).toOption.any (·.contains id)

theorem owners_servingRangesOf (shards : List Shard) (id : KeyspaceId) :
    owners (servingRangesOf shards) id = servingOwners shards id := by
  induction shards with
  | nil => rfl
  | cons s rest ih =>
    unfold owners servingRangesOf servingOwners at *
    cases serves : !s.isSystem && s.serving with
    | false => simp [serves, ih]
    | true =>
      cases parsed : (toRange s.keyRange).toOption with
      | none => simp [serves, parsed, ih]
      | some r => simp [serves, parsed, ih, List.countP_cons]

theorem servingRangesOf_ordered (canonical : ∀ s ∈ shards, s.isSystem = false → s.keyRange.Canonical) :
    (servingRangesOf (sortShards shards)).Pairwise fun a b => a.start ≤ b.start := by
  have listed : ∀ s ∈ sortShards shards, s ∈ shards := fun s member =>
    (List.perm_insertionSort _ shards).subset member
  unfold servingRangesOf
  rw [List.pairwise_filterMap, List.pairwise_filter]
  refine (sortShards_ordered shards).imp_of_mem fun {a b} left right before dataA dataB r parsed r' parsed' => ?_
  simp only [Bool.and_eq_true, Bool.not_eq_true'] at dataA dataB
  exact toRange_start_le (canonical a (listed a left) dataA.1) (canonical b (listed b right) dataB.1) before
    (Checked.toOption_some.mp parsed) (Checked.toOption_some.mp parsed')

theorem validatePartition_servingRangesOf (canonical : ∀ s ∈ shards, s.isSystem = false → s.keyRange.Canonical) :
    validatePartition (servingRangesOf (sortShards shards)) = .ok () ↔ ∀ id, servingOwners shards id = 1 := by
  rw [validatePartition_ok_iff, validatePartition_iff (servingRangesOf_ordered canonical)]
  refine forall_congr' fun id => ?_
  rw [owners_servingRangesOf, servingOwners, servingOwners, sortShards, (List.perm_insertionSort _ shards).countP_eq]

/-! ## Instances, tables and gates in another order -/

/-- The same shard with its instances in another order. -/
def Shard.Reordered (s t : Shard) : Prop :=
  t = { s with instances := t.instances } ∧ s.instances.Perm t.instances

def TableEntry.Reordered (t u : TableEntry) : Prop :=
  u = { t with sequences := u.sequences } ∧ t.sequences.Perm u.sequences

def TableConfig.Reordered (c d : TableConfig) : Prop :=
  d = { c with tables := d.tables } ∧ KeySort.Shuffled TableEntry.Reordered c.tables d.tables

theorem Shard.Reordered.symm (same : s.Reordered t) : t.Reordered s :=
  ⟨by rw [same.1], same.2.symm⟩

theorem TableEntry.Reordered.symm {t : TableEntry} (same : t.Reordered u) : u.Reordered t :=
  ⟨by rw [same.1], same.2.symm⟩

theorem TableConfig.Reordered.symm {c d : TableConfig} (same : c.Reordered d) : d.Reordered c :=
  ⟨by rw [same.1], same.2.symm fun _ _ => TableEntry.Reordered.symm⟩

structure CompileInputs.Reordered (inputs inputs' : CompileInputs) : Prop where
  cluster : inputs'.cluster = inputs.cluster
  endpoints : inputs'.endpoints = inputs.endpoints
  shards : KeySort.Shuffled Shard.Reordered inputs.shards inputs'.shards
  tableConfigs : KeySort.Shuffled TableConfig.Reordered inputs.tableConfigs inputs'.tableConfigs
  gates : inputs.gates.Perm inputs'.gates

theorem CompileInputs.Reordered.symm (reordered : inputs.Reordered inputs') : inputs'.Reordered inputs where
  cluster := reordered.cluster.symm
  endpoints := reordered.endpoints.symm
  shards := reordered.shards.symm fun _ _ => Shard.Reordered.symm
  tableConfigs := reordered.tableConfigs.symm fun _ _ => TableConfig.Reordered.symm
  gates := reordered.gates.symm

/-- Objects and pods have names of their own, and each endpoint is filed under its pod. -/
structure CompileInputs.Named (inputs : CompileInputs) : Prop where
  shards : (inputs.shards.map (·.name)).Nodup
  tableConfigs : (inputs.tableConfigs.map (·.name)).Nodup
  pods : ∀ s ∈ inputs.shards, (s.instances.map (·.pod)).Nodup
  endpoints : ∀ pod ep, inputs.endpoints.lookup pod = some ep → ep.pod = pod
  canonical : ∀ s ∈ inputs.shards, s.isSystem = false → s.keyRange.Canonical

theorem find?_pod {l m : List InstanceState} (perm : l.Perm m) (distinct : (l.map (·.pod)).Nodup) (pod : String) :
    l.find? (·.pod == pod) = m.find? (·.pod == pod) := by
  have member : ∀ x, x ∈ l ↔ x ∈ m := fun x => perm.mem_iff
  cases found : m.find? (·.pod == pod) with
  | none =>
    rw [List.find?_eq_none] at found ⊢
    exact fun x inside => found x ((member x).mp inside)
  | some y =>
    have named := List.find?_some found
    have inside := (member y).mpr (List.mem_of_find?_eq_some found)
    cases first : l.find? (·.pod == pod) with
    | none => exact absurd named (List.find?_eq_none.mp first y inside)
    | some x =>
      have named' := List.find?_some first
      simp only [beq_iff_eq] at named named'
      rw [List.inj_on_of_nodup_map distinct (List.mem_of_find?_eq_some first) inside (named'.trans named.symm)]

theorem publishedPrimary_reordered (same : s.Reordered t) (distinct : (s.instances.map (·.pod)).Nodup) :
    publishedPrimary endpoints s = publishedPrimary endpoints t := by
  obtain ⟨kept, perm⟩ := same
  have primary : t.currentPrimary = s.currentPrimary := by rw [kept]
  unfold publishedPrimary
  rw [primary, find?_pod perm distinct]

theorem replicaEndpoints_reordered (same : s.Reordered t) (distinct : (s.instances.map (·.pod)).Nodup)
    (filed : ∀ pod ep, endpoints.lookup pod = some ep → ep.pod = pod) :
    replicaEndpoints endpoints s = replicaEndpoints endpoints t := by
  obtain ⟨kept, perm⟩ := same
  have primary : t.currentPrimary = s.currentPrimary := by rw [kept]
  unfold replicaEndpoints
  rw [primary]
  refine KeySort.eq_of_perm RoutingEndpoint.pod (perm.filterMap _) fun x left y right pods => ?_
  obtain ⟨i, listed, found⟩ := List.mem_filterMap.mp left
  obtain ⟨j, listed', found'⟩ := List.mem_filterMap.mp right
  have named : ∀ {inst : InstanceState} {x : RoutingEndpoint}, (if inst.role ≠ .replica ∨ inst.pod = s.currentPrimary
      then none else (endpoints.lookup inst.pod).map fun ep => { ep with canRead := inst.ready }) = some x →
      x.pod = inst.pod := by
    intro inst x found
    split_ifs at found
    obtain ⟨ep, known, rfl⟩ := Option.map_eq_some_iff.mp found
    exact filed inst.pod ep known
  have pod : i.pod = j.pod := (named found).symm.trans (pods.trans (named found'))
  cases List.inj_on_of_nodup_map distinct listed listed' pod
  exact Option.some.inj (found.symm.trans found')

theorem shardEntry_reordered (same : s.Reordered t) (distinct : (s.instances.map (·.pod)).Nodup)
    (filed : ∀ pod ep, endpoints.lookup pod = some ep → ep.pod = pod) :
    shardEntry endpoints s = shardEntry endpoints t := by
  have primary : publishedPrimary endpoints s = publishedPrimary endpoints t := publishedPrimary_reordered same distinct
  have replicas := replicaEndpoints_reordered same distinct filed
  have kept := same.1
  unfold shardEntry
  rw [primary, replicas, kept]

theorem routedTable_reordered {t : TableEntry} (same : t.Reordered u) : routedTable t = routedTable u := by
  obtain ⟨kept, perm⟩ := same
  have sequences : (t.sequences.insertionSort fun a b => [a.1, a.2] ≤ [b.1, b.2]) =
      u.sequences.insertionSort fun a b => [a.1, a.2] ≤ [b.1, b.2] :=
    KeySort.eq_of_perm (fun a : String × String => [a.1, a.2]) perm fun x _ y _ keys => by
      simp only [List.cons.injEq, and_true] at keys
      exact Prod.ext keys.1 keys.2
  unfold routedTable
  rw [sequences, kept]

def routedTables (configs : List TableConfig) : List TableEntry :=
  configs.flatMap fun tc => tc.tables.map routedTable

theorem CompileInputs.Reordered.routedTables (reordered : inputs.Reordered inputs') :
    (routedTables inputs.tableConfigs).Perm (Operator.routedTables inputs'.tableConfigs) :=
  reordered.tableConfigs.flatMap fun _ _ _ changed => changed.2.map fun _ _ _ same => routedTable_reordered same

theorem distinctTables_ok_iff {tables : List (String × TableEntry)} {owner : List (String × String)} :
    distinctTables tables owner = .ok () ↔ (tables.map (foldedTableName ·.2)).Nodup ∧
      ∀ t ∈ tables, owner.lookup (foldedTableName t.2) = none := by
  induction tables generalizing owner with
  | nil => simp [distinctTables]
  | cons first rest ih =>
    obtain ⟨config, t⟩ := first
    simp only [distinctTables, List.map_cons, List.nodup_cons, List.mem_map, List.forall_mem_cons]
    cases declared : owner.lookup (foldedTableName t) with
    | some other => simp
    | none =>
      simp only [ih, List.lookup_cons]
      constructor
      · rintro ⟨nodup, new⟩
        refine ⟨⟨?_, nodup⟩, trivial, fun u member => ?_⟩
        · rintro ⟨u, member, same⟩
          have absent := new u member
          simp [same] at absent
        · have absent := new u member
          split at absent
          · cases absent
          · exact absent
      · rintro ⟨⟨fresh, nodup⟩, -, old⟩
        refine ⟨nodup, fun u member => ?_⟩
        have apart : ¬ (foldedTableName u.2 == foldedTableName t) = true := fun same =>
          fresh ⟨u, member, beq_iff_eq.mp same⟩
        simp only [apart, old u member]

theorem foldedTableName_congr {t : TableEntry} (keys : [t.schema, t.name] = [u.schema, u.name]) :
    foldedTableName t = foldedTableName u := by
  simp only [List.cons.injEq, and_true] at keys
  rw [foldedTableName, foldedTableName, keys.1, keys.2]

theorem compileTables_ok_iff {configs : List TableConfig} {tables : List TableEntry} :
    compileTables configs = .ok tables ↔ ((routedTables configs).map foldedTableName).Nodup ∧
      tables = (routedTables configs).insertionSort fun a b => [a.schema, a.name] ≤ [b.schema, b.name] := by
  have sorted := List.perm_insertionSort (fun a b : TableConfig => a.name ≤ b.name) configs
  unfold compileTables
  set declared := (configs.insertionSort fun a b => a.name ≤ b.name).flatMap fun tc =>
    tc.tables.map fun t => (tc.name, routedTable t) with declares
  have listed : (declared.map (·.2)).Perm (routedTables configs) := by
    rw [declares, List.map_flatMap]
    simp only [List.map_map, Function.comp_def]
    exact sorted.flatMap_right _
  have names : declared.map (foldedTableName ·.2) = (declared.map (·.2)).map foldedTableName := by
    rw [List.map_map]
    rfl
  have apart := names ▸ (listed.map foldedTableName).nodup_iff
  have ordered : ((routedTables configs).map foldedTableName).Nodup →
      ((declared.map (·.2)).insertionSort fun a b => [a.schema, a.name] ≤ [b.schema, b.name]) =
        (routedTables configs).insertionSort fun a b => [a.schema, a.name] ≤ [b.schema, b.name] := by
    intro distinct
    refine KeySort.eq_of_perm (fun t : TableEntry => [t.schema, t.name]) listed fun x left y right keys => ?_
    exact List.inj_on_of_nodup_map distinct (listed.subset left) (listed.subset right) (foldedTableName_congr keys)
  constructor
  · intro run
    obtain ⟨_, checked, done⟩ := Checked.bind_ok run
    have distinct := apart.mp (distinctTables_ok_iff.mp checked).1
    cases done
    exact ⟨distinct, ordered distinct⟩
  · rintro ⟨distinct, rfl⟩
    have checked : distinctTables declared [] = .ok () := distinctTables_ok_iff.mpr ⟨apart.mpr distinct, fun _ _ => rfl⟩
    rw [← ordered distinct]
    simp only [declares] at checked
    simp only [checked, bind, Except.bind, declares]

theorem duplicateGate_none_iff {gates : List RoutingGate} {seen : List String} :
    duplicateGate gates seen = none ↔ (gates.map (·.id)).Nodup ∧ ∀ g ∈ gates, g.id ∉ seen := by
  induction gates generalizing seen with
  | nil => simp [duplicateGate]
  | cons g rest ih =>
    unfold duplicateGate
    by_cases repeated : g.id ∈ seen
    · simp [repeated]
    · rw [if_neg repeated, ih]
      simp only [List.mem_cons, not_or, List.map_cons, List.nodup_cons, List.mem_map, not_exists, not_and]
      constructor
      · rintro ⟨distinct, fresh⟩
        refine ⟨⟨fun x member => (fresh x member).1, distinct⟩, ?_⟩
        rintro x (rfl | member)
        · exact repeated
        · exact (fresh x member).2
      · rintro ⟨⟨new, distinct⟩, fresh⟩
        exact ⟨distinct, fun x member => ⟨new x member, fresh x (.inr member)⟩⟩

/-! ## The whole compiler -/

def specOf (inputs : CompileInputs) : RoutingSpec where
  writeLeaseSeconds := match inputs.cluster.routerWriteLeaseSeconds with
    | some lease => if lease > 0 then lease else defaultWriteLeaseSeconds
    | none => defaultWriteLeaseSeconds
  hashFunction := inputs.cluster.hashFunction
  gates := inputs.gates.insertionSort fun a b => a.id ≤ b.id
  shards := (compiledOf inputs.endpoints (sortShards inputs.shards)).entries
  sequenceEndpoint := (compiledOf inputs.endpoints (sortShards inputs.shards)).sequenceEndpoint
  tables := (routedTables inputs.tableConfigs).insertionSort fun a b => [a.schema, a.name] ≤ [b.schema, b.name]

/-- No gate, table or system shard is there twice and every data shard has a range. -/
structure CompileInputs.Sound (inputs : CompileInputs) : Prop where
  gates : (inputs.gates.map (·.id)).Nodup
  compilable : Compilable inputs.shards false
  tables : ((routedTables inputs.tableConfigs).map foldedTableName).Nodup

theorem compile_ok_iff : compile inputs = .ok spec ↔ inputs.Sound ∧
    validatePartition (servingRangesOf (sortShards inputs.shards)) = .ok () ∧ spec = specOf inputs := by
  have listed : (sortShards inputs.shards).Perm inputs.shards := List.perm_insertionSort _ _
  constructor
  · intro run
    unfold compile at run
    split at run
    · cases run
    rename_i gates
    obtain ⟨compiled, looped, run⟩ := Checked.bind_ok run
    obtain ⟨compilable, rfl⟩ := compileShards_ok_iff.mp looped
    split at run
    · cases run
    rename_i partitioned
    obtain ⟨tables, catalog, done⟩ := Checked.bind_ok run
    obtain ⟨distinct, rfl⟩ := compileTables_ok_iff.mp catalog
    cases done
    exact ⟨⟨(duplicateGate_none_iff.mp gates).1, (Compilable.perm listed).mp compilable, distinct⟩, partitioned, rfl⟩
  · rintro ⟨⟨gates, compilable, distinct⟩, partitioned, rfl⟩
    have single : duplicateGate inputs.gates [] = none := duplicateGate_none_iff.mpr ⟨gates, fun _ _ => List.not_mem_nil⟩
    have looped : compileShards inputs.endpoints (sortShards inputs.shards) false = .ok _ :=
      compileShards_ok_iff.mpr ⟨(Compilable.perm listed).mpr compilable, rfl⟩
    have catalog : compileTables inputs.tableConfigs = .ok _ := compileTables_ok_iff.mpr ⟨distinct, rfl⟩
    unfold sortShards at looped
    simp only [compile, single, looped, bind, Except.bind]
    rw [← sortShards, compiledOf, partitioned]
    simp only [catalog]
    rfl

theorem compile_unpartitioned (gates : (inputs.gates.map (·.id)).Nodup) (compilable : Compilable inputs.shards false)
    (apart : validatePartition (servingRangesOf (sortShards inputs.shards)) ≠ .ok ()) :
    ∃ e, compile inputs = .error ("serving shards do not partition the keyspace: " ++ e) := by
  have listed : (sortShards inputs.shards).Perm inputs.shards := List.perm_insertionSort _ _
  have single : duplicateGate inputs.gates [] = none := duplicateGate_none_iff.mpr ⟨gates, fun _ _ => List.not_mem_nil⟩
  have looped : compileShards inputs.endpoints (sortShards inputs.shards) false = .ok _ :=
    compileShards_ok_iff.mpr ⟨(Compilable.perm listed).mpr compilable, rfl⟩
  unfold sortShards at looped
  simp only [compile, single, looped, bind, Except.bind]
  rw [← sortShards, compiledOf]
  cases checked : validatePartition (servingRangesOf (sortShards inputs.shards)) with
  | ok u => exact absurd checked apart
  | error e => exact ⟨e, rfl⟩

def Shard.byPod (s : Shard) : Shard :=
  { s with instances := s.instances.insertionSort fun a b => a.pod ≤ b.pod }

theorem Shard.reordered_byPod (s : Shard) : s.Reordered s.byPod :=
  ⟨rfl, (List.perm_insertionSort _ _).symm⟩

theorem Shard.Reordered.byPod_eq (same : s.Reordered t) (distinct : (s.instances.map (·.pod)).Nodup) :
    s.byPod = t.byPod := by
  obtain ⟨kept, perm⟩ := same
  unfold Shard.byPod
  rw [KeySort.eq_of_nodup InstanceState.pod perm distinct, kept]

theorem compiledOf_byPod (distinct : ∀ s ∈ shards, (s.instances.map (·.pod)).Nodup)
    (filed : ∀ pod ep, endpoints.lookup pod = some ep → ep.pod = pod) :
    compiledOf endpoints (shards.map Shard.byPod) = compiledOf endpoints shards := by
  have ranges : servingRangesOf (shards.map Shard.byPod) = servingRangesOf shards := by
    unfold servingRangesOf
    rw [List.filter_map, List.filterMap_map]
    rfl
  have entries : ((shards.map Shard.byPod).filter (!·.isSystem)).map (shardEntry endpoints) =
      (shards.filter (!·.isSystem)).map (shardEntry endpoints) := by
    rw [List.filter_map, List.map_map]
    refine List.map_congr_left fun s member => ?_
    exact (shardEntry_reordered s.reordered_byPod (distinct s (List.mem_of_mem_filter member)) filed).symm
  have sequence : ((shards.map Shard.byPod).find? (·.isSystem)).bind (publishedPrimary endpoints) =
      (shards.find? (·.isSystem)).bind (publishedPrimary endpoints) := by
    rw [List.find?_map]
    change ((shards.find? (·.isSystem)).map Shard.byPod).bind _ = _
    cases found : shards.find? (·.isSystem) with
    | none => rfl
    | some s =>
      exact (publishedPrimary_reordered s.reordered_byPod (distinct s (List.mem_of_find?_eq_some found))).symm
  unfold compiledOf
  rw [ranges, entries, sequence]

variable (named : inputs.Named) (reordered : inputs.Reordered inputs')
include named reordered

theorem sortShards_reordered :
    (sortShards inputs.shards).map Shard.byPod = (sortShards inputs'.shards).map Shard.byPod := by
  unfold sortShards
  rw [KeySort.map_eq shardKey (f := Shard.byPod) fun _ => rfl, KeySort.map_eq shardKey (f := Shard.byPod) fun _ => rfl]
  refine KeySort.eq_of_nodup shardKey ?_ ?_
  · exact reordered.shards.map fun s member t same => same.byPod_eq (named.pods s member)
  · have names : inputs.shards.map (·.name) = ((inputs.shards.map Shard.byPod).map shardKey).map (·.getLast?.getD "") := by
      rw [List.map_map, List.map_map]
      rfl
    exact List.Nodup.of_map _ (names ▸ named.shards)

theorem compiledOf_reordered : compiledOf inputs.endpoints (sortShards inputs.shards) =
    compiledOf inputs'.endpoints (sortShards inputs'.shards) := by
  have pods : ∀ s ∈ sortShards inputs.shards, (s.instances.map (·.pod)).Nodup := fun s member =>
    named.pods s ((List.perm_insertionSort _ _).subset member)
  have pods' : ∀ t ∈ sortShards inputs'.shards, (t.instances.map (·.pod)).Nodup := by
    intro t member
    obtain ⟨s, listed, -, perm⟩ := reordered.shards.mem ((List.perm_insertionSort _ _).subset member)
    exact (perm.map _).nodup_iff.mp (named.pods s listed)
  rw [reordered.endpoints, ← compiledOf_byPod pods named.endpoints, ← compiledOf_byPod pods' named.endpoints,
    sortShards_reordered named reordered]

theorem specOf_reordered (sound : inputs.Sound) : specOf inputs = specOf inputs' := by
  have gates : (inputs.gates.insertionSort fun a b => a.id ≤ b.id) = inputs'.gates.insertionSort fun a b => a.id ≤ b.id :=
    KeySort.eq_of_nodup RoutingGate.id reordered.gates sound.gates
  have tables := reordered.routedTables
  have sorted : ((routedTables inputs.tableConfigs).insertionSort fun a b => [a.schema, a.name] ≤ [b.schema, b.name]) =
      (routedTables inputs'.tableConfigs).insertionSort fun a b => [a.schema, a.name] ≤ [b.schema, b.name] :=
    KeySort.eq_of_perm (fun t : TableEntry => [t.schema, t.name]) tables fun x left y right keys =>
      List.inj_on_of_nodup_map sound.tables left right (foldedTableName_congr keys)
  unfold specOf
  rw [compiledOf_reordered named reordered, reordered.cluster, gates, sorted]

omit named in
theorem CompileInputs.Sound.of_reordered (sound : inputs.Sound) : inputs'.Sound where
  gates := (reordered.gates.map _).nodup_iff.mp sound.gates
  compilable := sound.compilable.of_perm (reordered.shards.map fun s _ t same => by
    rw [same.1]
    rfl)
  tables := (reordered.routedTables.map _).nodup_iff.mp sound.tables

omit named in
theorem CompileInputs.Reordered.servingOwners_eq (id : KeyspaceId) :
    servingOwners inputs'.shards id = servingOwners inputs.shards id := by
  have same := (reordered.shards.map (f := fun s => (s.isSystem, s.serving, s.keyRange)) fun s _ t same => by
    rw [same.1]
    rfl).countP_eq fun p => !p.1 && p.2.1 && (toRange p.2.2).toOption.any (·.contains id)
  simp only [List.countP_map, Function.comp_def] at same
  exact same.symm

theorem CompileInputs.Named.of_reordered : inputs'.Named where
  shards := ((reordered.shards.map (f := Shard.name) fun s _ t same => by rw [same.1]).nodup_iff).mp named.shards
  tableConfigs := ((reordered.tableConfigs.map (f := TableConfig.name) fun s _ t same => by
    rw [same.1]).nodup_iff).mp named.tableConfigs
  pods := by
    intro t member
    obtain ⟨s, listed, -, perm⟩ := reordered.shards.mem member
    exact (perm.map _).nodup_iff.mp (named.pods s listed)
  endpoints := by
    rw [reordered.endpoints]
    exact named.endpoints
  canonical := by
    intro t member data
    obtain ⟨s, listed, same, -⟩ := reordered.shards.mem member
    rw [same] at data ⊢
    exact named.canonical s listed data

omit reordered in
theorem compile_partitioned : compile inputs = .ok spec ↔
    inputs.Sound ∧ (∀ id, servingOwners inputs.shards id = 1) ∧ spec = specOf inputs := by
  rw [compile_ok_iff, validatePartition_servingRangesOf named.canonical]

theorem compile_reordered (compiled : compile inputs = .ok spec) : compile inputs' = .ok spec := by
  obtain ⟨sound, partitioned, rfl⟩ := (compile_partitioned named).mp compiled
  refine (compile_partitioned (named.of_reordered reordered)).mpr ⟨sound.of_reordered reordered, fun id => ?_, ?_⟩
  · rw [reordered.servingOwners_eq, partitioned]
  · exact specOf_reordered named reordered sound

omit named reordered

/-! ## The primaries that are published -/

/-- The endpoint is that of the shard's current primary, an instance that is ready and in the primary role. -/
def Shard.Confirms (s : Shard) (ep : RoutingEndpoint) : Prop :=
  ∃ inst ∈ s.instances, inst.pod = s.currentPrimary ∧ inst.ready = true ∧ inst.role = .primary ∧ ep.pod = inst.pod

theorem lookup_filed {pod : String} (known : endpoints.lookup pod = some ep) :
    (pod, ep) ∈ endpoints := by
  obtain ⟨before, after, split, -⟩ := List.lookup_eq_some_iff.mp known
  exact split ▸ List.mem_append_cons_self

theorem publishedPrimary_found (published : publishedPrimary endpoints s = some ep) :
    s.currentPrimary ≠ "" ∧ endpoints.lookup s.currentPrimary = some ep ∧
      ∃ inst ∈ s.instances, inst.pod = s.currentPrimary ∧ inst.ready = true ∧ inst.role = .primary := by
  unfold publishedPrimary at published
  split_ifs at published with unset
  split at published
  · cases published
  · rename_i inst found
    split_ifs at published with bad
    have pod := List.find?_some found
    rw [beq_iff_eq] at pod
    simp only [not_or, not_not] at bad
    exact ⟨unset, published, inst, List.mem_of_find?_eq_some found, pod, bad.1, bad.2⟩

theorem publishedPrimary_confirmed (filed : ∀ pod ep, endpoints.lookup pod = some ep → ep.pod = pod)
    (published : publishedPrimary endpoints s = some ep) : s.Confirms ep := by
  obtain ⟨-, known, inst, listed, pod, ready, role⟩ := publishedPrimary_found published
  exact ⟨inst, listed, pod, ready, role, (filed _ ep known).trans pod.symm⟩

theorem replicaEndpoints_pod_ne (filed : ∀ pod ep, endpoints.lookup pod = some ep → ep.pod = pod)
    (listed : ep ∈ replicaEndpoints endpoints s) : ep.pod ≠ s.currentPrimary := by
  obtain ⟨inst, -, found⟩ := List.mem_filterMap.mp ((List.mem_insertionSort _).mp listed)
  split_ifs at found with skipped
  obtain ⟨ep', known, rfl⟩ := Option.map_eq_some_iff.mp found
  have pod := filed inst.pod ep' known
  simp only [pod]
  exact fun same => skipped (.inr same)

/-- Compiling inputs whose names are unique, whose endpoints are filed under their pods and whose bounds are canonical
does not depend on the order of the shards, of their instances, of the table configs, their tables and the sequences of
these, or of the gates. Without duplicates and bad ranges it succeeds exactly if every id has one shard in service. A
primary that is published is confirmed, and is not one of the replicas. -/
theorem compile_canonical (inputs : CompileInputs) (named : inputs.Named) :
    (∀ inputs', inputs.Reordered inputs' → ∀ spec, compile inputs = .ok spec ↔ compile inputs' = .ok spec) ∧
    (inputs.Sound → ((∃ spec, compile inputs = .ok spec) ↔ ∀ id, servingOwners inputs.shards id = 1)) ∧
    ∀ spec, compile inputs = .ok spec →
      (∀ entry ∈ spec.shards, ∃ s ∈ inputs.shards, s.isSystem = false ∧ entry.name = s.name ∧
        ∀ ep, entry.primary = some ep → s.Confirms ep ∧ ∀ r ∈ entry.replicas, r.pod ≠ ep.pod) ∧
      ∀ ep, spec.sequenceEndpoint = some ep → ∃ s ∈ inputs.shards, s.isSystem = true ∧ s.Confirms ep := by
  refine ⟨fun inputs' reordered spec => ⟨compile_reordered named reordered, ?_⟩, fun sound => ?_, fun spec compiled => ?_⟩
  · exact compile_reordered (named.of_reordered reordered) reordered.symm
  · constructor
    · rintro ⟨spec, compiled⟩
      exact ((compile_partitioned named).mp compiled).2.1
    · exact fun partitioned => ⟨_, (compile_partitioned named).mpr ⟨sound, partitioned, rfl⟩⟩
  · obtain ⟨-, -, rfl⟩ := (compile_partitioned named).mp compiled
    have listed : ∀ s ∈ sortShards inputs.shards, s ∈ inputs.shards := fun s member =>
      (List.perm_insertionSort _ _).subset member
    constructor
    · intro entry member
      obtain ⟨s, kept, rfl⟩ := List.mem_map.mp member
      obtain ⟨inside, data⟩ := List.mem_filter.mp kept
      refine ⟨s, listed s inside, by simpa using data, rfl, fun ep published => ?_⟩
      have confirmed := publishedPrimary_confirmed named.endpoints published
      refine ⟨confirmed, fun r replica => ?_⟩
      obtain ⟨inst, -, pod, -, -, same⟩ := confirmed
      rw [same, pod]
      exact replicaEndpoints_pod_ne named.endpoints replica
    · intro ep published
      obtain ⟨s, found, primary⟩ := Option.bind_eq_some_iff.mp published
      exact ⟨s, listed s (List.mem_of_find?_eq_some found), List.find?_some found,
        publishedPrimary_confirmed named.endpoints primary⟩

def halvesInputs : CompileInputs where
  cluster := { name := "main", uid := "c1" }
  shards := [
    { name := "main-80-max", clusterRef := "main", keyRange := ⟨"80", ""⟩, serving := true, currentPrimary := "b-1",
      instances := [⟨"b-0", .replica, true⟩, ⟨"b-1", .primary, true⟩] },
    { name := "main-sys", clusterRef := "main", keyRange := ⟨"", ""⟩, role := .system, currentPrimary := "s-0",
      instances := [⟨"s-0", .primary, true⟩] },
    { name := "main-min-80", clusterRef := "main", keyRange := ⟨"", "80"⟩, serving := true, currentPrimary := "a-0",
      instances := [⟨"a-0", .primary, true⟩, ⟨"a-1", .replica, false⟩] }]
  tableConfigs := [
    ⟨"orders", "main", [⟨"", "orders", .sharded, "id", "int8", [("line", "lines"), ("id", "ids")]⟩]⟩,
    ⟨"extra", "main", [⟨"public", "zones", .global, "", "", []⟩, ⟨"audit", "log", .global, "", "", []⟩]⟩]
  endpoints := [("a-0", ⟨"a-0", "10.0.0.1", 5432, false⟩), ("b-1", ⟨"b-1", "10.0.0.2", 5432, false⟩),
    ("b-0", ⟨"b-0", "10.0.0.3", 5432, false⟩), ("s-0", ⟨"s-0", "10.0.0.4", 5432, false⟩)]
  gates := [
    { id := "r2", «match» := { keyRanges := [⟨"80", ""⟩] }, deadline := 60 },
    { id := "r1", «match» := { tables := ["public.zones"] }, deadline := 60 }]

def CompileInputs.reversed (inputs : CompileInputs) : CompileInputs :=
  { inputs with
    shards := inputs.shards.reverse.map fun s => { s with instances := s.instances.reverse }
    tableConfigs := inputs.tableConfigs.reverse.map fun tc =>
      { tc with tables := tc.tables.reverse.map fun t => { t with sequences := t.sequences.reverse } }
    gates := inputs.gates.reverse }

theorem CompileInputs.reordered_reversed (inputs : CompileInputs) : inputs.Reordered inputs.reversed where
  cluster := rfl
  endpoints := rfl
  shards := ⟨_, (List.reverse_perm _).symm, List.forall₂_map_right_iff.mpr
    (List.forall₂_same.mpr fun s _ => ⟨rfl, (List.reverse_perm s.instances).symm⟩)⟩
  tableConfigs := ⟨_, (List.reverse_perm _).symm, List.forall₂_map_right_iff.mpr (List.forall₂_same.mpr fun tc _ =>
    ⟨rfl, _, (List.reverse_perm tc.tables).symm, List.forall₂_map_right_iff.mpr
      (List.forall₂_same.mpr fun t _ => ⟨rfl, (List.reverse_perm t.sequences).symm⟩)⟩)⟩
  gates := (List.reverse_perm _).symm

theorem halvesInputs_named : halvesInputs.Named where
  shards := by decide
  tableConfigs := by decide
  pods := by decide
  endpoints := by
    intro pod ep known
    have filed : ∀ p ∈ halvesInputs.endpoints, p.2.pod = p.1 := by decide
    exact filed (pod, ep) (lookup_filed known)
  canonical := by
    have zero : Topo.canonicalBound "" = .ok 0 := by decide +kernel
    have half : Topo.canonicalBound "80" = .ok (2 ^ 63) := by decide +kernel
    simp only [halvesInputs, List.forall_mem_cons, List.not_mem_nil, false_implies, implies_true, and_true]
    exact ⟨fun _ => ⟨⟨_, half⟩, .inl rfl⟩, fun data => absurd data (by decide), fun _ => ⟨⟨_, zero⟩, .inr ⟨_, half⟩⟩⟩

theorem compile_canonical_halves :
    ∃ spec, compile halvesInputs = .ok spec ∧ compile halvesInputs.reversed = .ok spec ∧
      (∀ id, servingOwners halvesInputs.shards id = 1) ∧
      ∃ entry ∈ spec.shards, ∃ ep r, entry.primary = some ep ∧ r ∈ entry.replicas ∧ r.pod ≠ ep.pod := by
  have emits : (compile halvesInputs).toOption.any (fun spec => spec.shards.any fun entry =>
      entry.primary.isSome && !entry.replicas.isEmpty) = true := by decide +kernel
  obtain ⟨spec, emitted, published⟩ := (Option.any_eq_true _ _).mp emits
  have compiled := Checked.toOption_some.mp emitted
  obtain ⟨ordered, succeeds, confirmed⟩ := compile_canonical halvesInputs halvesInputs_named
  have sound := ((compile_partitioned halvesInputs_named).mp compiled).1
  refine ⟨spec, compiled, (ordered _ halvesInputs.reordered_reversed spec).mp compiled,
    (succeeds sound).mp ⟨spec, compiled⟩, ?_⟩
  obtain ⟨entry, listed, both⟩ := List.any_eq_true.mp published
  rw [Bool.and_eq_true, Option.isSome_iff_exists] at both
  obtain ⟨⟨ep, primary⟩, replicas⟩ := both
  obtain ⟨r, replica⟩ := List.exists_mem_of_ne_nil entry.replicas (by simpa using replicas)
  obtain ⟨s, -, -, -, only⟩ := (confirmed spec compiled).1 entry listed
  exact ⟨entry, listed, ep, r, primary, replica, (only ep primary).2 r replica⟩

end PgShard.Operator
