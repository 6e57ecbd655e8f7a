import PgShard.Operator.CompileOrder

/-! The flip of a cutover: targets start to serve one by one, then the source is hidden. -/

namespace PgShard.Operator

variable {s : Shard} {r : KeyRange} {shards : List Shard}

variable {ranges : List KeyRange} {source : KeyRange} {id : KeyspaceId} {index : Nat}

/-! ## The targets own what the source owns -/

theorem contiguous_iff : contiguous ranges = .ok () ↔ ranges.IsChain KeyRange.Adjacent := by
  fun_induction contiguous ranges with
  | case1 a b rest stop =>
    refine iff_of_false (fun valid => by cases valid) fun chain => ?_
    cases stop.symm.trans (List.isChain_cons_cons.mp chain).1
  | case2 a b rest e stop apart =>
    refine iff_of_false (fun valid => by cases valid) fun chain => apart ?_
    exact Option.some.inj (stop.symm.trans (List.isChain_cons_cons.mp chain).1)
  | case3 a b rest e stop together ih =>
    rw [ih, List.isChain_cons_cons]
    exact (and_iff_right (stop.trans (congrArg some (not_not.mp together)))).symm
  | case4 ranges short =>
    refine iff_of_true rfl ?_
    match ranges with
    | [] => exact .nil
    | [r] => exact .singleton r
    | a :: b :: rest => exact absurd rfl (short a b rest)

variable {sorted : List KeyRange}

theorem validateReshardSorted_iff (listed : sorted.Perm ranges) (ordered : sorted.Pairwise fun a b => a.start ≤ b.start) :
    validateReshardSorted source ranges sorted = .ok () ↔
      2 ≤ ranges.length ∧ ∀ id, owners ranges id = if source.contains id = true then 1 else 0 := by
  have counted : ∀ id, owners ranges id = owners sorted id := fun id => (listed.countP_eq _).symm
  have length := listed.length_eq
  simp only [counted]
  unfold validateReshardSorted
  by_cases few : ranges.length < 2
  · rw [if_pos few]
    exact iff_of_false (fun valid => by cases valid) fun parts => by omega
  rw [if_neg few, and_iff_right (not_lt.mp few)]
  cases sorted with
  | nil => simp only [List.length_nil] at length; omega
  | cons first rest =>
    rw [← chain_iff_owners ordered, ← contiguous_iff]
    by_cases start : first.start = source.start
    · simp only [start, ne_eq, not_true_eq_false, if_false, true_and]
      cases contiguous (first :: rest) with
      | error e => exact iff_of_false (fun valid => by cases valid) fun parts => by cases parts.1
      | ok _ => simp [bind, Except.bind]
    · simp [start]

theorem validateReshardPartition_owners (accepted : validateReshardPartition source ranges = .ok ()) :
    owners ranges id = if source.contains id = true then 1 else 0 :=
  ((validateReshardSorted_iff (List.perm_insertionSort _ ranges) (List.pairwise_insertionSort _ ranges)).mp accepted).2 id

/-- A reshard is accepted exactly if it has two targets or more that own the source's ids, each of them once, and no
other id; how the sort lists targets of equal starts does not matter. -/
theorem reshard_partition_exact (source : KeyRange) (targets : List KeyRange) :
    (validateReshardPartition source targets = .ok () ↔
      2 ≤ targets.length ∧ ∀ id, owners targets id = if source.contains id = true then 1 else 0) ∧
    ∀ sorted : List KeyRange, sorted.Perm targets → (sorted.Pairwise fun a b => a.start ≤ b.start) →
      (validateReshardSorted source targets sorted = .ok () ↔
        2 ≤ targets.length ∧ ∀ id, owners targets id = if source.contains id = true then 1 else 0) := by
  refine ⟨?_, fun sorted listed ordered => validateReshardSorted_iff listed ordered⟩
  exact validateReshardSorted_iff (List.perm_insertionSort _ targets) (List.pairwise_insertionSort _ targets)

/-! ## The serving sets of a flip -/

/-- The cluster's shards while the flip is under way: the targets that are `on` serve already. -/
def flipped (source : Shard) (targets others : List Shard) (serving : Bool) (on : Shard → Bool) : List Shard :=
  { source with serving } :: (targets.map (fun t => { t with serving := on t }) ++ others)

variable {parent : Shard} {targets others : List Shard} {serving : Bool} {on : Shard → Bool}

theorem servingOwners_append (left right : List Shard) (id : KeyspaceId) :
    servingOwners (left ++ right) id = servingOwners left id + servingOwners right id :=
  List.countP_append

theorem servingOwners_cons (s : Shard) (rest : List Shard) (id : KeyspaceId) :
    servingOwners (s :: rest) id = servingOwners [s] id + servingOwners rest id :=
  servingOwners_append [s] rest id

theorem servingOwners_single (data : s.isSystem = false) (serves : s.serving = true)
    (parsed : toRange s.keyRange = .ok r) : servingOwners [s] id = if r.contains id = true then 1 else 0 := by
  unfold servingOwners
  rw [List.countP_singleton, data, serves, parsed]
  rfl

theorem servingOwners_hidden (hidden : s.serving = false) : servingOwners [s] id = 0 := by
  unfold servingOwners
  rw [List.countP_singleton, hidden]
  simp

theorem servingOwners_targets (data : ∀ t ∈ targets, t.isSystem = false)
    (parses : List.Forall₂ (fun t r => toRange t.keyRange = .ok r) targets ranges) :
    servingOwners (targets.map fun t => { t with serving := true }) id = owners ranges id := by
  induction parses with
  | nil => rfl
  | @cons t r rest ranges parsed _ ih =>
    obtain ⟨first, later⟩ := List.forall_mem_cons.mp data
    have single : servingOwners [{ t with serving := true }] id = _ := servingOwners_single first rfl parsed
    rw [List.map_cons, servingOwners_cons, ih later, single]
    split_ifs with inside
    · rw [owners_cons_pos inside, Nat.add_comm]
    · rw [owners_cons_neg inside, Nat.zero_add]

theorem one_le_servingOwners (member : s ∈ shards)
    (data : s.isSystem = false) (serves : s.serving = true) (parsed : toRange s.keyRange = .ok r)
    (inside : r.contains id = true) : 1 ≤ servingOwners shards id := by
  refine List.countP_pos_iff.mpr ⟨s, member, ?_⟩
  rw [data, serves, parsed]
  simpa [Except.toOption] using inside

theorem flipped_roles : ((parent :: (targets ++ others)).map fun s => (s.isSystem, s.keyRange)) =
    (flipped parent targets others serving on).map fun s => (s.isSystem, s.keyRange) := by
  simp only [flipped, List.map_cons, List.map_append, List.map_map]
  rfl

theorem servingOwners_flipped : servingOwners (flipped parent targets others serving on) id =
    servingOwners [{ parent with serving }] id +
      (servingOwners (targets.map fun t => { t with serving := on t }) id + servingOwners others id) := by
  rw [flipped, servingOwners_cons, servingOwners_append]

/-- A shard of the cluster is split: the serving set partitions the keyspace, the shard serves in it, and the targets,
all of them hidden, were accepted for its range. -/
structure Splits (inputs : CompileInputs) (parent : Shard) (targets others : List Shard) (source : KeyRange)
    (ranges : List KeyRange) : Prop where
  listed : inputs.shards.Perm (parent :: (targets ++ others))
  canonical : ∀ s ∈ inputs.shards, s.isSystem = false → s.keyRange.Canonical
  partitioned : ∀ id, servingOwners inputs.shards id = 1
  data : parent.isSystem = false
  serves : parent.serving = true
  targetData : ∀ t ∈ targets, t.isSystem = false
  hidden : ∀ t ∈ targets, t.serving = false
  parsed : toRange parent.keyRange = .ok source
  parses : List.Forall₂ (fun t r => toRange t.keyRange = .ok r) targets ranges
  accepted : validateReshardPartition source ranges = .ok ()

variable {inputs : CompileInputs} (splits : Splits inputs parent targets others source ranges)
include splits

theorem Splits.compilable (compilable : Compilable inputs.shards false)
    (listed : shards.Perm (flipped parent targets others serving on)) : Compilable shards false := by
  refine compilable.of_perm ((splits.listed.map _).trans ?_)
  rw [flipped_roles]
  exact (listed.map _).symm

theorem Splits.canonical_flipped (listed : shards.Perm (flipped parent targets others serving on)) :
    ∀ s ∈ shards, s.isSystem = false → s.keyRange.Canonical := by
  intro s member data
  have pair := (listed.map fun s => (s.isSystem, s.keyRange)).subset (List.mem_map_of_mem member)
  rw [← flipped_roles] at pair
  obtain ⟨s', inside, same⟩ := List.mem_map.mp pair
  obtain ⟨role, bounds⟩ := Prod.mk.injEq .. ▸ same
  rw [← bounds]
  exact splits.canonical s' (splits.listed.symm.subset inside) (role.trans data)

theorem Splits.owners_rest : servingOwners [parent] id + servingOwners others id = 1 := by
  have one := splits.partitioned id
  have hidden : servingOwners targets id = 0 :=
    List.countP_eq_zero.mpr fun t member => by simp [splits.hidden t member]
  rw [servingOwners, splits.listed.countP_eq, ← servingOwners, servingOwners_cons, servingOwners_append, hidden] at one
  omega

theorem Splits.doubled {t : Shard} (member : t ∈ targets) (parsed : toRange t.keyRange = .ok r)
    (early : on t = true) : servingOwners (flipped parent targets others true on) r.start ≠ 1 := by
  have again : 1 ≤ servingOwners (targets.map fun t => { t with serving := on t }) r.start :=
    one_le_servingOwners (List.mem_map_of_mem member) (splits.targetData t member) early parsed r.contains_start
  have rest : servingOwners [parent] r.start + servingOwners others r.start = 1 := splits.owners_rest
  rw [servingOwners_single splits.data splits.serves splits.parsed] at rest
  have single : servingOwners [{ parent with serving := true }] r.start = _ :=
    servingOwners_single splits.data rfl splits.parsed
  rw [servingOwners_flipped, single]
  omega

theorem Splits.replaced : servingOwners (flipped parent targets others false fun _ => true) id = 1 := by
  have rest : servingOwners [parent] id + servingOwners others id = 1 := splits.owners_rest
  rw [servingOwners_flipped, servingOwners_hidden rfl, servingOwners_targets splits.targetData splits.parses,
    validateReshardPartition_owners splits.accepted]
  rw [servingOwners_single splits.data splits.serves splits.parsed] at rest
  omega

omit splits

/-- Only the two ends of a flip compile. Let the serving set partition the keyspace and let the targets be accepted for
a shard in it. As long as the shard serves, with any of the targets serving beside it, the compiler answers its
partition error; with all targets serving and the shard hidden it succeeds. -/
theorem flip_ends_compile (inputs : CompileInputs) (parent : Shard) (targets others : List Shard) (source : KeyRange)
    (ranges : List KeyRange) (splits : Splits inputs parent targets others source ranges) (sound : inputs.Sound) :
    (∀ on shards, (∃ t ∈ targets, on t = true) → shards.Perm (flipped parent targets others true on) →
      ∃ e, compile { inputs with shards } = .error ("serving shards do not partition the keyspace: " ++ e)) ∧
    ∀ shards, shards.Perm (flipped parent targets others false fun _ => true) →
      ∃ spec, compile { inputs with shards } = .ok spec := by
  constructor
  · rintro on shards ⟨t, member, early⟩ listed
    refine compile_unpartitioned sound.gates (splits.compilable sound.compilable listed) ?_
    rw [ne_eq, validatePartition_servingRangesOf (splits.canonical_flipped listed), not_forall]
    have target : t ∈ inputs.shards :=
      splits.listed.symm.subset (List.mem_cons_of_mem _ (List.mem_append_left _ member))
    obtain ⟨r, parsed⟩ := sound.compilable.1 t target (splits.targetData t member)
    refine ⟨r.start, ?_⟩
    rw [servingOwners, listed.countP_eq]
    exact splits.doubled member parsed early
  · intro shards listed
    refine ⟨_, compile_ok_iff.mpr ⟨⟨sound.gates, splits.compilable sound.compilable listed, sound.tables⟩, ?_, rfl⟩⟩
    rw [validatePartition_servingRangesOf (splits.canonical_flipped listed)]
    intro id
    rw [servingOwners, listed.countP_eq]
    exact splits.replaced

def upperShard : Shard :=
  { name := "main-80-max", clusterRef := "main", keyRange := ⟨"80", ""⟩, serving := true }

def quarterTargets : List Shard :=
  [{ name := "main-c0-max", clusterRef := "main", keyRange := ⟨"c0", ""⟩ },
    { name := "main-80-c0", clusterRef := "main", keyRange := ⟨"80", "c0"⟩ }]

theorem thirdQuarter_nonempty : ∀ e, some (2 ^ 63 + 2 ^ 62) = some e → (2 ^ 63 : Fin (2 ^ 64)) < e := by
  rintro e ⟨⟩
  decide +kernel

def thirdQuarter : KeyRange :=
  ⟨2 ^ 63, some (2 ^ 63 + 2 ^ 62), thirdQuarter_nonempty⟩

def splitInputs : CompileInputs where
  cluster := { name := "main", uid := "c1" }
  shards := upperShard :: (quarterTargets ++
    [{ name := "main-min-80", clusterRef := "main", keyRange := ⟨"", "80"⟩, serving := true }])
  tableConfigs := []
  endpoints := []
  gates := []

theorem splitInputs_splits : ∃ others source ranges, Splits splitInputs upperShard quarterTargets others source ranges := by
  have zero : Topo.canonicalBound "" = .ok 0 := by decide +kernel
  have half : Topo.canonicalBound "80" = .ok (2 ^ 63) := by decide +kernel
  have quarter : Topo.canonicalBound "c0" = .ok (2 ^ 63 + 2 ^ 62) := by decide +kernel
  have canonical : ∀ s ∈ splitInputs.shards, s.isSystem = false → s.keyRange.Canonical := by
    simp only [splitInputs, upperShard, quarterTargets, List.cons_append, List.nil_append, List.forall_mem_cons,
      List.not_mem_nil, false_implies, implies_true, and_true]
    exact ⟨fun _ => ⟨⟨_, half⟩, .inl rfl⟩, fun _ => ⟨⟨_, quarter⟩, .inl rfl⟩,
      fun _ => ⟨⟨_, half⟩, .inr ⟨_, quarter⟩⟩, fun _ => ⟨⟨_, zero⟩, .inr ⟨_, half⟩⟩⟩
  have checked : validatePartition (servingRangesOf (sortShards splitInputs.shards)) = .ok () := by decide +kernel
  exact ⟨_, newOpenKeyRange (2 ^ 63), [newOpenKeyRange (2 ^ 63 + 2 ^ 62), thirdQuarter], {
    listed := .refl _
    canonical
    partitioned := (validatePartition_servingRangesOf canonical).mp checked
    data := rfl
    serves := rfl
    targetData := by decide
    hidden := by decide
    parsed := by decide +kernel
    parses := .cons (by decide +kernel) (.cons (by decide +kernel) .nil)
    accepted := by decide +kernel }⟩

theorem flip_ends_compile_quarters : ∃ others,
    (∃ e, compile { splitInputs with shards := flipped upperShard quarterTargets others true (·.name == "main-80-c0") } =
      .error ("serving shards do not partition the keyspace: " ++ e)) ∧
    ∃ spec, compile { splitInputs with shards := flipped upperShard quarterTargets others false fun _ => true } =
      .ok spec := by
  obtain ⟨others, source, ranges, splits⟩ := splitInputs_splits
  have compiles : (compile splitInputs).toOption.isSome = true := by decide +kernel
  obtain ⟨spec, emitted⟩ := Option.isSome_iff_exists.mp compiles
  have sound := (compile_ok_iff.mp (Checked.toOption_some.mp emitted)).1
  obtain ⟨between, after⟩ := flip_ends_compile splitInputs upperShard quarterTargets others source ranges splits sound
  exact ⟨others, between _ _ (by decide) (.refl _), after _ (.refl _)⟩

end PgShard.Operator
