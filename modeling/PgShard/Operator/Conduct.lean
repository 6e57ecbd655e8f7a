import PgShard.Lib.Checked
import PgShard.Operator.Protocol

/-! Every reconcile keeps to the protocol, whatever its calls are answered. -/

namespace PgShard.Operator

open Versioned Effects Effects.Monitor

variable {name : String} {I : Pass → Prop} {names : List String} {cluster : Cluster} {i : Nat} {mode : SeedPassMode}
  {source : Shard}

variable {p : Pass} {r : Copy Reshard} {configs : Option (List TableConfig)} {α : Type} {Q : Pass → α → Prop} {E : Pass → Stop → Prop}

/-- The pass holds `r`, which is not being deleted, has read `configs` last and has
given up neither the fence nor the claim. -/
structure Clean (p : Pass) (r : Copy Reshard) (configs : Option (List TableConfig)) : Prop where
  held : p.held = some r
  name : p.name = r.obj.name
  free : p.stuck = false
  alive : r.obj.deleting = false
  fencing : p.unfenced = false
  claiming : p.dropped = false
  tables : p.configs = configs

/-- What a handler may return, to be persisted at the end of the pass. -/
def Settled (p : Pass) (r : Copy Reshard) : Prop :=
  p.stuck = false ∧ Settles p r

def Stopped (p : Pass) : Stop → Prop
  | .failed => True
  | .returned r => Settled p r

theorem settled_of_move {status : ReshardStatus} (held : p.held = some r) (free : p.stuck = false)
    (move : Move p r.obj status) : Settled p ⟨r.version, { r.obj with status }⟩ :=
  ⟨free, r, status, held, move, rfl⟩

theorem fail_settled (held : p.held = some r) (free : p.stuck = false) (alive : r.obj.deleting = false)
    (cause : Tripped p r.obj ∨ Malformed p r.obj) (kind : ConditionKind) (reason message : String) :
    Settled p (fail r kind reason message) :=
  settled_of_move (r := r) held free (.failed _ alive cause)

namespace Clean

section

variable (clean : Clean p r configs)
include clean

theorem settled {status : ReshardStatus} (move : Move p r.obj status) :
    Settled p ⟨r.version, { r.obj with status }⟩ :=
  settled_of_move clean.held clean.free move

theorem unchanged : Settled p r :=
  clean.settled (.hold r.obj.status.conditions)

theorem condition (kind : ConditionKind) (status : Bool) (reason message : String) :
    Settled p (setReshardCondition r kind status reason message) :=
  clean.settled (.hold _)

theorem hold (reason message : String) : Settled p (hold r reason message) :=
  clean.condition _ _ _ _

theorem holdCutover (reason message : String) : Settled p (holdCutover r reason message) :=
  clean.condition _ _ _ _

theorem fail (cause : Tripped p r.obj ∨ Malformed p r.obj) (kind : ConditionKind)
    (reason message : String) : Settled p (fail r kind reason message) :=
  fail_settled clean.held clean.free clean.alive cause kind reason message

theorem readShard (s : Copy Shard) : Clean { p with shards := s :: p.shards } r configs :=
  { clean with }

theorem missShard (name : String) :
    Clean { p with unread := name :: p.unread } r configs :=
  { clean with }

theorem readConfigs (items : List TableConfig) :
    Clean { p with configs := some items } r (some items) :=
  ⟨clean.held, clean.name, clean.free, clean.alive, clean.fencing, clean.claiming, rfl⟩

theorem readRouting (routing : RoutingSpec) :
    Clean { p with routing := some routing, waited := none } r configs :=
  { clean with }

theorem knowNode (name : String) : Clean { p with nodes := name :: p.nodes } r configs :=
  { clean with }

theorem readClock (t : Nat) : Clean { p with clock := some t, waited := some t } r configs :=
  { clean with }

theorem readCluster (c : Cluster) : Clean { p with cluster := some c } r configs :=
  { clean with }

theorem rejects (e : RpcError) (codes : List RpcCode) : Clean (p.rejects e codes) r configs := by
  unfold Pass.rejects
  split
  · exact { clean with }
  · exact clean

end

end Clean

theorem tripped_of_rejects {e : RpcError} {codes : List RpcCode} (permanent : e.code ∈ codes) :
    Tripped (p.rejects e codes) r.obj := by
  simp [Tripped, Pass.rejects, permanent]

/-! ## What each call does to the pass -/

theorem fetchShard_obeys {Q : Pass → Option (Copy Shard) → Prop}
    (found : ∀ s, s.obj.name = name → Q { p with shards := s :: p.shards } (some s))
    (missing : Q { p with unread := name :: p.unread } none)
    (error : E { p with unread := name :: p.unread } .failed) : protocol.Obeys (fetchShard name) p Q E := by
  refine obeys_bind.mpr ⟨trivial, fun answer given => ?_⟩
  cases answer with
  | found s => exact found s given
  | notFound => exact missing
  | failed => exact error

theorem fetchCluster_obeys {Q : Pass → Option Cluster → Prop} (held : p.held = some r)
    (found : ∀ c, c.name = r.obj.spec.clusterRef → Q { p with cluster := some c } (some c)) (missing : Q p none)
    (error : E p .failed) : protocol.Obeys (fetchCluster r.obj.spec.clusterRef) p Q E := by
  refine obeys_bind.mpr ⟨trivial, fun answer given => ?_⟩
  cases answer with
  | found c =>
    have own : p.held.any (·.obj.spec.clusterRef == r.obj.spec.clusterRef) = true := by simp [held]
    change Q (if _ then _ else _) _
    rw [if_pos own]
    exact found c given
  | notFound => exact missing
  | failed => exact error

theorem timeNow_obeys {Q : Pass → Nat → Prop} (read : ∀ t, Q { p with clock := some t, waited := some t } t) :
    protocol.Obeys timeNow p Q E :=
  ⟨trivial, fun t _ => read t⟩

/-- A program that learns nothing the protocol depends on. -/
def Quiet (program : Ctl α) : Prop :=
  protocol.Silent (· = .failed) program

theorem Quiet.andThen {β : Type} {program : Ctl α} {f : α → Ctl β} {Q : Pass → β → Prop} (quiet : Quiet program)
    (rest : ∀ a, protocol.Obeys (f a) p Q Stopped) : protocol.Obeys (program >>= f) p Q Stopped :=
  obeys_bind.mpr (Silent.obeys quiet rest fun _ failed => failed ▸ trivial)

theorem fetchNode_quiet (name : String) : Quiet (fetchNode name) := by
  intro p
  refine obeys_bind.mpr ⟨trivial, fun answer _ => ?_⟩
  cases answer <;> first | exact rfl | exact ⟨rfl, rfl⟩

theorem fetchPod_quiet (name : String) : Quiet (fetchPod name) := by
  intro p
  refine obeys_bind.mpr ⟨trivial, fun answer _ => ?_⟩
  cases answer <;> first | exact rfl | exact ⟨rfl, rfl⟩

theorem fetchRouting_obeys {r : Copy Reshard} {Q : Pass → Option RoutingSpec → Prop} (held : p.held = some r)
    (found : ∀ routing, Q { p with routing := some routing, waited := none } (some routing)) (missing : Q p none)
    (error : E p .failed) : protocol.Obeys (fetchRouting r.obj.spec.clusterRef) p Q E := by
  refine obeys_bind.mpr ⟨⟨r, held, rfl⟩, fun answer _ => ?_⟩
  cases answer with
  | found routing => exact found routing
  | notFound => exact missing
  | failed => exact error

theorem agentClient_quiet (host : String) : Quiet (agentClient host) := by
  intro p
  refine obeys_bind.mpr ⟨trivial, fun answer _ => ?_⟩
  cases answer <;> first | exact rfl | exact ⟨rfl, rfl⟩

theorem primaryEndpoint_quiet (nodeRef : String) : Quiet (primaryEndpoint nodeRef) := by
  unfold primaryEndpoint
  split
  · exact silent_ret _
  · refine (fetchNode_quiet nodeRef).bind fun node => ?_
    cases node with
    | none => exact silent_ret _
    | some node =>
      dsimp only
      split
      · exact silent_ret _
      · refine (fetchPod_quiet _).bind fun pod => ?_
        cases pod with
        | none => exact silent_ret _
        | some pod =>
          dsimp only
          split <;> exact silent_ret _

theorem verifiedPrimary_quiet (shard : Shard) : Quiet (verifiedPrimary shard) := by
  refine (primaryEndpoint_quiet _).bind fun endpoint => ?_
  cases endpoint <;> exact silent_ret _

theorem stillPrimary_quiet (shard : Shard) (pod : Pod) : Quiet (stillPrimary shard pod) := by
  refine (verifiedPrimary_quiet _).bind fun confirmed => ?_
  cases confirmed <;> exact silent_ret _

theorem workflowStatus_quiet (host id : String) : Quiet (workflowStatus host id) := by
  intro p
  refine obeys_bind.mpr ⟨trivial, fun answer _ => ?_⟩
  cases answer with
  | error e => exact rfl
  | ok status =>
    change protocol.Obeys (if status.id ≠ id then _ else _) p _ _
    split <;> exact rfl

theorem updateStatus_obeys {Q : Pass → Copy Reshard → Prop} (settled : Settled p r)
    (stored : ∀ version, Q (p.wroteStatus r (.stored version)) { r with version })
    (error : ∀ p', E p' .failed) : protocol.Obeys (updateStatus r) p Q E := by
  refine obeys_bind.mpr ⟨settled, fun answer _ => ?_⟩
  cases answer with
  | stored version => exact stored version
  | conflict | failed => exact error _

/-! ## Validating and provisioning -/

theorem reconcileValidating_obeys (clean : Clean p r configs) (early : r.obj.status.phase.early) :
    protocol.Obeys (reconcileValidating r) p Settled Stopped := by
  have malformed : ∀ q, Malformed q r.obj := fun _ => .inl early
  refine obeys_bind.mpr (fetchShard_obeys (fun source named => ?_) ((clean.missShard _).settled (.await _ early)) trivial)
  have clean := clean.readShard source
  dsimp only
  cases refused : sourceRefused r.obj source.obj with
  | some why => exact clean.fail (.inr (malformed _)) _ _ _
  | none =>
    refine obeys_bind.mpr (fetchCluster_obeys clean.held (fun cluster _ => ?_)
      (clean.settled (.await _ early)) trivial)
    have clean := clean.readCluster cluster
    dsimp only
    cases partition : partitionRefused r.obj source.obj with
    | some why => exact clean.fail (.inr (malformed _)) _ _ _
    | none =>
      exact clean.settled (.validated _ early clean.alive List.mem_cons_self named refused partition rfl)

theorem ensureReshardConfigMap_quiet (objectName : String) :
    Quiet (ensureReshardConfigMap r objectName) := by
  intro p
  unfold ensureReshardConfigMap
  split
  · exact ⟨rfl, rfl⟩
  · refine obeys_bind.mpr ⟨trivial, fun answer _ => ?_⟩
    cases answer <;> first | exact rfl | exact ⟨rfl, rfl⟩

theorem Quiet.keeps {program : Ctl α} (quiet : Quiet program) :
    protocol.Keeps I Stopped program :=
  Silent.keeps quiet fun _ _ _ failed => failed ▸ trivial

/-- The pass has read the reshard's cluster and knows the given nodes to be its own. -/
structure ReadCluster (configs : Option (List TableConfig)) (r : Copy Reshard) (known : List String) (p : Pass) :
    Prop where
  clean : Clean p r configs
  read : ∃ c, p.cluster = some c ∧ c.name = r.obj.spec.clusterRef
  owned : known ⊆ p.nodes

section Provisioning

variable {known : List String}

theorem readCluster_keeps_fetchShard (name : String) :
    protocol.Keeps (ReadCluster configs r known) Stopped (fetchShard name) := by
  intro p holds
  exact fetchShard_obeys (fun s _ => ⟨holds.clean.readShard s, holds.read, holds.owned⟩)
    ⟨holds.clean.missShard name, holds.read, holds.owned⟩ trivial

theorem readCluster_keeps_fetchCluster (name : String) :
    protocol.Keeps (ReadCluster configs r known) Stopped (fetchCluster name) := by
  intro p holds
  by_cases own : name = r.obj.spec.clusterRef
  · subst own
    exact fetchCluster_obeys holds.clean.held
      (fun c named => ⟨holds.clean.readCluster c, ⟨c, rfl, named⟩, holds.owned⟩) holds trivial
  · refine obeys_bind.mpr ⟨trivial, fun answer _ => ?_⟩
    cases answer with
    | found c =>
      have other : ¬ p.held.any (·.obj.spec.clusterRef == name) = true := by
        simpa [holds.clean.held] using fun same => own same.symm
      change ReadCluster configs r known (if _ then _ else _)
      rw [if_neg other]
      exact holds
    | notFound => exact holds
    | failed => trivial

theorem ensureOwned_obeys {kind : String} {existing : Option (Option String)} {create : Ctl Created} (clean : Clean p r configs)
    (creates : existing = none → protocol.Obeys create p
      (fun q outcome => Clean q r configs ∧ (outcome = .created → I q)) Stopped)
    (own : existing = some (some r.obj.uid) → I p) :
    protocol.Obeys (ensureOwned r kind name existing create) p (fun q _ => I q) Stopped := by
  have configured : ∀ q, I q → protocol.Obeys (ensureReshardConfigMap r name) q (fun q _ => I q) Stopped :=
    fun q holds => (ensureReshardConfigMap_quiet name).keeps q holds
  cases existing with
  | none =>
    refine (creates rfl).bind fun q outcome made => ?_
    cases outcome with
    | created => exact configured q (made.2 rfl)
    | alreadyExists => exact made.1.unchanged
    | failed => trivial
  | some controller =>
    refine obeys_ite (fun _ => clean.condition _ _ _ _) fun same => configured p (own ?_)
    rw [not_not.mp same]

theorem fetchNodeController_obeys {Q : Pass → Option (Option String) → Prop} (held : p.held = some r)
    (own : Q { p with nodes := name :: p.nodes } (some (some r.obj.uid)))
    (foreign : ∀ controller, controller ≠ some r.obj.uid → Q p (some controller)) (missing : Q p none)
    (error : E p .failed) : protocol.Obeys (fetchNodeController name) p Q E := by
  refine obeys_bind.mpr ⟨trivial, fun answer _ => ?_⟩
  cases answer with
  | notFound => exact missing
  | failed => exact error
  | found controller =>
    change Q (if p.held.any (controller == some ·.obj.uid) then _ else _) (some controller)
    by_cases same : controller = some r.obj.uid
    · rw [if_pos (by simp [held, same]), same]
      exact own
    · rw [if_neg (by simp [held, same])]
      exact foreign controller same

theorem ensureReshardNode_obeys {node : Node} (holds : ReadCluster configs r known p)
    (phase : r.obj.status.phase = .provisioningTargets) (named : TargetName r.obj node.name) :
    protocol.Obeys (ensureReshardNode r node) p (fun q _ => ReadCluster configs r (node.name :: known) q) Stopped := by
  have clean := holds.clean
  have knows : ∀ nodes, known ⊆ nodes →
      ReadCluster configs r (node.name :: known) { p with nodes := node.name :: nodes } := fun nodes owned =>
    ⟨{ clean with }, holds.read,
      List.cons_subset_cons _ owned⟩
  refine obeys_bind.mpr (fetchNodeController_obeys clean.held ?_ (fun controller foreign => ?_) ?_ trivial)
  · exact ensureOwned_obeys (clean.knowNode _) nofun fun _ => knows _ holds.owned
  · exact ensureOwned_obeys clean nofun fun own => absurd (Option.some.inj own) foreign
  · refine ensureOwned_obeys clean (fun _ => ⟨⟨r, clean.held, rfl, phase, named⟩, fun answer _ => ?_⟩) nofun
    cases answer with
    | created => exact ⟨clean.knowNode node.name, fun _ => knows _ holds.owned⟩
    | alreadyExists | failed => exact ⟨clean, nofun⟩

theorem ensureReshardNodes_obeys {nodes : List Node} (holds : ReadCluster configs r known p)
    (phase : r.obj.status.phase = .provisioningTargets) (named : ∀ node ∈ nodes, TargetName r.obj node.name) :
    protocol.Obeys (ensureAll (ensureReshardNode r) nodes) p
      (fun q _ => ReadCluster configs r (nodes.map (·.name) ++ known) q) Stopped := by
  induction nodes generalizing p known with
  | nil => exact holds
  | cons node rest ih =>
    refine (ensureReshardNode_obeys holds phase (named node List.mem_cons_self)).bind fun q _ holds => ?_
    refine (ih holds fun later member => named later (List.mem_cons_of_mem node member)).mono
      (fun q _ holds => ⟨holds.clean, holds.read, ?_⟩) fun _ _ stopped => stopped
    refine List.Subset.trans ?_ holds.owned
    simp

theorem ensureReshardShard_keeps {shard : Shard} (hidden : shard.serving = false) (unclaimed : shard.claim = "")
    (placed : shard.nodeRef ∈ known ∨ ∃ cluster, shard.nodeRef = sharedNodeName cluster) :
    protocol.Keeps (ReadCluster configs r known) Stopped (ensureReshardShard r shard) := by
  refine (readCluster_keeps_fetchShard _).bind fun existing p holds => ?_
  refine ensureOwned_obeys holds.clean (fun _ => ?_) fun _ => holds
  exact ⟨⟨hidden, unclaimed, r, holds.clean.held, rfl, placed.imp_left fun member => holds.owned member⟩,
    fun _ _ => ⟨holds.clean, fun _ => holds⟩⟩

theorem ensureAll_keeps {β : Type} {ensure : β → Ctl Unit} {items : List β}
    (each : ∀ b ∈ items, protocol.Keeps I Stopped (ensure b)) :
    protocol.Keeps I Stopped (ensureAll ensure items) := by
  induction items with
  | nil => exact keeps_ret ()
  | cons b rest ih =>
    exact (each b List.mem_cons_self).bind fun _ => ih fun c later => each c (List.mem_cons_of_mem b later)

theorem validateColocation_keeps (colocateWith external : String) :
    protocol.Keeps (ReadCluster configs r known) Stopped (validateColocation r colocateWith external) := by
  refine (readCluster_keeps_fetchCluster colocateWith).bind fun host => ?_
  cases host with
  | none => exact fun p holds => holds.clean.condition _ _ _ _
  | some host =>
    refine (fetchNode_quiet external).keeps.bind fun node => ?_
    cases node with
    | none => exact fun p holds => holds.clean.condition _ _ _ _
    | some node =>
      dsimp only
      split
      · exact fun p holds => holds.clean.condition _ _ _ _
      · exact keeps_ret ()

end Provisioning

theorem nodeFor_name {node : Node} (built : nodeFor name = .ok node) : node.name = name := by
  unfold nodeFor at built
  split at built
  · cases built
  · cases built
    rfl

theorem mapM_nodeFor_names {nodes : List Node} (built : names.mapM nodeFor = .ok nodes) :
    nodes.map (·.name) = names := by
  have related := Checked.mapM_forall₂.mp built
  clear built
  induction related with
  | nil => rfl
  | cons first _ ih => rw [List.map_cons, nodeFor_name first, ih]

theorem desiredPlacement_cases {placement : Placement}
    (built : desiredPlacement cluster names = .ok placement) :
    ((placementOf cluster).1 ≠ .shared ∧ placement.assignment = id ∧ placement.owned.map (·.name) = names) ∨
      (placementOf cluster).1 = .shared ∧ ∃ host, ∀ name, placement.assignment name = sharedNodeName host := by
  unfold desiredPlacement at built
  split at built
  · rename_i colocateWith shared
    refine .inr ⟨by rw [shared], ?_⟩
    split at built
    · obtain ⟨_, -, built⟩ := Checked.bind_ok built
      cases built
      exact ⟨cluster.name, fun _ => rfl⟩
    · cases built
      exact ⟨colocateWith, fun _ => rfl⟩
  · rename_i dedicated
    refine .inl ⟨fun shared => dedicated (placementOf cluster).2 (Prod.ext shared rfl), ?_⟩
    obtain ⟨_, nodes, built⟩ := Checked.bind_ok built
    cases built
    exact ⟨rfl, mapM_nodeFor_names nodes⟩

theorem createTargets_obeys {placement : Placement} (holds : ReadCluster configs r [] p)
    (phase : r.obj.status.phase = .provisioningTargets)
    (built : desiredPlacement cluster (targetNames cluster.name r.obj.spec) = .ok placement) :
    protocol.Obeys (createTargets r cluster placement) p (fun q _ => ReadCluster configs r [] q) Stopped := by
  have colocated : protocol.Keeps (ReadCluster configs r []) Stopped
      (if placement.external ≠ "" then validateColocation r (placementOf cluster).2 placement.external
        else .ret ()) := by
    split
    · exact validateColocation_keeps _ _
    · exact keeps_ret ()
  refine (colocated p holds).bind fun q _ holds => ?_
  -- the shards once the nodes are known
  have shards : ∀ known, (∀ name ∈ targetNames cluster.name r.obj.spec, placement.assignment name ∈ known ∨
      ∃ host, placement.assignment name = sharedNodeName host) → protocol.Keeps (ReadCluster configs r known) Stopped
      (ensureAll (ensureReshardShard r) (r.obj.spec.targetRanges.map (targetShardFor cluster placement))) := by
    intro known placed
    refine ensureAll_keeps fun shard member => ?_
    obtain ⟨tr, target, rfl⟩ := List.mem_map.mp member
    exact ensureReshardShard_keeps rfl rfl (placed _ (List.mem_map_of_mem target))
  rcases desiredPlacement_cases built with ⟨dedicated, own, names⟩ | ⟨shared, host, place⟩
  · rw [if_pos dedicated]
    have named : ∀ node ∈ placement.owned, TargetName r.obj node.name := fun node member =>
      ⟨cluster.name, names ▸ List.mem_map_of_mem member⟩
    refine (ensureReshardNodes_obeys holds phase named).bind fun q _ holds => ?_
    refine (shards _ (fun name target => .inl ?_) q holds).mono
      (fun q _ holds => ⟨holds.clean, holds.read, List.nil_subset _⟩) fun _ _ stopped => stopped
    rw [own, names, List.append_nil]
    exact target
  · rw [if_neg (not_not.mpr shared)]
    exact obeys_bind.mpr (shards [] (fun name _ => .inr ⟨host, place name⟩) q holds)

theorem reconcileProvisioningTargets_obeys (clean : Clean p r configs)
    (phase : r.obj.status.phase = .provisioningTargets) :
    protocol.Obeys (reconcileProvisioningTargets r) p Settled Stopped := by
  have malformed : ∀ q, Malformed q r.obj := fun _ => .inr (.inl phase)
  refine obeys_bind.mpr (fetchCluster_obeys clean.held (fun cluster named => ?_) (clean.condition _ _ _ _) trivial)
  have clean := clean.readCluster cluster
  have fails : ∀ kind reason message, Settled _ (fail r kind reason message) :=
    clean.fail (.inr (malformed _))
  dsimp only
  split
  · exact fails _ _ _
  · split
    · trivial
    · split
      · exact fails _ _ _
      · split
        · exact fails _ _ _
        · rename_i built
          refine (createTargets_obeys ⟨clean, ⟨cluster, rfl, named⟩, List.nil_subset _⟩ phase
            built).bind ?_
          rintro q _ ⟨clean, ⟨c, read, own⟩, -⟩
          refine clean.settled ?_
          rw [named, ← own]
          exact .provisioned _ phase read own

/-! ## Seeding and catching up -/

theorem resolveSource_obeys {Q : Pass → Copy Shard → Prop} (clean : Clean p r configs)
    (resolved : ∀ source, source.obj.name = r.obj.spec.sourceShard → sourceLost r.obj source.obj = none →
      Q { p with shards := source :: p.shards } source) :
    protocol.Obeys (resolveSource r) p Q Stopped := by
  refine obeys_bind.mpr (fetchShard_obeys (fun source named => ?_) ((clean.missShard _).hold _ _) trivial)
  dsimp only
  cases lost : sourceLost r.obj source.obj with
  | some why =>
    have tripped : Tripped { p with shards := source :: p.shards } r.obj :=
      .inr (.inl ⟨source, List.mem_cons_self, named, by simp [lost]⟩)
    exact (clean.readShard source).fail (.inl tripped) _ _ _
  | none => exact resolved source named lost

theorem target_at {rest : List String} (remaining : names.drop i = name :: rest) :
    names[i]? = some name ∧ names.drop (i + 1) = rest := by
  constructor
  · rw [← List.head?_drop, remaining]
    rfl
  · rw [← List.tail_drop, remaining]
    rfl

theorem tripped_of_foreign {target : Copy Shard} {why : String × String}
    (own : r.obj.status.targetShards[i]? = some target.obj.name)
    (foreign : foreignTarget r.obj target.obj i = some why) :
    Tripped { p with shards := target :: p.shards } r.obj :=
  .inr (.inr (.inl ⟨target, List.mem_cons_self, i, own, by simp [foreign]⟩))

theorem checkTargets_keeps (remaining : r.obj.status.targetShards.drop i = names) :
    protocol.Keeps (Clean · r configs) Stopped (checkTargets r i names) := by
  induction names generalizing i with
  | nil => exact keeps_ret ()
  | cons name rest ih =>
    intro p clean
    have ⟨here, later⟩ := target_at remaining
    refine obeys_bind.mpr (fetchShard_obeys (fun target named => ?_) ((clean.missShard _).hold _ _) trivial)
    dsimp only
    cases foreign : foreignTarget r.obj target.obj i with
    | some why => exact (clean.readShard target).fail (.inl (tripped_of_foreign (named ▸ here) foreign)) _ _ _
    | none => exact ih later _ (clean.readShard target)

theorem advanceNothingToSeed_obeys (clean : Clean p r configs)
    (advances : ∀ q, Clean q r configs → ∀ conditions, Move q r.obj { r.obj.status with
      phase := if mode = .seeding then .catchingUp else .readyToCutover, conditions }) :
    protocol.Obeys (advanceNothingToSeed r mode) p Settled Stopped := by
  refine (checkTargets_keeps rfl p clean).bind fun q _ clean => ?_
  exact clean.settled (advances q clean _)

theorem workflowRefused_keeps {host id : String} {e : RpcError} :
    protocol.Keeps (fun p => Clean p r configs ∧ (e.code = .invalidArgument → Tripped p r.obj)) Stopped
      (workflowRefused r host id e) := by
  intro p holds
  unfold workflowRefused
  cases code : e.code with
  | invalidArgument => exact holds.1.fail (.inl (holds.2 code)) _ _ _
  | unimplemented | other => exact holds.1.hold _ _
  | failedPrecondition =>
    refine obeys_bind.mpr ⟨trivial, fun answer _ => ?_⟩
    cases answer <;> exact holds.1.hold _ _

theorem streamingAck_keeps (id : String) (status : WorkflowStatus) :
    protocol.Keeps (Clean · r configs) Stopped (streamingAck r id status) := by
  intro p clean
  unfold streamingAck
  split
  · exact clean
  · exact clean.hold _ _
  · exact clean

theorem startTarget_keeps (seed : SeedInputs) (i : Nat) (target : Shard) (pod : Pod) (range : KeyRange) :
    protocol.Keeps (Clean · r configs) Stopped (startTarget r seed i target pod range) := by
  refine (agentClient_quiet pod.podIP).keeps.bind fun _ p clean => ?_
  refine obeys_bind.mpr ⟨trivial, fun answer _ => ?_⟩
  cases answer with
  | error e =>
    refine (workflowRefused_keeps _ ⟨clean.rejects e [.invalidArgument], fun permanent => ?_⟩).bind fun _ _ holds => holds.1
    exact tripped_of_rejects (by simp [permanent])
  | ok =>
    refine ((workflowStatus_quiet _ _).keeps.bind fun status => ?_) p clean
    cases status with
    | error e => exact fun p clean => clean.hold _ _
    | ok status =>
      refine (stillPrimary_quiet target pod).keeps.bind fun still => ?_
      cases still with
      | false => exact fun p clean => clean.hold _ _
      | true => exact streamingAck_keeps _ _

theorem mem_of_not_foreign {target : Shard} (own : foreignTarget r.obj target i = none) :
    target.keyRange ∈ r.obj.spec.targetRanges := by
  unfold foreignTarget at own
  split at own
  · cases own
  · rename_i fit
    simp only [not_or, not_not] at fit
    exact List.mem_of_getElem? fit.2.2.1.symm

theorem seedTarget_keeps (seed : SeedInputs)
    (here : r.obj.status.targetShards[i]? = some name) :
    protocol.Keeps (Clean · r configs) Stopped (seedTarget r seed i name) := by
  intro p clean
  refine obeys_bind.mpr (fetchShard_obeys (fun target named => ?_) ((clean.missShard _).hold _ _) trivial)
  have clean := clean.readShard target
  dsimp only
  cases foreign : foreignTarget r.obj target.obj i with
  | some why => exact clean.fail (.inl (tripped_of_foreign (named ▸ here) foreign)) _ _ _
  | none =>
    dsimp only
    split
    · exact clean.hold _ _
    · refine ((verifiedPrimary_quiet target.obj).keeps.bind fun pod => ?_) _ clean
      cases pod with
      | none => exact fun p clean => clean.hold _ _
      | some pod =>
        dsimp only
        cases parsed : toRange target.obj.keyRange with
        | error e =>
          have malformed : ∀ q, Malformed q r.obj := fun _ =>
            .inr (.inr (.inr (.inr (.inr (.inr ⟨_, mem_of_not_foreign foreign, e, parsed⟩)))))
          exact fun p clean => clean.fail (.inr (malformed p)) _ _ _
        | ok range => exact startTarget_keeps seed i target.obj pod range

theorem seedTargets_keeps (seed : SeedInputs)
    (remaining : r.obj.status.targetShards.drop i = names) :
    protocol.Keeps (Clean · r configs) Stopped (seedTargets r seed i names) := by
  induction names generalizing i with
  | nil => exact keeps_ret []
  | cons name rest ih =>
    have ⟨here, later⟩ := target_at remaining
    refine (seedTarget_keeps seed here).bind fun streaming => ?_
    cases streaming with
    | none => exact ih later
    | some applied => exact (ih later).bind fun others => keeps_ret _

theorem measureLag_settled {writeLsn : Nat} {applied : List (Option Nat)} (clean : Clean p r configs)
    (advances : ∀ conditions, Move p r.obj { r.obj.status with phase := .readyToCutover, conditions }) :
    Settled p (measureLag r writeLsn applied) := by
  unfold measureLag
  split
  · exact clean.hold _ _
  · split
    · exact clean.hold _ _
    · exact clean.settled (advances _)

theorem sourceStatus_quiet (pod : Pod) : Quiet (sourceStatus pod) := by
  intro p
  refine obeys_bind.mpr ⟨trivial, fun connected _ => ?_⟩
  cases connected with
  | false => exact rfl
  | true =>
    refine obeys_bind.mpr ⟨trivial, fun answer _ => ?_⟩
    rcases answer with e | _ | status <;> exact rfl

theorem gateCatchup_obeys {pod : Pod} {applied : List (Option Nat)} (clean : Clean p r configs)
    (advances : ∀ conditions, Move p r.obj { r.obj.status with phase := .readyToCutover, conditions }) :
    protocol.Obeys (gateCatchup r source pod applied) p Settled Stopped := by
  refine (sourceStatus_quiet pod).andThen fun status => ?_
  cases status with
  | error e => exact clean.hold _ _
  | ok status =>
    dsimp only
    split
    · exact clean.hold _ _
    · refine (stillPrimary_quiet _ _).andThen fun still => ?_
      cases still with
      | false => exact clean.hold _ _
      | true =>
        dsimp only
        split
        · exact clean.hold _ _
        · exact measureLag_settled clean advances

def SeedPassMode.phase : SeedPassMode → ReshardPhase
  | .seeding => .seeding
  | .catchingUp => .catchingUp

theorem move_advance (phase : r.obj.status.phase = mode.phase)
    (pinned : r.obj.status.seedTablesPinned) (fits : publicationFits r.obj) {items : List TableConfig}
    (read : p.configs = some items)
    (undrifted : tablesDiffer r.obj.status.seedTables (shardedTables items r.obj.spec.clusterRef) = none)
    (conditions : List Condition) :
    Move p r.obj { r.obj.status with
      phase := if mode = .seeding then .catchingUp else .readyToCutover, conditions } := by
  cases mode with
  | seeding => exact .streaming _ phase pinned fits
  | catchingUp => exact .caughtUp _ phase pinned read undrifted

theorem runWorkflows_obeys {items : List TableConfig}
    (clean : Clean p r (some items)) (phase : r.obj.status.phase = mode.phase)
    (pinned : r.obj.status.seedTablesPinned) (fits : publicationFits r.obj)
    (undrifted : tablesDiffer r.obj.status.seedTables (shardedTables items r.obj.spec.clusterRef) = none) :
    protocol.Obeys (runWorkflows r mode cluster source) p Settled Stopped := by
  refine (primaryEndpoint_quiet _).andThen fun endpoint => ?_
  cases endpoint with
  | none => exact clean.hold _ _
  | some endpoint =>
    obtain ⟨pod, node⟩ := endpoint
    dsimp only
    split
    · exact clean.hold _ _
    refine (agentClient_quiet _).andThen fun _ => ?_
    refine obeys_bind.mpr ⟨trivial, fun answer _ => ?_⟩
    cases answer with
    | error e =>
      have clean := clean.rejects e [.invalidArgument]
      obtain ⟨code, message⟩ := e
      cases code with
      | invalidArgument => exact clean.fail (.inl (tripped_of_rejects (by simp))) _ _ _
      | _ => exact clean.hold _ _
    | ok =>
      refine (seedTargets_keeps ⟨cluster, source, pod⟩ rfl p clean).bind ?_
      intro p applied clean
      split
      · exact clean.hold _ _
      · split
        · rename_i seeding
          subst seeding
          exact clean.settled (.streaming _ phase pinned fits)
        · rename_i later
          refine gateCatchup_obeys clean fun conditions => ?_
          simpa only [if_neg later] using
            move_advance phase pinned fits clean.tables undrifted conditions

theorem seedSchema_obeys (clean : Clean p r configs)
    (named : cluster.name = r.obj.spec.clusterRef) (phase : r.obj.status.phase = mode.phase) (fits : publicationFits r.obj) :
    protocol.Obeys (seedSchema r mode cluster source) p Settled Stopped := by
  refine obeys_bind.mpr ⟨⟨r, clean.held⟩, fun answer _ => ?_⟩
  cases answer with
  | notFound | failed => trivial
  | found items =>
    have clean := clean.readConfigs items
    change protocol.Obeys (if _ then _ else _) { p with configs := some items } _ _
    split
    · rename_i unpinned
      have unpinned : r.obj.status.seedTablesPinned = false := by simpa using unpinned
      split
      · rename_i later
        have catching : r.obj.status.phase = .catchingUp := by
          cases mode with
          | seeding => exact absurd rfl later
          | catchingUp => exact phase
        exact clean.fail (.inr (.inr (.inr (.inr (.inl ⟨catching, by simp [unpinned]⟩))))) _ _ _
      · rename_i seeding
        rw [not_not.mp seeding] at phase
        exact clean.settled (.pinned _ _ phase unpinned)
    · rename_i pinned
      have pinned : r.obj.status.seedTablesPinned = true := by simpa using pinned
      split
      · exact clean.hold _ _
      · rename_i undrifted
        rw [named] at undrifted
        split
        · exact advanceNothingToSeed_obeys clean fun q clean =>
            move_advance phase pinned fits clean.tables undrifted
        · exact runWorkflows_obeys clean phase pinned fits undrifted

theorem runSeedPass_obeys (clean : Clean p r configs) (phase : r.obj.status.phase = mode.phase) :
    protocol.Obeys (runSeedPass r mode) p Settled Stopped := by
  refine obeys_bind.mpr (fetchCluster_obeys clean.held (fun cluster named => ?_) (clean.hold _ _) trivial)
  have clean := clean.readCluster cluster
  dsimp only
  refine obeys_ite (fun replaced => clean.fail (.inl (.inl ⟨cluster, rfl, replaced⟩)) _ _ _) fun _ => ?_
  refine obeys_ite (fun long => clean.fail (.inr (.inr (.inr (.inl long)))) _ _ _) fun fits => ?_
  refine obeys_bind.mpr (resolveSource_obeys clean fun source _ _ => ?_)
  have clean := clean.readShard source
  refine obeys_ite (fun mismatch => ?_) fun _ => seedSchema_obeys clean named phase (not_not.mp fits)
  exact clean.fail (.inr (.inr (.inr (.inr (.inr (.inl ⟨cluster, rfl, mismatch⟩)))))) _ _ _

end PgShard.Operator
