import PgShard.Operator.Conduct

/-! The cutover, the deletion path and with them the whole reconcile keep to the
protocol. -/

namespace PgShard.Operator

open Versioned Effects Effects.Monitor

variable {shard : Shard} {names : List String}

variable {p q : Pass} {r : Copy Reshard} {source : Copy Shard} {α : Type}

/-- A later moment of the same pass: it still holds `r`, and what it read before. -/
structure Later (p q : Pass) (r : Copy Reshard) : Prop where
  held : q.held = some r
  name : q.name = p.name
  free : q.stuck = false
  cluster : q.cluster = p.cluster
  rejected : q.rejected = p.rejected
  shards : p.shards ⊆ q.shards
  unread : p.unread ⊆ q.unread
  routing : q.routing = p.routing

theorem Later.refl (held : p.held = some r) (free : p.stuck = false) : Later p p r :=
  ⟨held, rfl, free, rfl, rfl, List.Subset.refl _, List.Subset.refl _, rfl⟩

theorem Later.cause {r' : Copy Reshard} {fenced : Bool} (later : Later p q r')
    (cause : Tripped p r.obj ∨ Malformed p r.obj) :
    Tripped q { r.obj with status := { r.obj.status with sourceFenced := fenced } } ∨
      Malformed q { r.obj with status := { r.obj.status with sourceFenced := fenced } } := by
  rcases cause with tripped | malformed
  · refine .inl ?_
    rcases tripped with ⟨c, read, replaced⟩ | ⟨s, member, lost⟩ | ⟨s, member, foreign⟩ | rejected
    · exact .inl ⟨c, later.cluster.trans read, replaced⟩
    · exact .inr (.inl ⟨s, later.shards member, lost⟩)
    · exact .inr (.inr (.inl ⟨s, later.shards member, foreign⟩))
    · exact .inr (.inr (.inr (later.rejected.trans rejected)))
  · refine .inr ?_
    rcases malformed with early | early | long | unpinned | ⟨c, read, mismatch⟩ | mismatch | invalid
    · exact .inl early
    · exact .inr (.inl early)
    · refine .inr (.inr (.inl ?_))
      unfold publicationFits at long ⊢
      exact long
    · exact .inr (.inr (.inr (.inl unpinned)))
    · exact .inr (.inr (.inr (.inr (.inl ⟨c, later.cluster.trans read, mismatch⟩))))
    · exact .inr (.inr (.inr (.inr (.inr (.inl mismatch)))))
    · exact .inr (.inr (.inr (.inr (.inr (.inr invalid)))))

theorem hold_settled (held : p.held = some r) (free : p.stuck = false) (reason message : String) :
    Settled p (holdCutover r reason message) :=
  settled_of_move held free (.hold _)

/-! ## Giving the source back -/

/-- What `unfenceSource` leaves: the fence lifted, or a claim that is not ours. -/
structure Unfenced (p q : Pass) (r : Copy Reshard) : Prop where
  later : Later p q r
  clock : q.clock = p.clock
  dropped : q.dropped = p.dropped
  settled : q.lifted = true ∨ q.owns = some false

theorem liftFence_obeys (held : p.held = some r) (free : p.stuck = false)
    (named : shard.name = r.obj.spec.sourceShard) (uncommitted : r.obj.status.switchCommitted = false)
    (owns : p.owns = some true) (live : p.liveOpen = true) :
    protocol.Obeys (liftFence r shard) p (fun q _ => Unfenced p q r) Stopped := by
  refine (verifiedPrimary_quiet shard).andThen fun pod => ?_
  cases pod with
  | none => exact hold_settled held free _ _
  | some pod =>
    refine (agentClient_quiet _).andThen fun _ => ?_
    refine obeys_bind.mpr ⟨⟨free, r, held, named, owns, live, uncommitted⟩, fun answer _ => ?_⟩
    cases answer with
    | error e => exact settled_of_move (p := { p with unfenced := true }) held free (.hold _)
    | ok =>
      refine (stillPrimary_quiet shard pod).andThen fun still => ?_
      cases still with
      | false => exact settled_of_move (p := { p with unfenced := true, lifted := true }) held free (.hold _)
      | true => exact ⟨{ Later.refl held free with }, rfl, rfl, .inl rfl⟩

theorem unfenceSource_obeys (held : p.held = some r) (name : p.name = r.obj.name)
    (free : p.stuck = false) (named : shard.name = r.obj.spec.sourceShard)
    (uncommitted : r.obj.status.switchCommitted = false) :
    protocol.Obeys (unfenceSource r shard) p (fun q _ => Unfenced p q r) Stopped := by
  refine obeys_bind.mpr ⟨⟨r, held, named⟩, fun answer _ => ?_⟩
  cases answer with
  | notFound | failed => trivial
  | found live =>
    change protocol.Obeys (if _ then _ else _) { p with owns := some (live.obj.claim == p.name) } _ _
    refine obeys_ite (fun other => ?_) fun own => ?_
    · refine ⟨{ Later.refl held free with }, rfl, rfl, .inr ?_⟩
      simpa [name] using other
    · refine obeys_bind.mpr ⟨name.symm, fun answer _ => ?_⟩
      cases answer with
      | notFound | failed => trivial
      | found liveReshard =>
        refine obeys_ite (fun _ => settled_of_move (p := { p with
          owns := some (live.obj.claim == p.name)
          liveOpen := Pass.sameOpen { p with owns := some (live.obj.claim == p.name) } liveReshard.obj })
          held free (.hold r.obj.status.conditions)) fun same => ?_
        have owns : live.obj.claim = p.name := by simpa [name] using own
        have isOpen : Pass.sameOpen { p with owns := some (live.obj.claim == p.name) } liveReshard.obj = true := by
          rw [not_or, not_not] at same
          simp only [Pass.sameOpen, held, Option.any_some, same.1, beq_self_eq_true, Bool.true_and]
          simpa using same.2
        refine (liftFence_obeys (p := { p with
          owns := some (live.obj.claim == p.name)
          liveOpen := Pass.sameOpen { p with owns := some (live.obj.claim == p.name) } liveReshard.obj })
          held free named uncommitted (by simp [owns]) isOpen).mono (fun q _ unfenced => ?_) fun _ _ h => h
        exact ⟨{ unfenced.later with }, unfenced.clock, unfenced.dropped, unfenced.settled⟩

def Defenced (r settled : Copy Reshard) : Prop :=
  settled.obj = { r.obj with status := { r.obj.status with sourceFenced := false } }

theorem settleFence_obeys (held : p.held = some r) (name : p.name = r.obj.name)
    (free : p.stuck = false) (named : shard.name = r.obj.spec.sourceShard)
    (uncommitted : r.obj.status.switchCommitted = false)
    (ended : r.obj.status.phase = .cuttingOver ∨ r.obj.deleting = true) :
    protocol.Obeys (settleFence r shard) p (fun q settled => Later p q settled ∧ Defenced r settled) Stopped := by
  refine obeys_ite (fun fenced => ?_) fun unfenced => ?_
  · refine (unfenceSource_obeys held name free named uncommitted).bind ?_
    rintro q _ ⟨later, -, -, settled⟩
    refine updateStatus_obeys (settled_of_move later.held later.free (.settled ended uncommitted fun _ => settled))
      (fun version => ?_) fun _ => trivial
    exact ⟨{ later with held := rfl }, rfl⟩
  · have unfenced : r.obj.status.sourceFenced = false := by simpa using unfenced
    exact ⟨.refl held free, by rw [Defenced, ← unfenced]⟩

theorem releaseSourceClaim_obeys (held : p.held = some r) (name : p.name = r.obj.name) (free : p.stuck = false)
    (member : source ∈ p.shards) (named : source.obj.name = r.obj.spec.sourceShard)
    (cause : r.obj.status.switchCommitted = true ∨ r.obj.deleting = true ∨ Tripped p r.obj ∨ Malformed p r.obj)
    (hidden : r.obj.status.switchCommitted = true →
      source.obj.serving = false ∨ r.obj.status.sourceShardUID ≠ source.obj.uid)
    (unowed : r.obj.status.switchCommitted = false →
      r.obj.status.sourceFenced = false ∨ r.obj.status.sourceShardUID ≠ source.obj.uid) :
    protocol.Obeys (releaseSourceClaim r source) p (fun q _ => Later p q r ∧
      Released q r.obj.spec.sourceShard source.obj.serving) Stopped := by
  refine obeys_ite (fun other => ⟨.refl held free, source, member, named, .inr (name.symm ▸ other), rfl⟩) fun own => ?_
  have own : source.obj.claim = p.name := by simpa [name] using own
  refine obeys_bind.mpr (obeys_bind.mpr
    ⟨⟨free, r, held, source, member, rfl, .release named own cause hidden unowed⟩, fun answer _ => ?_⟩)
  cases answer with
  | stored version =>
    exact ⟨{ Later.refl held free with shards := List.subset_cons_self _ _ }, _, List.mem_cons_self, named, .inl rfl, rfl⟩
  | conflict | failed => trivial

theorem failCutover_obeys {found : Option (Copy Shard)} {reason message : String} (held : p.held = some r)
    (name : p.name = r.obj.name) (free : p.stuck = false) (alive : r.obj.deleting = false)
    (phase : r.obj.status.phase = .cuttingOver)
    (read : ∀ source, found = some source → source ∈ p.shards ∧ source.obj.name = r.obj.spec.sourceShard)
    (cause : Tripped p r.obj ∨ Malformed p r.obj) :
    protocol.Obeys (failCutover r found reason message) p Settled Stopped := by
  have fails : Settled p (fail r .cutOver reason message) := fail_settled held free alive cause _ _ _
  cases found with
  | none => exact fails
  | some source =>
    obtain ⟨member, named⟩ := read source rfl
    refine obeys_ite (fun _ => fails) fun open_ => ?_
    have uncommitted : r.obj.status.switchCommitted = false := by simpa using open_
    refine (settleFence_obeys held name free named uncommitted (.inl phase)).bind ?_
    rintro q settled ⟨later, defenced⟩
    have name : q.name = settled.obj.name := by rw [later.name, name, defenced]
    have named : source.obj.name = settled.obj.spec.sourceShard := by rw [named, defenced]
    have uncommitted : settled.obj.status.switchCommitted = false := by rw [defenced, uncommitted]
    have alive : settled.obj.deleting = false := by rw [defenced, alive]
    have stays : ∀ t, Later p t settled → Tripped t settled.obj ∨ Malformed t settled.obj :=
      fun t later => defenced ▸ later.cause cause
    refine (releaseSourceClaim_obeys later.held name later.free (later.shards member) named
      (.inr (.inr (stays q later))) (fun committed => absurd (uncommitted.symm.trans committed) nofun)
      fun _ => .inl (by rw [defenced])).bind fun end_ _ ⟨last, _⟩ => ?_
    refine fail_settled last.held last.free alive (stays end_ ?_) _ _ _
    exact ⟨last.held, last.name.trans later.name, last.free, last.cluster.trans later.cluster,
      last.rejected.trans later.rejected, fun _ member => last.shards (later.shards member),
      fun _ member => last.unread (later.unread member), last.routing.trans later.routing⟩

/-! ## Claiming and gating -/

theorem Pass.wroteReshard_alive {version : Nat} (alive : r.obj.deleting = false) :
    p.wroteReshard r (.stored version) = { p with held := some { r with version } } := by
  simp [Pass.wroteReshard, alive]

theorem claimSource_obeys (clean : Clean p r none) (member : source ∈ p.shards)
    (named : source.obj.name = r.obj.spec.sourceShard) (fit : sourceLost r.obj source.obj = none)
    (phase : r.obj.status.phase = .readyToCutover) :
    protocol.Obeys (claimSource r source) p (fun q _ => q.held = some r ∧ q.stuck = false ∧
      ∃ s ∈ q.shards, s.obj.name = r.obj.spec.sourceShard ∧ s.obj.claim = q.name) Stopped := by
  refine obeys_ite (fun own => ⟨clean.held, clean.free, source, member, named, own.trans clean.name.symm⟩)
    fun other => obeys_ite (fun _ => clean.holdCutover _ _) fun free => obeys_ite (fun _ => ?_) fun _ => ?_
  · refine obeys_bind.mpr (obeys_bind.mpr ⟨⟨clean.free, r, _, clean.held, rfl, fun kept dropped => ?_⟩, fun answer _ => ?_⟩)
    · exact absurd (List.mem_append_left _ kept) dropped
    cases answer with
    | stored version =>
      have pinned : p.wroteReshard { r with obj := r.obj.addFinalizer cutoverClaimFinalizer } (.stored version) = _ :=
        Pass.wroteReshard_alive clean.alive
      change Settled (p.wroteReshard _ _) _
      rw [pinned]
      exact settled_of_move (p := { p with held := _ }) rfl clean.free (.hold r.obj.status.conditions)
    | conflict | failed => trivial
  · have edit : ShardEdit p r.obj source.obj { source.obj with claim := r.obj.name } := by
      rw [← clean.name]
      exact .claim named phase clean.alive fit (not_not.mp free)
    refine obeys_bind.mpr ⟨⟨clean.free, r, clean.held, source, member, rfl, edit⟩, fun answer _ => ?_⟩
    cases answer with
    | stored version => exact ⟨clean.held, clean.free, _, List.mem_cons_self, named, clean.name.symm⟩
    | conflict =>
      exact settled_of_move (p := p.wroteShard { source with obj := { source.obj with claim := r.obj.name } }
        .conflict) clean.held clean.free (.hold r.obj.status.conditions)
    | failed => trivial

theorem reconcileReadyToCutover_obeys (clean : Clean p r none)
    (phase : r.obj.status.phase = .readyToCutover) :
    protocol.Obeys (reconcileReadyToCutover r) p Settled Stopped := by
  refine obeys_bind.mpr (resolveSource_obeys clean fun source named fit => ?_)
  refine (claimSource_obeys (clean.readShard source) List.mem_cons_self named fit phase).bind ?_
  rintro q _ ⟨held, free, s, member, named, claimed⟩
  refine obeys_bind.mpr (timeNow_obeys fun t => ?_)
  exact settled_of_move (p := { q with clock := some t, waited := some t }) (r := r) held free
    (.gate _ phase clean.alive rfl member named claimed)

/-! ## Quiesce, freeze, barrier -/

/-- A clean pass that holds a copy of the reshard's source. -/
structure AtSource (p : Pass) (r : Copy Reshard) (source : Copy Shard) : Prop where
  clean : Clean p r none
  member : source ∈ p.shards
  named : source.obj.name = r.obj.spec.sourceShard
  phase : r.obj.status.phase = .cuttingOver
  uncommitted : r.obj.status.switchCommitted = false

namespace AtSource

section

variable (at_ : AtSource p r source)
include at_

theorem readClock (t : Nat) : AtSource { p with clock := some t, waited := some t } r source :=
  ⟨at_.clean.readClock t, at_.member, at_.named, at_.phase, at_.uncommitted⟩

theorem readShard (s : Copy Shard) :
    AtSource { p with shards := s :: p.shards } r source :=
  ⟨at_.clean.readShard s, List.mem_cons_of_mem s at_.member, at_.named, at_.phase, at_.uncommitted⟩

theorem readRouting (routing : RoutingSpec) :
    AtSource { p with routing := some routing, waited := none } r source :=
  ⟨at_.clean.readRouting routing, at_.member, at_.named, at_.phase, at_.uncommitted⟩

theorem rejects (e : RpcError) (codes : List RpcCode) :
    AtSource (p.rejects e codes) r source := by
  refine ⟨at_.clean.rejects e codes, ?_, at_.named, at_.phase, at_.uncommitted⟩
  unfold Pass.rejects
  split <;> exact at_.member

theorem fail (cause : Tripped p r.obj ∨ Malformed p r.obj) (reason message : String) :
    protocol.Obeys (failCutover r (some source) reason message) p Settled Stopped := by
  refine failCutover_obeys at_.clean.held at_.clean.name at_.clean.free at_.clean.alive at_.phase ?_ cause
  rintro _ ⟨⟩
  exact ⟨at_.member, at_.named⟩

end

end AtSource

theorem deadlineExpired_obeys {Q : Pass → Bool → Prop} (at_ : AtSource p r source)
    (passed : ∀ t deadline, r.obj.status.cutoverGateDeadline = some deadline → deadline < t →
      Q { p with clock := some t, waited := some t } true)
    (inTime : ∀ clock waited, AtSource { p with clock, waited } r source → Pass.inTime { p with clock, waited } r.obj →
      Q { p with clock, waited } false) :
    protocol.Obeys (deadlineExpired r) p Q Stopped := by
  unfold deadlineExpired
  cases gated : r.obj.status.cutoverGateDeadline with
  | none => exact inTime p.clock p.waited at_ (by simp [Pass.inTime, gated])
  | some deadline =>
    refine obeys_bind.mpr (timeNow_obeys fun t => ?_)
    by_cases late : deadline < t
    · simpa [late] using passed t deadline gated late
    · have clock : Pass.inTime { p with clock := some t, waited := some t } r.obj := by
        intro d same
        cases gated.symm.trans same
        exact ⟨t, rfl, not_lt.mp late⟩
      simpa [late] using inTime _ _ (at_.readClock t) clock

theorem rollBackCutover_obeys {message : String} {t deadline : Nat} (at_ : AtSource p r source)
    (read : p.clock = some t) (gated : r.obj.status.cutoverGateDeadline = some deadline)
    (expired : deadline < t) :
    protocol.Obeys (rollBackCutover r source.obj message) p Settled Stopped := by
  -- what the un-fence leaves is all the rollback needs
  have rolls : ∀ q : Pass, q.held = some r → q.stuck = false → q.clock = some t → q.dropped = false →
      q.settled r.obj → ∀ conditions, Settled q ⟨r.version, { r.obj with status := { r.obj.status with
        sourceFenced := if r.obj.status.switchCommitted then r.obj.status.sourceFenced else false
        cutoverGateDeadline := none
        cutoverGateObservedAt := none
        cutoverFrozenLSN := 0
        cutoverAttempt := r.obj.status.cutoverAttempt + 1
        phase := .catchingUp
        conditions } }⟩ := by
    intro q held free clock kept settled conditions
    rw [if_neg (by simp [at_.uncommitted])]
    exact settled_of_move held free
      (.rolledBack conditions at_.phase at_.uncommitted clock gated expired settled kept)
  refine obeys_bind.mpr (obeys_ite (fun _ => ?_) fun unowed => ?_)
  · refine (unfenceSource_obeys at_.clean.held at_.clean.name at_.clean.free at_.named at_.uncommitted).mono ?_
      fun _ _ h => h
    intro q _ unfenced
    exact rolls q unfenced.later.held unfenced.later.free (unfenced.clock.trans read)
      (unfenced.dropped.trans at_.clean.claiming) (fun _ => unfenced.settled) _
  · refine rolls p at_.clean.held at_.clean.free read at_.clean.claiming (fun fenced => ?_) _
    exact absurd ⟨fenced, by simp [at_.uncommitted]⟩ unowed

theorem awaitQuiesce_obeys {routing : RoutingSpec} {Q : Pass → Unit → Prop} (at_ : AtSource p r source)
    (read : p.routing = some routing)
    (quiet : ∀ t, AtSource { p with clock := some t, waited := some t } r source →
      gatePublished routing r.obj.name = true → Quiesced { p with clock := some t, waited := some t } r.obj →
      Q { p with clock := some t, waited := some t } ()) :
    protocol.Obeys (awaitQuiesce r routing) p Q Stopped := by
  refine obeys_ite (fun _ => at_.clean.holdCutover _ _) fun published => ?_
  have published := not_not.mp published
  cases observed : r.obj.status.cutoverGateObservedAt with
  | none =>
    refine obeys_bind.mpr (timeNow_obeys fun t => ?_)
    exact settled_of_move (p := { p with clock := some t, waited := some t }) (r := r) at_.clean.held at_.clean.free
      (.observed _ at_.phase at_.uncommitted rfl ⟨routing, read, published⟩)
  | some observedAt =>
    refine obeys_bind.mpr (timeNow_obeys fun t => ?_)
    refine obeys_ite (fun _ => (at_.readClock t).clean.holdCutover _ _) fun waited => ?_
    exact quiet t (at_.readClock t) published
      ⟨routing, observedAt, t, read, published, observed, rfl, not_lt.mp waited⟩

theorem invalid_of_journalSuccessors {ranges : List KeyBounds} {e : String}
    (invalid : journalSuccessors names ranges = .error e) : ∃ tr ∈ ranges, ∃ e, toRange tr = .error e := by
  fun_induction journalSuccessors names ranges generalizing e with
  | case1 name names tr ranges ih =>
    cases parsed : toRange tr with
    | error e => exact ⟨tr, List.mem_cons_self, e, parsed⟩
    | ok range =>
      cases rest : journalSuccessors names ranges with
      | error e =>
        obtain ⟨bad, member, why⟩ := ih rest
        exact ⟨bad, List.mem_cons_of_mem tr member, why⟩
      | ok others => simp [parsed, rest, bind, Except.bind] at invalid
  | case2 => cases invalid

theorem emitBarrier_obeys {pod : Pod} (at_ : AtSource p r source) (fenced : p.fenced = true)
    (freezing : Freezing r.obj source.obj.name) :
    protocol.Obeys (emitBarrier r source pod) p Settled Stopped := by
  unfold emitBarrier
  cases successors : journalSuccessors r.obj.status.targetShards r.obj.spec.targetRanges with
  | error e =>
    have malformed : Malformed p r.obj :=
      .inr (.inr (.inr (.inr (.inr (.inr (invalid_of_journalSuccessors successors))))))
    exact at_.fail (.inr malformed) _ _
  | ok successors =>
    have clean := at_.clean
    refine obeys_bind.mpr ⟨⟨clean.free, r, clean.held, fenced, clean.fencing, clean.claiming, freezing, rfl⟩,
      fun answer _ => ?_⟩
    cases answer with
    | error e =>
      have at_ := at_.rejects e [.invalidArgument, .failedPrecondition]
      obtain ⟨code, message⟩ := e
      cases code with
      | invalidArgument | failedPrecondition => exact at_.fail (.inl (tripped_of_rejects (by simp))) _ _
      | unimplemented | other => exact at_.clean.holdCutover _ _
    | ok lsn =>
      let emitted : Pass := { p with barrier := some lsn }
      have clean : Clean emitted r none := { clean with }
      change protocol.Obeys (if lsn = 0 then _ else _) emitted _ _
      refine obeys_ite (fun _ => clean.holdCutover _ _) fun position => ?_
      refine (stillPrimary_quiet _ _).andThen fun still => ?_
      cases still with
      | false => exact clean.holdCutover _ _
      | true =>
        exact clean.settled
          (.frozen _ at_.phase at_.uncommitted rfl position ⟨clean.fencing, clean.claiming⟩)

theorem freezeSource_obeys (at_ : AtSource p r source) (owed : r.obj.status.sourceFenced = true)
    (unfrozen : r.obj.status.cutoverFrozenLSN = 0) (quiesced : Quiesced p r.obj) :
    protocol.Obeys (freezeSource r source) p Settled Stopped := by
  have clean := at_.clean
  have freezing : Freezing r.obj source.obj.name :=
    ⟨at_.named, at_.phase, clean.alive, at_.uncommitted, owed, unfrozen⟩
  refine (verifiedPrimary_quiet _).andThen fun pod => ?_
  cases pod with
  | none => exact clean.holdCutover _ _
  | some pod =>
    refine (agentClient_quiet _).andThen fun _ => ?_
    refine obeys_bind.mpr ⟨⟨clean.free, r, clean.held, clean.fencing, clean.claiming, freezing, quiesced⟩,
      fun answer _ => ?_⟩
    cases answer with
    | error e =>
      have at_ := at_.rejects e [.invalidArgument]
      obtain ⟨code, message⟩ := e
      cases code with
      | invalidArgument => exact at_.fail (.inl (tripped_of_rejects (by simp))) _ _
      | failedPrecondition | unimplemented | other => exact at_.clean.holdCutover _ _
    | ok =>
      refine emitBarrier_obeys (p := { p with fenced := true }) ⟨?_, at_.member, at_.named, at_.phase,
        at_.uncommitted⟩ rfl freezing
      exact { clean with }

theorem targetAcknowledged_keeps {I : Pass → Prop} (clean : ∀ q, I q → Clean q r none) (i : Nat) (target : Shard) :
    protocol.Keeps I Stopped (targetAcknowledged r i target) := by
  have holds : ∀ reason message q, I q → Settled q (holdCutover r reason message) :=
    fun _ _ q kept => (clean q kept).holdCutover _ _
  refine (verifiedPrimary_quiet target).keeps.bind fun pod => ?_
  cases pod with
  | none => exact holds _ _
  | some pod =>
    refine (agentClient_quiet _).keeps.bind fun _ => (workflowStatus_quiet _ _).keeps.bind fun status => ?_
    cases status with
    | error e => exact holds _ _
    | ok status =>
      refine (stillPrimary_quiet target pod).keeps.bind fun still => ?_
      cases still with
      | false => exact holds _ _
      | true => exact fun p kept => obeys_ite (fun _ => holds _ _ p kept) fun _ => kept

/-- The pass holds copies of the targets before index `i` that are the reshard's own. -/
def OwnTargets (p : Pass) (r : Copy Reshard) (i : Nat) : Prop :=
  ∀ j name, j < i → r.obj.status.targetShards[j]? = some name →
    ∃ c ∈ p.shards, c.obj.name = name ∧ foreignTarget r.obj c.obj j = none

theorem barrierAcknowledged_obeys {i : Nat}
    (remaining : r.obj.status.targetShards.drop i = names) (at_ : AtSource p r source) (own : OwnTargets p r i) :
    protocol.Obeys (barrierAcknowledged r source i names) p (fun q acknowledged => AtSource q r source ∧
      q.routing = p.routing ∧ (acknowledged = true → OwnTargets q r r.obj.status.targetShards.length)) Stopped := by
  induction names generalizing p i with
  | nil =>
    refine ⟨at_, rfl, fun _ j name _ => own j name ?_⟩
    exact lt_of_lt_of_le ‹_› (List.drop_eq_nil_iff.mp remaining)
  | cons name rest ih =>
    have ⟨here, later⟩ := target_at remaining
    refine obeys_bind.mpr (fetchShard_obeys (fun target named => ?_)
      ((at_.clean.missShard _).holdCutover _ _) trivial)
    have at_ := at_.readShard target
    dsimp only
    cases foreign : foreignTarget r.obj target.obj i with
    | some why =>
      exact obeys_bind.mpr ((at_.fail (.inl (tripped_of_foreign (named ▸ here) foreign)) _ _))
    | none =>
      have own : OwnTargets { p with shards := target :: p.shards } r (i + 1) := by
        intro j other before at_j
        rcases Nat.lt_succ_iff_lt_or_eq.mp before with earlier | rfl
        · obtain ⟨c, member, checked⟩ := own j other earlier at_j
          exact ⟨c, List.mem_cons_of_mem target member, checked⟩
        · rw [here] at at_j
          exact ⟨target, List.mem_cons_self, named.trans (Option.some.inj at_j), foreign⟩
      have kept := targetAcknowledged_keeps (I := (· = { p with shards := target :: p.shards }))
        (fun _ same => same ▸ at_.clean) i target.obj
      refine (kept _ rfl).bind ?_
      rintro _ acknowledged rfl
      cases acknowledged with
      | false => exact ⟨at_, rfl, nofun⟩
      | true => exact ih later at_ own

theorem commitSwitch_obeys {routing : RoutingSpec} (at_ : AtSource p r source)
    (frozen : r.obj.status.cutoverFrozenLSN ≠ 0) (read : p.routing = some routing)
    (published : gatePublished routing r.obj.name = true) :
    protocol.Obeys (commitSwitch r source) p Settled Stopped := by
  refine (barrierAcknowledged_obeys rfl at_ fun _ _ none => absurd none (Nat.not_lt_zero _)).bind fun q acknowledged ⟨at_, same, own⟩ => ?_
  cases acknowledged with
  | false => exact at_.clean.holdCutover _ _
  | true =>
    refine obeys_bind.mpr (deadlineExpired_obeys at_ (fun t deadline gated late => ?_) fun clock waited at_ inTime => ?_)
    · exact rollBackCutover_obeys (at_.readClock t) rfl gated late
    · refine at_.clean.settled (.commit _ at_.phase at_.clean.alive at_.uncommitted frozen inTime
        ⟨at_.clean.fencing, at_.clean.claiming⟩ (fun i name target => own rfl i name ?_ target)
        ⟨routing, same.trans read, published⟩)
      exact (List.getElem?_eq_some_iff.mp target).1

theorem driveCutover_obeys (at_ : AtSource p r source) :
    protocol.Obeys (driveCutover r source) p Settled Stopped := by
  refine obeys_bind.mpr (deadlineExpired_obeys at_ (fun t deadline gated late => ?_) fun clock waited at_ _ => ?_)
  · exact rollBackCutover_obeys (at_.readClock t) rfl gated late
  · refine obeys_bind.mpr (fetchRouting_obeys at_.clean.held (fun routing => ?_) (at_.clean.holdCutover _ _) trivial)
    · have at_ := at_.readRouting routing
      refine obeys_bind.mpr (awaitQuiesce_obeys at_ rfl fun t at_ published quiesced => ?_)
      refine obeys_ite (fun unfrozen => obeys_ite (fun owed => freezeSource_obeys at_ owed unfrozen quiesced) fun _ => ?_)
        fun frozen => commitSwitch_obeys at_ frozen rfl published
      exact settled_of_move (r := r) at_.clean.held at_.clean.free (.oweFence at_.phase at_.uncommitted unfrozen)

/-! ## Completing the switch -/

/-- A pass over a committed reshard; it has nothing left to give up. -/
structure Switching (r : Copy Reshard) (p : Pass) : Prop where
  held : p.held = some r
  name : p.name = r.obj.name
  free : p.stuck = false
  committed : r.obj.status.switchCommitted = true

theorem serveTargets_keeps (own : names ⊆ r.obj.status.targetShards) :
    protocol.Keeps (fun p => Switching r p ∧ source ∈ p.shards) Stopped (serveTargets names) := by
  induction names with
  | nil => exact keeps_ret ()
  | cons name rest ih =>
    rintro p ⟨switching, member⟩
    refine obeys_bind.mpr ⟨trivial, fun answer given => ?_⟩
    cases answer with
    | notFound | failed => trivial
    | found target =>
      have others := ih (List.subset_of_cons_subset own)
      have member : source ∈ target :: p.shards := List.mem_cons_of_mem target member
      refine obeys_bind.mpr (obeys_ite (fun _ => ?_) fun _ => others _
        ⟨{ switching with }, member⟩)
      have target_own : target.obj.name ∈ r.obj.status.targetShards :=
        (show target.obj.name = name from given) ▸ own List.mem_cons_self
      refine obeys_bind.mpr ⟨⟨switching.free, r, switching.held, target, List.mem_cons_self, rfl,
        .serve target_own switching.committed⟩, fun answer _ => ?_⟩
      cases answer with
      | stored version =>
        exact others _ ⟨{ switching with },
          List.mem_cons_of_mem _ member⟩
      | conflict | failed => trivial

theorem hideSource_obeys {Q : Pass → Copy Shard → Prop} (switching : Switching r p) (member : source ∈ p.shards)
    (named : source.obj.name = r.obj.spec.sourceShard)
    (hidden : ∀ q s, Switching r q → s ∈ q.shards → s.obj.name = r.obj.spec.sourceShard →
      s.obj.serving = false → Q q s) :
    protocol.Obeys (hideSource source) p Q Stopped := by
  refine obeys_ite (fun _ => ?_) fun unserved => hidden p source switching member named (by simpa using unserved)
  refine obeys_bind.mpr ⟨⟨switching.free, r, switching.held, source, member, rfl,
    .hide named switching.committed⟩, fun answer _ => ?_⟩
  cases answer with
  | stored version =>
    exact hidden _ _ { switching with }
      List.mem_cons_self named rfl
  | conflict | failed => trivial

theorem completeSwitch_obeys (switching : Switching r p) (member : source ∈ p.shards)
    (named : source.obj.name = r.obj.spec.sourceShard) :
    protocol.Obeys (completeSwitch r source) p
      (fun q after => r.obj.status.phase = .cuttingOver → Settled q after) Stopped := by
  refine (serveTargets_keeps (List.Subset.refl _) p ⟨switching, member⟩).bind ?_
  rintro q _ ⟨switching, member⟩
  refine obeys_bind.mpr (hideSource_obeys switching member named fun q hidden switching member named unserved => ?_)
  refine obeys_bind.mpr ⟨⟨r, switching.held, rfl⟩, fun answer _ => ?_⟩
  cases answer with
  | notFound | failed => trivial
  | found routing =>
    let seen : Pass := { q with routing := some routing, waited := none }
    have hold : ∀ reason message, Settled seen (holdCutover r reason message) :=
      hold_settled (p := seen) switching.held switching.free
    refine obeys_ite (fun _ _ => hold _ _) fun compiled => ?_
    refine (releaseSourceClaim_obeys (p := seen) switching.held switching.name switching.free member
      named (.inl switching.committed) (fun _ => .inl unserved)
      fun open_ => absurd (switching.committed.symm.trans open_) (by decide)).bind fun q _ ⟨later, _⟩ phase => ?_
    have compiled := not_not.mp compiled
    rw [named] at compiled
    exact settled_of_move (r := r) later.held later.free
      (.switched _ phase switching.committed later.routing compiled)

theorem sourceForCleanup_obeys {Q : Pass → Option (Copy Shard) → Prop}
    (missing : Q { p with unread := r.obj.spec.sourceShard :: p.unread } none)
    (found : ∀ s, s.obj.name = r.obj.spec.sourceShard → Q { p with shards := s :: p.shards } (some s))
    (replaced : ∀ s, s.obj.name = r.obj.spec.sourceShard →
      r.obj.status.sourceShardUID ≠ "" ∧ r.obj.status.sourceShardUID ≠ s.obj.uid →
      Q { p with shards := s :: p.shards } none) :
    protocol.Obeys (sourceForCleanup r) p Q Stopped := by
  refine obeys_bind.mpr ⟨trivial, fun answer given => ?_⟩
  cases answer with
  | notFound | failed => exact missing
  | found s => exact obeys_ite (replaced s given) fun _ => found s given

theorem reconcileCuttingOver_obeys (clean : Clean p r none) (phase : r.obj.status.phase = .cuttingOver) :
    protocol.Obeys (reconcileCuttingOver r) p Settled Stopped := by
  refine obeys_bind.mpr (fetchCluster_obeys clean.held (fun cluster _ => ?_) (clean.holdCutover _ _) trivial)
  have clean := clean.readCluster cluster
  dsimp only
  refine obeys_ite (fun replaced => ?_) fun _ => ?_
  · have cause : ∀ shards, Tripped { p with cluster := some cluster, shards } r.obj :=
      fun _ => .inl ⟨cluster, rfl, .inr replaced⟩
    have unread := clean.missShard r.obj.spec.sourceShard
    have unreadFails : protocol.Obeys (failCutover r none "ClusterReplaced" (clusterReplacedMessage cluster))
        { p with cluster := some cluster, unread := r.obj.spec.sourceShard :: p.unread } Settled Stopped :=
      failCutover_obeys unread.held unread.name unread.free unread.alive phase nofun (.inl (.inl ⟨cluster, rfl, .inr replaced⟩))
    refine obeys_bind.mpr (sourceForCleanup_obeys unreadFails (fun s named => ?_) fun s _ _ => ?_)
    · have clean := clean.readShard s
      refine failCutover_obeys clean.held clean.name clean.free clean.alive phase ?_ (.inl (cause _))
      rintro _ ⟨⟩
      exact ⟨List.mem_cons_self, named⟩
    · have clean := clean.readShard s
      exact failCutover_obeys clean.held clean.name clean.free clean.alive phase nofun (.inl (cause _))
  · refine obeys_bind.mpr (fetchShard_obeys (fun source named => ?_) ((clean.missShard _).holdCutover _ _) trivial)
    have clean := clean.readShard source
    dsimp only
    refine obeys_ite (fun replaced => ?_) fun _ => obeys_ite (fun mismatch => ?_) fun _ =>
      obeys_ite (fun committed => ?_) fun open_ => ?_
    · have lost : (sourceLost r.obj source.obj).isSome := by simp [sourceLost, replaced]
      have cause : ∀ q : Pass, source ∈ q.shards → Tripped q r.obj :=
        fun _ member => .inr (.inl ⟨source, member, named, lost⟩)
      refine (releaseSourceClaim_obeys clean.held clean.name clean.free List.mem_cons_self named
        (.inr (.inr (.inl (cause _ List.mem_cons_self)))) (fun _ => .inr replaced) fun _ => .inr replaced).bind fun q _ ⟨later, _⟩ => ?_
      exact fail_settled later.held later.free clean.alive (.inl (cause q (later.shards List.mem_cons_self))) _ _ _
    · refine failCutover_obeys clean.held clean.name clean.free clean.alive phase ?_
        (.inr (.inr (.inr (.inr (.inr (.inr (.inl mismatch)))))))
      rintro _ ⟨⟩
      exact ⟨List.mem_cons_self, named⟩
    · exact (completeSwitch_obeys ⟨clean.held, clean.name, clean.free, committed⟩ List.mem_cons_self named).mono
        (fun _ _ settled => settled phase) fun _ _ h => h
    · exact driveCutover_obeys ⟨clean, List.mem_cons_self, named, phase, by simpa using open_⟩

/-! ## Deletion and the whole reconcile -/

theorem clearGate_obeys (held : p.held = some r) (free : p.stuck = false) (deleting : r.obj.deleting = true) :
    protocol.Obeys (cleanupCutoverClaim.clearGate r) p (fun q ungated => Later p q ungated ∧
      ungated.obj = { r.obj with status := { r.obj.status with cutoverGateDeadline := none } }) Stopped := by
  refine obeys_ite (fun _ => ?_) fun ungated => ?_
  · refine updateStatus_obeys (settled_of_move held free (.ungated deleting)) (fun version => ?_) fun _ => trivial
    exact ⟨{ Later.refl held free with held := rfl }, rfl⟩
  · refine ⟨.refl held free, ?_⟩
    rw [← not_not.mp ungated]

theorem settleUncommitted_obeys (held : p.held = some r) (name : p.name = r.obj.name)
    (free : p.stuck = false) (named : shard.name = r.obj.spec.sourceShard) (deleting : r.obj.deleting = true) :
    protocol.Obeys (cleanupCutoverClaim.settleUncommitted r shard) p (fun q last => Later p q last ∧
      last.obj.name = r.obj.name ∧ last.obj.deleting = r.obj.deleting ∧ last.obj.spec = r.obj.spec ∧
      last.obj.status.switchCommitted = r.obj.status.switchCommitted ∧
      (last.obj.status.switchCommitted = false → last.obj.status.sourceFenced = false)) Stopped := by
  refine obeys_ite (fun committed => ⟨.refl held free, rfl, rfl, rfl, rfl,
    fun open_ => absurd (committed.symm.trans open_) (by decide)⟩) fun open_ => ?_
  refine (settleFence_obeys held name free named (by simpa using open_) (.inr deleting)).mono ?_ fun _ _ h => h
  rintro q last ⟨later, defenced⟩
  exact ⟨later, by rw [defenced], by rw [defenced], by rw [defenced], by rw [defenced], fun _ => by rw [defenced]⟩

theorem dropFinalizer_obeys (held : p.held = some r) (free : p.stuck = false) (cleaned : Cleaned p r.obj) :
    protocol.Obeys (cleanupCutoverClaim.dropFinalizer r) p (fun _ _ => True) Stopped := by
  refine obeys_bind.mpr (obeys_bind.mpr ⟨⟨free, r, _, held, rfl, fun _ _ => cleaned⟩, fun answer _ => ?_⟩)
  cases answer <;> trivial

/-- A pass over a reshard that is being deleted. -/
structure Leaving (r : Copy Reshard) (p : Pass) : Prop where
  held : p.held = some r
  name : p.name = r.obj.name
  free : p.stuck = false
  deleting : r.obj.deleting = true

theorem Leaving.readShard (leaving : Leaving r p) (s : Copy Shard) :
    Leaving r { p with shards := s :: p.shards } :=
  { leaving with }

theorem cleanupCutoverClaim_obeys (leaving : Leaving r p) :
    protocol.Obeys (cleanupCutoverClaim r) p (fun _ _ => True) Stopped := by
  refine obeys_ite (fun _ => trivial) fun _ => ?_
  -- without a source only the gate and the finalizer are left to go
  have sourceless : ∀ q, Leaving r q → Sourceless q r.obj → protocol.Obeys (do
      let ungated ← cleanupCutoverClaim.clearGate r
      cleanupCutoverClaim.dropFinalizer ungated) q (fun _ _ => True) Stopped := by
    intro q leaving without
    refine (clearGate_obeys leaving.held leaving.free leaving.deleting).bind ?_
    rintro t ungated ⟨later, same⟩
    refine dropFinalizer_obeys later.held later.free ⟨by rw [same]; exact leaving.deleting, .inl ?_⟩
    rw [same]
    rcases without with missing | ⟨c, member, replaced⟩
    · exact .inl (later.unread missing)
    · exact .inr ⟨c, later.shards member, replaced⟩
  have missed : Leaving r { p with unread := r.obj.spec.sourceShard :: p.unread } :=
    { leaving with }
  refine obeys_bind.mpr (sourceForCleanup_obeys (sourceless _ missed (.inl List.mem_cons_self))
    (fun source named => ?_) fun s named replaced =>
      sourceless _ (leaving.readShard s) (.inr ⟨s, List.mem_cons_self, named, replaced⟩))
  have leaving := leaving.readShard source
  dsimp only
  refine obeys_ite (fun serving => ?_) fun settled => ?_
  · refine obeys_bind.mpr (fetchCluster_obeys leaving.held (fun cluster _ => ?_) trivial trivial)
    have switching : Switching r { p with shards := source :: p.shards, cluster := some cluster } :=
      ⟨leaving.held, leaving.name, leaving.free, serving.1⟩
    exact (completeSwitch_obeys switching List.mem_cons_self named).bind fun _ _ _ => trivial
  · refine (clearGate_obeys leaving.held leaving.free leaving.deleting).bind ?_
    rintro q ungated ⟨later, same⟩
    have name : q.name = ungated.obj.name := by rw [later.name, leaving.name, same]
    have named : source.obj.name = ungated.obj.spec.sourceShard := by rw [named, same]
    have deleting : ungated.obj.deleting = true := by rw [same]; exact leaving.deleting
    refine (settleUncommitted_obeys later.held name later.free named deleting).bind ?_
    rintro end_ last ⟨atEnd, sameName, sameDeleting, sameSpec, sameSwitch, unowed⟩
    have hidden : last.obj.status.switchCommitted = true → source.obj.serving = false := by
      intro committed
      rw [sameSwitch, same] at committed
      simpa [show r.obj.status.switchCommitted = true from committed] using settled
    have deleting := sameDeleting.trans deleting
    refine (releaseSourceClaim_obeys atEnd.held (by rw [atEnd.name, name, sameName]) atEnd.free
      (atEnd.shards (later.shards List.mem_cons_self)) (by rw [named, sameSpec])
      (.inr (.inl deleting)) (fun committed => .inl (hidden committed)) fun open_ => .inl (unowed open_)).bind fun _ _ ⟨atLast, released⟩ => ?_
    exact dropFinalizer_obeys atLast.held atLast.free ⟨deleting, .inr ⟨_, released, unowed, hidden⟩⟩

theorem reconcilePhase_obeys (clean : Clean p r none) :
    protocol.Obeys (reconcilePhase r) p Settled Stopped := by
  unfold reconcilePhase
  cases phase : r.obj.status.phase with
  | unset | pending | validating => exact reconcileValidating_obeys clean (by rw [phase]; rfl)
  | provisioningTargets => exact reconcileProvisioningTargets_obeys clean phase
  | seeding | catchingUp => exact runSeedPass_obeys clean phase
  | readyToCutover => exact reconcileReadyToCutover_obeys clean phase
  | cuttingOver => exact reconcileCuttingOver_obeys clean phase
  | switchedForward | finalizing | completed | rollingBack | failed => exact clean.unchanged

theorem persist_obeys {before after : Copy Reshard} (settled : Settled p after) :
    protocol.Obeys (persist before after) p (fun _ _ => True) (fun _ _ => True) :=
  obeys_ite (fun _ => trivial) fun _ =>
    obeys_bind.mpr (updateStatus_obeys settled (fun _ => trivial) fun _ => trivial)

/-- Every reconcile keeps to the protocol. -/
theorem reconcile_obeys (name : String) :
    protocol.Obeys (reconcile name) { name } (fun _ _ => True) (fun _ _ => True) := by
  refine obeys_bind.mpr ⟨⟨rfl, rfl⟩, fun answer given => ?_⟩
  cases answer with
  | notFound | failed => trivial
  | found r =>
    have named : name = r.obj.name := (show r.obj.name = name from given).symm
    refine obeys_ite (fun deleting => ?_) fun alive => ?_
    · exact (cleanupCutoverClaim_obeys (p := { name, held := some r }) ⟨rfl, named, rfl, deleting⟩).mono
        (fun _ _ _ => trivial) fun _ _ _ => trivial
    · have clean : Clean { name, held := some r } r none := ⟨rfl, named, rfl, by simpa using alive, rfl, rfl, rfl⟩
      refine obeys_bind.mpr (obeys_attempt.mpr ((reconcilePhase_obeys clean).mono ?_ ?_))
      · exact fun _ _ settled => persist_obeys settled
      · intro q stop stopped
        cases stop with
        | failed => trivial
        | returned after => exact persist_obeys stopped

end PgShard.Operator
