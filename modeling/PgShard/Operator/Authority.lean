import PgShard.Operator.Lawful

/-! Who may lift a fence. -/

namespace PgShard.Operator

open Versioned Effects Effects.Monitor

variable {w w' after : World} {p q : Pass} {n m : String} {x : Shard}

/-- What a pass has read live about its authority still holds. -/
structure Authorised (w : World) (p : Pass) : Prop where
  owns : p.owns = some true →
    ∃ h x, p.held = some h ∧ w.shard h.obj.spec.sourceShard = some x ∧ x.claim = p.name
  live : p.liveOpen = true → p.stuck = false → ∀ r, w.reshard p.name = some r → r.status.switchCommitted = false

/-! ## What a pass leaves alone -/

theorem Acted.threads (acted : Acted w p after q) : after.threads = w.threads := by
  cases acted <;> rfl

theorem Acted.reshard_of_ne (acted : Acted w p after q) (other : m ≠ p.name) : after.reshard m = w.reshard m := by
  cases acted with
  | moved | movedUnknown | pinned | unpinned | pinnedUnknown => rw [World.reshard_storeReshard, if_neg other]
  | _ => rfl

theorem ShardEdit.claim_of_ne {r : Reshard} {old new : Shard} (edit : ShardEdit p r old new)
    (taken : old.claim ≠ "") (other : old.claim ≠ p.name) : new.claim = old.claim := by
  cases edit with
  | claim _ _ _ _ free => exact absurd free taken
  | release _ own => exact absurd own other
  | hide | serve => rfl

theorem Acted.claim_of_ne {s : String} (acted : Acted w p after q) (stored : w.shard s = some x)
    (taken : x.claim ≠ "") (other : x.claim ≠ p.name) : ∃ y, after.shard s = some y ∧ y.claim = x.claim := by
  cases acted with
  | @edited _ old new _ _ _ _ current edit =>
    rw [World.shard_storeShard]
    split
    · rename_i here
      subst here
      cases current.symm.trans stored
      exact ⟨new, rfl, edit.claim_of_ne taken other⟩
    · exact ⟨x, stored, rfl⟩
  | @made created _ absent =>
    rw [World.shard_storeShard]
    split
    · rename_i here
      have bound := History.lt_of_entry (World.entry_of_shard (here ▸ stored)).choose_spec
      omega
    · exact ⟨x, stored, rfl⟩
  | _ => exact ⟨x, stored, rfl⟩

/-! ## Authority lasts -/

theorem Authorised.start : Authorised w { name := n } :=
  ⟨fun owns => absurd owns.symm (Option.some_ne_none _), fun live => absurd live Bool.false_ne_true⟩

theorem Authorised.mono (authorised : Authorised w p)
    (claims : p.owns = some true → ∀ s x, w.shard s = some x → x.claim = p.name →
      ∃ y, w'.shard s = some y ∧ y.claim = p.name)
    (reshards : ∀ r, w'.reshard p.name = some r →
      r.status.switchCommitted = true → ∃ old, w.reshard p.name = some old ∧ old.status.switchCommitted = true) :
    Authorised w' p := by
  constructor
  · intro owns
    obtain ⟨h, x, held, stored, claim⟩ := authorised.owns owns
    obtain ⟨y, stored', claim'⟩ := claims owns _ x stored claim
    exact ⟨h, y, held, stored', claim'⟩
  · intro live free r stored
    rw [← Bool.not_eq_true]
    intro committed
    obtain ⟨old, was, committed'⟩ := reshards r stored committed
    exact Bool.false_ne_true ((authorised.live live free old was).symm.trans committed')

theorem Acted.authorised (authorised : Authorised w p) (acted : Acted w p after q) : Authorised after q := by
  cases acted with
  | @readLive r stored =>
    refine ⟨authorised.owns, fun isOpen _ current found => ?_⟩
    cases stored.symm.trans found
    obtain ⟨h, -, same⟩ := exists_of_any isOpen
    simpa using (Bool.and_eq_true_iff.mp same).2
  | @readClaim h x held stored =>
    refine ⟨fun owns => ⟨h, x, held, stored, ?_⟩, authorised.live⟩
    simpa using owns
  | @moved h status free held stored move =>
    constructor
    · intro owns
      obtain ⟨g, x, held', found, claim⟩ := authorised.owns owns
      cases held.symm.trans held'
      exact ⟨_, x, rfl, found, claim⟩
    · intro live _ r found
      rw [show (p.wroteStatus _ _).name = p.name from rfl, World.reshard_storeReshard, if_pos rfl] at found
      cases found
      simpa using (Bool.and_eq_true_iff.mp live).2
  | movedUnknown | gaveUp => exact ⟨authorised.owns, fun _ free => absurd free (by simp)⟩
  | @pinned h finalizers held stored =>
    constructor
    · intro owns
      obtain ⟨g, x, held', found, claim⟩ := authorised.owns owns
      cases held.symm.trans held'
      exact ⟨_, x, rfl, found, claim⟩
    · intro live free r found
      rw [World.reshard_storeReshard, if_pos rfl] at found
      cases found
      exact authorised.live live free h.obj stored
  | unpinned _ _ _ known =>
    have gone : Authorised (w.storeReshard p.name none) p := by
      refine authorised.mono (fun _ _ x stored claim => ⟨x, stored, claim⟩) fun r found => ?_
      rw [World.reshard_storeReshard, if_pos rfl] at found
      cases found
    cases known with
    | true => exact ⟨gone.owns, fun _ free => absurd free (by simp)⟩
    | false => exact gone
  | @pinnedUnknown h finalizers held stored =>
    refine authorised.mono (fun _ _ x stored claim => ⟨x, stored, claim⟩) fun r found committed => ?_
    rw [World.reshard_storeReshard, if_pos rfl] at found
    cases found
    exact ⟨h.obj, stored, committed⟩
  | edited _ _ _ _ known =>
    rcases known with rfl | rfl <;> exact ⟨fun owns => absurd owns.symm (Option.some_ne_none _), authorised.live⟩
  | tried _ _ _ refused =>
    rcases refused with rfl | rfl <;> exact ⟨fun owns => absurd owns.symm (Option.some_ne_none _), authorised.live⟩
  | @made created uid absent =>
    refine authorised.mono (fun _ s x stored claim => ?_) fun r found committed => ⟨r, found, committed⟩
    rw [World.shard_storeShard, if_neg]
    · exact ⟨x, stored, claim⟩
    · rintro rfl
      have bound := History.lt_of_entry (World.entry_of_shard stored).choose_spec
      omega
  | madeNode _ _ _ _ _ known => cases known <;> exact ⟨authorised.owns, authorised.live⟩
  | readSelf unheld =>
    refine ⟨fun owns => ?_, authorised.live⟩
    obtain ⟨h, -, held, -⟩ := authorised.owns owns
    exact absurd (unheld.symm.trans held) (by simp)
  | _ => exact ⟨authorised.owns, authorised.live⟩

/-- Every running pass has the authority it has read. -/
def AllAuthorised (w : World) : Prop :=
  ∀ n t, w.threads n = some t → Authorised w t.pass

theorem Lawful.claimant_named (lawful : Lawful w) {t : Thread} (running : w.threads n = some t)
    (authorised : Authorised w t.pass) (owns : t.pass.owns = some true) : n ≠ "" := by
  obtain ⟨named, -, genuine⟩ := lawful.thread running
  obtain ⟨h, -, held, -⟩ := authorised.owns owns
  exact named ▸ (lawful.reshard (genuine.held h held).1).2.1

theorem AllAuthorised.setThread {thread : Option Thread} (all : AllAuthorised w)
    (own : ∀ t, thread = some t → Authorised w t.pass) : AllAuthorised (w.setThread n thread) := by
  intro m t running
  by_cases here : m = n
  · subst here
    simp only [World.setThread, Function.update_self] at running
    exact ⟨(own t running).owns, (own t running).live⟩
  · simp only [World.setThread, Function.update_of_ne here] at running
    exact ⟨(all m t running).owns, (all m t running).live⟩

theorem AllAuthorised.acted {t : Thread} (all : AllAuthorised w) (lawful : Lawful w) (running : w.threads n = some t)
    (acted : Acted w t.pass after q) (other : m ≠ n) {t' : Thread} (running' : w.threads m = some t') :
    Authorised after t'.pass := by
  have named := (lawful.thread running).1
  have named' := (lawful.thread running').1
  refine (all m t' running').mono (fun owns s x stored claim => ?_) fun r found committed => ⟨r, ?_, committed⟩
  · have taken := lawful.claimant_named running' (all m t' running') owns
    rw [named'] at claim ⊢
    obtain ⟨y, stored', claim'⟩ := acted.claim_of_ne stored (claim ▸ taken) (by rw [claim, named]; exact other)
    exact ⟨y, stored', claim'.trans claim⟩
  · rwa [acted.reshard_of_ne (by rw [named, named']; exact other)] at found

theorem AllAuthorised.besides (all : AllAuthorised w) (threads : w'.threads = w.threads)
    (claims : ∀ s x, w.shard s = some x → ∃ y, w'.shard s = some y ∧ y.claim = x.claim)
    (reshards : ∀ n r, w'.reshard n = some r → r.status.switchCommitted = true →
      ∃ old, w.reshard n = some old ∧ old.status.switchCommitted = true) : AllAuthorised w' := by
  intro n t running
  refine (all n t (threads ▸ running)).mono (fun _ s x stored claim => ?_) (reshards t.pass.name)
  obtain ⟨y, stored', claim'⟩ := claims s x stored
  exact ⟨y, stored', claim'.trans claim⟩

theorem AllAuthorised.happens {c : Choice} (all : AllAuthorised w) (lawful : Lawful w) (happens : Happens w c w') :
    AllAuthorised w' := by
  have sameClaims : ∀ s x, w.shard s = some x → ∃ y, w.shard s = some y ∧ y.claim = x.claim :=
    fun _ x stored => ⟨x, stored, rfl⟩
  have sameReshards : ∀ n r, w.reshard n = some r → r.status.switchCommitted = true →
      ∃ old, w.reshard n = some old ∧ old.status.switchCommitted = true :=
    fun _ r stored committed => ⟨r, stored, committed⟩
  cases happens with
  | started =>
    refine all.setThread ?_
    rintro _ ⟨⟩
    exact .start
  | stopped => exact all.setThread fun _ new => absurd new.symm (Option.some_ne_none _)
  | @acted n _ t _ _ after _ running _ _ _ acted =>
    intro m t' running'
    by_cases here : m = n
    · subst here
      simp only [World.setThread, Function.update_self] at running'
      cases running'
      exact ⟨(acted.authorised (all m t running)).owns, (acted.authorised (all m t running)).live⟩
    · simp only [World.setThread, Function.update_of_ne here] at running'
      have kept := all.acted lawful running acted here (acted.threads ▸ running')
      exact ⟨kept.owns, kept.live⟩
  | @retagged n _ r new compiles stored retags =>
    refine all.besides rfl sameClaims fun m r' found committed => ?_
    change (w.storeReshard n new).reshard m = some r' at found
    rw [World.reshard_storeReshard] at found
    split at found
    · subst found
      cases retags.retagged
      exact ⟨r, by simp [*], committed⟩
    · exact ⟨r', found, committed⟩
  | born spec named absent fresh =>
    refine all.besides rfl sameClaims fun m r found committed => ?_
    rw [World.reshard_storeReshard] at found
    split at found
    · cases found
      cases committed
    · exact ⟨r, found, committed⟩
  | @appeared shard absent fresh =>
    refine all.besides rfl (fun s x stored => ?_) sameReshards
    rw [World.shard_storeShard, if_neg]
    · exact ⟨x, stored, rfl⟩
    · rintro rfl
      have bound := History.lt_of_entry (World.entry_of_shard stored).choose_spec
      omega
  | @edited old shard stored =>
    refine all.besides rfl (fun s x found => ?_) sameReshards
    rw [World.shard_storeShard]
    split
    · rename_i here
      cases stored.symm.trans (here ▸ found)
      exact ⟨_, rfl, rfl⟩
    · exact ⟨x, found, rfl⟩
  | walExtended | landed | routed | ticked | nodeMade | configured => exact all.besides rfl sameClaims sameReshards

theorem Reached.authorised (reached : Reached w) : AllAuthorised w :=
  reached.invariant (fun _ _ running => absurd running.symm (Option.some_ne_none _))
    fun _ _ _ reached all _ taken => all.happens reached.lawful (step_happens reached.lawful taken)

def World.sending (w : World) (n : String) : Option FenceRequest :=
  match w.threads n with
  | some ⟨_, .call (.fenceWrites request) _⟩ => some request
  | _ => none

theorem World.sending_thread {request : FenceRequest} (sending : w.sending n = some request) :
    ∃ pass k, w.threads n = some ⟨pass, .call (.fenceWrites request) k⟩ := by
  unfold World.sending at sending
  split at sending
  · cases sending
    exact ⟨_, _, ‹_›⟩
  · cases sending

/-- No fence is lifted over a committed switch: whenever a reconcile is about to
send an un-fence for a source, the reshard that the source's claim names at that
moment is not committed. -/
theorem unfence_spares_committed {request : FenceRequest} {source : Shard} {holder : Reshard} (reached : Reached w)
    (sending : w.sending n = some request) (unfence : request.unfence = true)
    (stored : w.shard request.database = some source) (named : w.reshard source.claim = some holder) :
    holder.status.switchCommitted = false := by
  obtain ⟨pass, k, running⟩ := World.sending_thread sending
  obtain ⟨-, ⟨permitted, -⟩, -⟩ := reached.lawful.thread running
  obtain ⟨free, h, held, permitted⟩ := permitted
  rw [if_pos unfence] at permitted
  obtain ⟨database, owns, live, -⟩ := permitted
  have authorised := reached.authorised n _ running
  obtain ⟨h', x, held', found, claim⟩ := authorised.owns owns
  cases held.symm.trans held'
  cases stored.symm.trans (database ▸ found)
  exact authorised.live live free holder (claim ▸ named)

/-! ## A split of one shard in two

The runs below script what happens and what the surroundings answer, call by call. -/

def answered (name : String) (replies : List Reply) : List Choice :=
  replies.map (.advance name)

def begun (name : String) (replies : List Reply) : List Choice :=
  .start name :: answered name replies

def reconciled (name : String) (replies : List Reply) : List Choice :=
  begun name replies ++ [.stop name]

def compiled (cluster : Cluster) (replies : List Reply) : List Choice :=
  .compile cluster 1 :: replies.map (.advanceCompile cluster.name) ++ [.stopCompile cluster.name]

def mainCluster : Cluster := { name := "main", uid := "c0", placement := some (some .shared, "") }

def otherCluster : Cluster := { mainCluster with uid := "c1" }

def placedShard (name : String) (keyRange : KeyBounds) : Shard where
  name
  clusterRef := "main"
  keyRange
  nodeRef := "main-shared"
  databaseReady := true
  databaseNode := "main-shared"
  databaseNodeUID := "n0"
  databasePodUID := "p0"

def ordersConfig : TableConfig where
  name := "tables"
  clusterRef := "main"
  tables := [{ schema := "public", name := "orders", type := .sharded, shardKeyColumn := "id", shardKeyType := "bigint" }]

def sourceShard : Shard := { placedShard "main-min-max" ⟨"", ""⟩ with uid := "s0", serving := true }

def splitSpec : ReshardSpec := ⟨"main", "main-min-max", [⟨"", "80"⟩, ⟨"80", ""⟩]⟩

def primarySeen : List Reply :=
  [.node { name := "main-shared", uid := "n0", ready := true, currentPrimary := "pod0" },
    .pod ⟨"pod0", "p0", some "n0", "10.0.0.1"⟩]

def streamingAt (id : String) (lsn : Nat) : Reply :=
  .workflow { id, phase := .streaming, appliedLsn := some lsn, journalLsn := some lsn }

def splitCreated : List Choice :=
  [.createNode "main-shared" (some "c0"), .editConfigs [ordersConfig], .createShard sourceShard,
    .createReshard "split" "r0" splitSpec]

def targetsMade : List Reply :=
  [.version 0, .created "t0", .done, .version 0, .created "t1", .done]

def splitProvisioned : List Choice :=
  reconciled "split" [.version 0, .version 0, .cluster mainCluster, .done] ++
  reconciled "split" ([.version 1, .cluster mainCluster] ++ targetsMade ++ [.done]) ++
  [.editShard (placedShard "main-min-80" ⟨"", "80"⟩), .editShard (placedShard "main-80-max" ⟨"80", ""⟩)]

def targetSeeded (id : String) : List Reply :=
  .version 1 :: primarySeen ++ [.done, .done, streamingAt id 0] ++ primarySeen

def seedPass (version : Nat) : List Reply :=
  [.version version, .cluster mainCluster, .version 0, .version 0] ++ primarySeen ++ [.done, .done] ++
    targetSeeded "pgshard_split_r0_t0" ++ targetSeeded "pgshard_split_r0_t1"

def lagMeasured : List Reply :=
  [.done, .instance_ (some ⟨true, true, false, some 0⟩)] ++ primarySeen

def splitSeeded : List Choice :=
  reconciled "split" [.version 2, .cluster mainCluster, .version 0, .version 0, .done] ++
  reconciled "split" (seedPass 3 ++ [.done]) ++ reconciled "split" (seedPass 4 ++ lagMeasured ++ [.done])

def splitGated : List Choice :=
  reconciled "split" [.version 5, .version 0, .done] ++
  reconciled "split" [.version 6, .version 0, .done, .done, .done] ++
  compiled mainCluster [.versions [("main-min-max", 1), ("main-min-80", 1), ("main-80-max", 1)], .missing, .version 0,
    .versions [("split", 7)], .done, .version 0, .done]

def cutoverPass (version : Nat) : List Reply :=
  [.version version, .cluster mainCluster, .version 1, .done, .version 0, .done]

/-- The gate observed, the leases waited out, the fence owed, fenced and the barrier
emitted. -/
def splitFrozen : List Choice :=
  reconciled "split" (cutoverPass 8 ++ [.done]) ++ .tick 15 :: reconciled "split" (cutoverPass 9 ++ [.done]) ++
  reconciled "split" (cutoverPass 10 ++ primarySeen ++ [.done, .done, .done] ++ primarySeen ++ [.done])

def splitToFrozen : List Choice :=
  splitCreated ++ splitProvisioned ++ splitSeeded ++ splitGated ++ splitFrozen

/-- The frozen split sees a replaced cluster and is about to un-fence its source. -/
def splitUnfencing : List Choice :=
  splitToFrozen ++ begun "split" ([.version 11, .cluster otherCluster, .version 1, .done, .done] ++ primarySeen ++
    [.done])

/-- An un-fence is about to be sent, and the claim of its source names a reshard. -/
def World.unfencing (w : World) (n : String) : Bool :=
  (w.sending n).any fun request => request.unfence &&
    (w.shard request.database).any fun source => (w.reshard source.claim).isSome

set_option maxRecDepth 100000 in
theorem splitUnfencing_ends : (run {} splitUnfencing).any (·.unfencing "split") = true := by
  decide +kernel

theorem unfence_spares_committed_split : ∃ w request source holder, Reached w ∧ w.sending "split" = some request ∧
    request.unfence = true ∧ w.shard request.database = some source ∧ w.reshard source.claim = some holder ∧
    holder.status.switchCommitted = false := by
  obtain ⟨w, reached, holds⟩ := Reached.of_run splitUnfencing_ends
  obtain ⟨request, sending, holds⟩ := exists_of_any holds
  obtain ⟨unfence, holds⟩ := Bool.and_eq_true_iff.mp holds
  obtain ⟨source, stored, holds⟩ := exists_of_any holds
  obtain ⟨holder, named⟩ := Option.isSome_iff_exists.mp holds
  exact ⟨w, request, source, holder, reached, sending, unfence, stored, named,
    unfence_spares_committed reached sending unfence stored named⟩

end PgShard.Operator
