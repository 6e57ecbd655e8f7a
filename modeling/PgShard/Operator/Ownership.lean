import PgShard.Lib.Checked
import PgShard.Lib.LengthPrefix
import PgShard.Operator.Stored

/-! Who owns shards and nodes. -/

namespace PgShard.Operator

open Versioned

variable {i : Nat} {name u : String}

variable {w w' after : World} {n s : String} {c : Choice} {p q : Pass} {r : Reshard} {x y : Shard}

/-! ## Names of nodes -/

theorem hexValue_dash : hexValue '-' = none := by decide

theorem parseHex_some {digits : List Char} {v n : Nat} (parsed : parseHex digits v = some n) :
    ∀ c ∈ digits, (hexValue c).isSome = true := by
  induction digits generalizing v with
  | nil => simp
  | cons d rest ih =>
    obtain ⟨value, digit, parsed⟩ := Option.bind_eq_some_iff.mp parsed
    intro c member
    rcases List.mem_cons.mp member with rfl | later
    · rw [digit]
      rfl
    · exact ih parsed c later

theorem parseBound_ok {text : String} {v : Fin (2 ^ 64)} (parsed : parseBound text = .ok v) :
    ∀ c ∈ text.toList, (hexValue c).isSome = true := by
  unfold parseBound at parsed
  split at parsed
  · simp_all
  · split at parsed
    · cases parsed
    · split at parsed
      · cases parsed
      · exact parseHex_some ‹_›

theorem cutDash_after {start stop before after : String} (cut : cutDash (start ++ "-" ++ stop) = some (before, after)) :
    ∀ c ∈ stop.toList, c ∈ after.toList := by
  unfold cutDash at cut
  rw [List.span_eq_takeWhile_dropWhile] at cut
  have text : (start ++ "-" ++ stop).toList = start.toList ++ '-' :: stop.toList := by simp
  rw [text, List.dropWhile_append] at cut
  split at cut
  · cases cut
  · rename_i rest
    obtain ⟨-, rfl⟩ := Prod.mk.inj (Option.some.inj cut)
    obtain ⟨-, rest⟩ := Prod.mk.inj rest
    intro c member
    rw [String.toList_ofList]
    split at rest
    · simp only [bne_self_eq_false, Bool.false_eq_true, not_false_eq_true, List.dropWhile_cons_of_neg] at rest
      exact (List.cons.inj rest).2 ▸ member
    · rename_i kept
      cases found : start.toList.dropWhile (· != '-') with
      | nil => simp [found] at kept
      | cons d ds =>
        rw [found] at rest
        rw [← (List.cons.inj rest).2]
        simp [member]

theorem toRange_stop {tr : KeyBounds} {range : KeyRange} (parsed : toRange tr = .ok range) :
    ∀ c ∈ tr.stop.toList, (hexValue c).isSome = true := by
  unfold toRange parseKeyRange at parsed
  split at parsed
  · cases parsed
  · rename_i startText endText cut
    intro c member
    have inside := cutDash_after cut c member
    obtain ⟨start, -, parsed⟩ := Checked.bind_ok parsed
    split at parsed
    · simp_all
    · obtain ⟨_, stop, -⟩ := Checked.bind_ok parsed
      exact parseBound_ok stop c inside

theorem shardName_ne_shared {tr : KeyBounds} {range : KeyRange} (parsed : toRange tr = .ok range)
    (cluster other : String) : shardName cluster tr.start tr.stop ≠ sharedNodeName other := by
  -- what follows the last dash is "shared" on one side, and "max" or hex on the other
  intro same
  let stop : String := if tr.stop = "" then "max" else tr.stop
  have parts : (cluster ++ "-" ++ (if tr.start = "" then "min" else tr.start)).toList ++ '-' :: stop.toList =
      other.toList ++ '-' :: "shared".toList := by
    simpa [shardName, sharedNodeName, stop] using congrArg String.toList same
  by_cases unbounded : tr.stop = ""
  · simp only [stop, if_pos unbounded] at parts
    exact absurd (LengthPrefix.mark_append_inj (by decide) (by decide) parts).2 (by decide)
  · simp only [stop, if_neg unbounded] at parts
    have undashed : '-' ∉ tr.stop.toList := fun member => by
      simpa [hexValue_dash] using toRange_stop parsed _ member
    have ending := (LengthPrefix.mark_append_inj undashed (by decide) parts).2
    have hex := toRange_stop parsed 's' (by simp [ending])
    exact absurd hex (by decide)

theorem shardName_ne_empty (cluster start stop : String) : shardName cluster start stop ≠ "" := by
  intro empty
  have := congrArg String.toList empty
  simp [shardName] at this

/-! ## Where shards and nodes come from -/

/-- Where the shard stored after a step comes from. -/
inductive StoredShard (w w' : World) (s : String) : Shard → Prop
  | same {x : Shard} (stored : w.shard s = some x) : StoredShard w w' s x
  | edited {n : String} {t : Thread} {h : Copy Reshard} {old new : Shard} (running : w.threads n = some t)
      (held : t.pass.held = some h) (stored : w.shard s = some old) (edit : ShardEdit t.pass h.obj old new) :
      StoredShard w w' s new
  | changed {old new : Shard} (stored : w.shard s = some old)
      (placed : new.nodeRef = old.nodeRef ∨ w.placeable new.nodeRef = true) : StoredShard w w' s (othersEdit old new)
  | made {n : String} {t : Thread} {x : Shard} (uid : String) (running : w.threads n = some t)
      (absent : (w.shards s).size = 0) (permitted : Permits t.pass (.createShard x)) : StoredShard w w' s { x with uid }
  | appeared {x : Shard} (absent : (w.shards s).size = 0) (outsider : w.outsider x.controller = true)
      (noted : ∀ u, x.controller = some u → u ∈ w'.outside) (placeable : w.placeable x.nodeRef = true) :
      StoredShard w w' s { x with claim := "" }

theorem Acted.shard {t : Thread} (acted : Acted w t.pass after q) (running : w.threads n = some t)
    (found : after.shard s = some x) : StoredShard w w' s x := by
  cases acted with
  | edited _ held stored edit =>
    rw [World.shard_storeShard] at found
    split at found
    · rename_i here
      cases found
      exact .edited running held (here ▸ stored) edit
    · exact .same found
  | made uid absent _ permitted =>
    rw [World.shard_storeShard] at found
    split at found
    · rename_i here
      cases found
      exact .made uid running (here ▸ absent) permitted
    · exact .same found
  | _ => exact .same found

theorem Happens.shard (happens : Happens w c w') (found : w'.shard s = some x) : StoredShard w w' s x := by
  cases happens with
  | acted running _ _ _ acted => exact acted.shard running found
  | appeared absent _ outsider placeable =>
    rw [World.shard_storeShard] at found
    split at found
    · rename_i here
      cases found
      exact .appeared (here ▸ absent) outsider (fun u owner => by simp [World.noteOwner, World.useUid, World.storeShard, owner])
        placeable
    · exact .same found
  | edited stored placed =>
    rw [World.shard_storeShard] at found
    split at found
    · rename_i here
      cases found
      exact .changed (here ▸ stored) placed
    · exact .same found
  | _ => exact .same found

theorem Acted.shards (acted : Acted w p after q) (s : String) :
    after.shards s = w.shards s ∨ ∃ stored, after.shards s = (w.shards s).push stored := by
  cases acted <;> first | exact .inl rfl | exact update_push_cases w.shards ..

theorem Happens.shards (happens : Happens w c w') (s : String) :
    w'.shards s = w.shards s ∨ ∃ stored, w'.shards s = (w.shards s).push stored := by
  cases happens with
  | acted _ _ _ _ acted => exact acted.shards s
  | appeared | edited => exact update_push_cases w.shards ..
  | _ => exact .inl rfl

theorem Happens.shardEntry (happens : Happens w c w') (found : (w'.shards s).entry i = some x) :
    (∃ j, (w.shards s).entry j = some x) ∨ StoredShard w w' s x := by
  rcases happens.shards s with same | ⟨stored, grown⟩
  · exact .inl ⟨i, same ▸ found⟩
  · rw [grown] at found
    rcases History.entry_push_cases found with old | ⟨-, rfl⟩
    · exact .inl ⟨i, old⟩
    · exact .inr (happens.shard ((congrArg History.current grown).trans History.current_push))

/-- A node keeps its controller. A new one is controlled by an outsider, or by a
reshard in provisioning that it is named after. -/
inductive StoredNode (w w' : World) (name : String) (controller : Option String) : Prop
  | same (stored : w.nodes name = some controller)
  | made {n : String} {t : Thread} {h : Copy Reshard} (absent : w.nodes name = none) (running : w.threads n = some t)
      (held : t.pass.held = some h) (own : controller = some h.obj.uid)
      (phase : h.obj.status.phase = .provisioningTargets) (named : TargetName h.obj name)
  | appeared (absent : w.nodes name = none) (outsider : w.outsider controller = true)
      (noted : ∀ u, controller = some u → u ∈ w'.outside)

theorem Happens.node (happens : Happens w c w') {controller : Option String}
    (found : w'.nodes name = some controller) : StoredNode w w' name controller := by
  cases happens with
  | @acted n _ t _ _ after _ running _ _ _ acted =>
    replace found : after.nodes name = some controller := found
    generalize t.pass.next _ _ = q at acted
    cases acted with
    | @madeNode h node held own phase named absent =>
      by_cases here : name = node.name
      · subst here
        cases (Function.update_self ..).symm.trans found
        exact .made absent running held own phase named
      · exact .same ((Function.update_of_ne here ..).symm.trans found)
    | _ => exact .same found
  | @nodeMade made _ absent outsider =>
    by_cases here : name = made
    · subst here
      cases (Function.update_self ..).symm.trans found
      exact .appeared absent outsider fun u owner => by simp [World.noteOwner, World.storeNode, owner]
    · exact .same ((Function.update_of_ne here ..).symm.trans found)
  | _ => exact .same found

/-- What is there stays there. -/
structure Grows (w w' : World) : Prop where
  uids : ∀ {u}, u ∈ w.uids → u ∈ w'.uids
  outside : ∀ {u}, u ∈ w.outside → u ∈ w'.outside
  nodes : ∀ {name controller}, w.nodes name = some controller → w'.nodes name = some controller

theorem Acted.grows (acted : Acted w p after q) : Grows w after := by
  cases acted with
  | made => exact ⟨List.mem_cons_of_mem _, id, id⟩
  | @madeNode _ node _ _ _ _ absent =>
    refine ⟨id, id, fun {name _} found => ?_⟩
    have other : name ≠ node.name := by
      rintro rfl
      cases absent.symm.trans found
    exact (Function.update_of_ne other ..).trans found
  | _ => exact ⟨id, id, id⟩

theorem Happens.grows (happens : Happens w c w') : Grows w w' := by
  cases happens with
  | acted _ _ _ _ acted => exact ⟨acted.grows.uids, acted.grows.outside, acted.grows.nodes⟩
  | born => exact ⟨List.mem_cons_of_mem _, id, id⟩
  | appeared => exact ⟨List.mem_cons_of_mem _, List.mem_append_right _, id⟩
  | @nodeMade made _ absent =>
    refine ⟨id, List.mem_append_right _, fun {name _} found => ?_⟩
    have other : name ≠ made := by
      rintro rfl
      cases absent.symm.trans found
    exact (Function.update_of_ne other ..).trans found
  | _ => exact ⟨id, id, id⟩

theorem Happens.outside (happens : Happens w c w') (owner : u ∈ w'.outside) :
    u ∈ w.outside ∨ u ∉ w.uids ∧ w'.reshards = w.reshards := by
  have added : ∀ {controller : Option String}, w.outsider controller = true → u ∈ controller.toList ++ w.outside →
      u ∈ w.outside ∨ u ∉ w.uids := by
    intro controller outsider member
    rcases List.mem_append.mp member with new | old
    · rw [Option.mem_toList] at new
      subst new
      exact .inr (by simpa [World.outsider] using outsider)
    · exact .inl old
  cases happens with
  | acted _ _ _ _ acted =>
    generalize Pass.next _ _ _ = q at acted
    cases acted <;> exact .inl owner
  | appeared _ _ outsider | nodeMade _ outsider => exact (added outsider owner).imp_right fun unknown => ⟨unknown, rfl⟩
  | _ => exact .inl owner

/-! ## The invariant -/

def Reshard.Ranged (r : Reshard) : Prop :=
  ∀ tr ∈ r.spec.targetRanges, ∃ range, toRange tr = .ok range

def openNode (name : String) : Prop :=
  name = "" ∨ ∃ cluster, name = sharedNodeName cluster

theorem TargetName.not_open (named : TargetName r name) (ranged : r.Ranged) : ¬ openNode name := by
  obtain ⟨cluster, member⟩ := named
  obtain ⟨tr, listed, rfl⟩ := List.mem_map.mp member
  obtain ⟨range, parsed⟩ := ranged tr listed
  rintro (empty | ⟨other, shared⟩)
  · exact shardName_ne_empty _ _ _ empty
  · exact shardName_ne_shared parsed _ _ shared

/-- Nodes that a pass knows to be its reshard's own. -/
def Pass.Housed (w : World) (p : Pass) : Prop :=
  ∀ name ∈ p.nodes, ∃ h, p.held = some h ∧ w.nodes name = some (some h.obj.uid)

structure Owned (w : World) : Prop where
  ranged : ∀ {n i r}, (w.reshards n).entry i = some r → r.status.phase = .provisioningTargets → r.Ranged
  foreign : ∀ {n i r}, (w.reshards n).entry i = some r → r.uid ∉ w.outside
  shardOwner : ∀ {s i x u}, (w.shards s).entry i = some x → x.controller = some u → u ∈ w.uids ∨ u ∈ w.outside
  nodeOwner : ∀ {name u}, w.nodes name = some (some u) → u ∈ w.uids ∨ u ∈ w.outside
  lasts : ∀ {s i j x y}, (w.shards s).entry i = some x → (w.shards s).entry j = some y → x.controller = y.controller
  passes : ∀ n t, w.threads n = some t → t.pass.Housed w
  closed : ∀ {n i r name}, (w.reshards n).entry i = some r → w.nodes name = some (some r.uid) → ¬ openNode name
  placed : ∀ {s x}, w.shard s = some x → openNode x.nodeRef ∨ w.nodes x.nodeRef ≠ none
  lodged : ∀ {n i r s x}, (w.reshards n).entry i = some r → w.shard s = some x →
    w.nodes x.nodeRef = some (some r.uid) → x.controller = some r.uid

theorem Owned.empty : Owned {} where
  ranged found := by cases found
  foreign found := by cases found
  shardOwner found := by cases found
  nodeOwner found := by cases found
  lasts found := by cases found
  passes _ _ running := by cases running
  closed found := by cases found
  placed found := by cases found
  lodged found := by cases found

/-! ## One step -/

theorem parseTargets_ranged {ranges : List KeyBounds} {parsed : List KeyRange} (ok : parseTargets ranges = .ok parsed) :
    ∀ tr ∈ ranges, ∃ range, toRange tr = .ok range := by
  induction ranges generalizing parsed with
  | nil => simp
  | cons tr rest ih =>
    intro other member
    rw [parseTargets] at ok
    split at ok
    · cases ok
    · rename_i range first
      obtain ⟨_, later, -⟩ := Checked.bind_ok ok
      rcases List.mem_cons.mp member with rfl | member
      · exact ⟨range, first⟩
      · exact ih later other member

theorem ShardEdit.kept {old new : Shard} (edit : ShardEdit p r old new) :
    new.controller = old.controller ∧ new.nodeRef = old.nodeRef := by
  cases edit <;> exact ⟨rfl, rfl⟩

theorem Move.ranged {status : ReshardStatus} (move : Move p r status) (phase : status.phase = .provisioningTargets)
    (before : r.status.phase = .provisioningTargets → r.Ranged) : r.Ranged := by
  cases move with
  | validated _ _ _ _ _ _ partition =>
    unfold partitionRefused at partition
    split at partition
    · cases partition
    · split at partition
      · cases partition
      · exact parseTargets_ranged ‹_›
  | pinned _ _ seeding => cases phase.symm.trans seeding
  | hold | observed | oweFence | frozen | commit | settled | ungated => exact before phase
  | _ => cases phase

theorem Stored.ranged (stored : Stored w c n r) (owned : Owned w) (phase : r.status.phase = .provisioningTargets) :
    r.Ranged := by
  cases stored with
  | same stored => exact owned.ranged stored phase
  | moved _ _ stored move => exact move.ranged phase (owned.ranged stored)
  | pinned _ stored | deleted _ stored => exact (owned.ranged stored phase :)
  | born => cases phase

theorem Happens.reshard_uid (happens : Happens w c w') (lawful : Lawful w)
    (found : (w'.reshards n).entry i = some r) :
    (∃ m j old, (w.reshards m).entry j = some old ∧ old.uid = r.uid) ∨ w.freshUid r.uid = true := by
  rcases happens.entry found with ⟨j, old⟩ | now
  · exact .inl ⟨n, j, r, old, rfl⟩
  · cases happens.stored lawful now with
    | same stored | moved _ _ stored | pinned _ stored | deleted _ stored => exact .inl ⟨_, _, _, stored, rfl⟩
    | born _ fresh => exact .inr fresh

theorem Owned.foreign_step (owned : Owned w) (lawful : Lawful w) (happens : Happens w c w')
    (found : (w'.reshards n).entry i = some r) : r.uid ∉ w'.outside := by
  intro owner
  rcases happens.outside owner with before | ⟨unknown, same⟩
  · rcases happens.reshard_uid lawful found with ⟨m, j, old, entry, uid⟩ | fresh
    · exact owned.foreign entry (uid ▸ before)
    · simp only [World.freshUid, Bool.and_eq_true, Bool.not_eq_true', List.contains_eq_mem, decide_eq_false_iff_not] at fresh
      exact fresh.2 before
  · rw [same] at found
    exact unknown (lawful.reshard found).2.2.1

theorem StoredShard.controller (stored : StoredShard w w' s x) :
    (∃ old, w.shard s = some old ∧ x.controller = old.controller) ∨ (w.shards s).size = 0 := by
  cases stored with
  | same stored | changed stored => exact .inl ⟨_, stored, rfl⟩
  | edited _ _ stored edit => exact .inl ⟨_, stored, edit.kept.1⟩
  | made _ _ absent | appeared absent => exact .inr absent

theorem World.placeable_cases (placeable : w.placeable name = true) :
    (∃ controller, w.nodes name = some controller ∧ w.outsider controller = true) ∨ name = "" ∧ w.nodes name = none := by
  unfold World.placeable at placeable
  split at placeable
  · exact .inl ⟨_, ‹_›, placeable⟩
  · exact .inr ⟨beq_iff_eq.mp placeable, ‹_›⟩

theorem World.placeable_placed (placeable : w.placeable name = true) :
    openNode name ∨ w.nodes name ≠ none := by
  rcases World.placeable_cases placeable with ⟨_, stored, -⟩ | ⟨empty, -⟩
  · exact .inr (by simp [stored])
  · exact .inl (.inl empty)

theorem StoredShard.placed (stored : StoredShard w w' s x) (owned : Owned w) :
    openNode x.nodeRef ∨ w.nodes x.nodeRef ≠ none := by
  cases stored with
  | same stored => exact owned.placed stored
  | edited _ _ stored edit =>
    rw [edit.kept.2]
    exact owned.placed stored
  | changed stored placed =>
    rcases placed with same | placeable
    · exact (same ▸ owned.placed stored :)
    · exact World.placeable_placed placeable
  | made _ running _ permitted =>
    obtain ⟨-, -, h, -, -, known | ⟨cluster, shared⟩⟩ := permitted
    · obtain ⟨h, -, stored⟩ := owned.passes _ _ running _ known
      exact .inr (by simp [stored])
    · exact .inl (.inr ⟨cluster, shared⟩)
  | appeared _ _ _ placeable => exact World.placeable_placed placeable

theorem StoredShard.lodged (stored : StoredShard w w' s x) (owned : Owned w) (lawful : Lawful w)
    (found : (w.reshards n).entry i = some r) (node : w.nodes x.nodeRef = some (some r.uid)) :
    x.controller = some r.uid := by
  have known := (lawful.reshard found).2.2.1
  have outside : ∀ {name}, w.nodes name = some (some r.uid) → w.placeable name = true → False := by
    intro name node placeable
    rcases World.placeable_cases placeable with ⟨controller, stored, outsider⟩ | ⟨-, absent⟩
    · cases node.symm.trans stored
      exact absurd known (by simpa [World.outsider] using outsider)
    · cases absent.symm.trans node
  cases stored with
  | same stored => exact owned.lodged found stored node
  | edited _ _ stored edit =>
    rw [edit.kept.1]
    exact owned.lodged found stored (edit.kept.2 ▸ node)
  | @changed old new stored placed =>
    rcases placed with same | placeable
    · replace node : w.nodes new.nodeRef = some (some r.uid) := node
      rw [same] at node
      exact (owned.lodged found stored node :)
    · exact (outside node placeable).elim
  | made _ running _ permitted =>
    obtain ⟨-, -, h, held, controller, listed | ⟨cluster, shared⟩⟩ := permitted
    · obtain ⟨h', held', stored⟩ := owned.passes _ _ running _ listed
      cases held.symm.trans held'
      have uid : h.obj.uid = r.uid := by simpa using stored.symm.trans node
      exact uid ▸ controller
    · exact absurd (.inr ⟨cluster, shared⟩) (owned.closed found node)
  | appeared _ _ _ placeable => exact (outside node placeable).elim

theorem Acted.housed (acted : Acted w p after q) (housed : p.Housed w) : q.Housed after := by
  have same : ∀ {q : Pass}, q.nodes = p.nodes → q.held.map (·.obj.uid) = p.held.map (·.obj.uid) → q.Housed after := by
    intro q nodes held name member
    obtain ⟨h, own, stored⟩ := housed name (nodes ▸ member)
    rw [own] at held
    obtain ⟨now, held', uid⟩ := Option.map_eq_some_iff.mp held
    replace uid : now.obj.uid = h.obj.uid := uid
    exact ⟨now, held', uid ▸ acted.grows.nodes stored⟩
  cases acted with
  | readSelf unheld =>
    intro name member
    obtain ⟨h, held, -⟩ := housed name member
    cases unheld.symm.trans held
  | @knewNode h name held stored =>
    intro other member
    rcases List.mem_cons.mp member with rfl | member
    · exact ⟨h, held, stored⟩
    · exact housed other member
  | @madeNode h node held own _ _ absent known =>
    cases known with
    | false => exact same rfl rfl
    | true =>
      intro other member
      rcases List.mem_cons.mp member with rfl | member
      · exact ⟨h, held, (Function.update_self ..).trans (congrArg some own)⟩
      · exact same (q := p) rfl rfl other member
  | moved _ held => exact same rfl (by simp [Pass.wroteStatus, held])
  | pinned _ held => exact same rfl (by simp [held])
  | unpinned _ _ _ known => cases known <;> exact same rfl rfl
  | @edited _ _ _ _ answer | @tried _ _ _ _ answer => cases answer <;> exact same rfl rfl
  | _ => exact same rfl rfl

section

variable (owned : Owned w) (lawful : Lawful w) (happens : Happens w c w')
include owned happens

theorem Owned.passes_step : ∀ n t, w'.threads n = some t → t.pass.Housed w' := by
  refine happens.passes Pass.Housed owned.passes (fun _ _ member => by cases member) (fun _ _ _ housed name member => ?_) ?_
  · obtain ⟨h, held, stored⟩ := housed name member
    exact ⟨h, held, happens.grows.nodes stored⟩
  · rintro n t t' after _ rfl acted housed
    exact acted.housed housed

theorem Owned.lasts_step {j : Nat}
    (first : (w'.shards s).entry i = some x) (second : (w'.shards s).entry j = some y) : x.controller = y.controller := by
  -- a new version has the controller of every older one
  have renewed : ∀ {k : Nat} {old new : Shard}, (w.shards s).entry k = some old → w'.shard s = some new →
      old.controller = new.controller := by
    intro k old new found stored
    rcases (happens.shard stored).controller with ⟨current, before, same⟩ | absent
    · exact (owned.lasts found before).trans same.symm
    · have := History.lt_of_entry found
      omega
  rcases happens.shards s with same | ⟨stored, grown⟩
  · rw [same] at first second
    exact owned.lasts first second
  · have now : w'.shard s = stored := (congrArg History.current grown).trans History.current_push
    rw [grown] at first second
    rcases History.entry_push_cases first with old | ⟨-, new⟩ <;>
      rcases History.entry_push_cases second with old' | ⟨-, new'⟩
    · exact owned.lasts old old'
    · exact renewed old (now.trans new')
    · exact (renewed old' (now.trans new)).symm
    · cases new.symm.trans new'
      rfl

include lawful

theorem Owned.shardOwner_step
    (found : (w'.shards s).entry i = some x) (owner : x.controller = some u) : u ∈ w'.uids ∨ u ∈ w'.outside := by
  have before : ∀ {j : Nat} {old : Shard}, (w.shards s).entry j = some old → old.controller = some u →
      u ∈ w'.uids ∨ u ∈ w'.outside := fun found owner =>
    (owned.shardOwner found owner).imp happens.grows.uids happens.grows.outside
  rcases happens.shardEntry found with ⟨j, old⟩ | stored
  · exact before old owner
  · cases stored with
    | same stored | changed stored => exact before stored owner
    | edited _ _ stored edit => exact before stored (edit.kept.1 ▸ owner)
    | made _ running _ permitted =>
      obtain ⟨-, -, h, held, controller, -⟩ := permitted
      cases controller.symm.trans owner
      exact .inl (happens.grows.uids (lawful.held_known (lawful.thread running).2.2 held))
    | appeared _ _ noted => exact .inr (noted u owner)

theorem Owned.nodeOwner_step
    (found : w'.nodes name = some (some u)) : u ∈ w'.uids ∨ u ∈ w'.outside := by
  cases happens.node found with
  | same stored => exact (owned.nodeOwner stored).imp happens.grows.uids happens.grows.outside
  | made _ running held own =>
    cases own
    exact .inl (happens.grows.uids (lawful.held_known (lawful.thread running).2.2 held))
  | appeared _ _ noted => exact .inr (noted u rfl)

theorem Owned.node_cases
    (found : (w'.reshards n).entry i = some r) (node : w'.nodes name = some (some r.uid)) :
    (w.nodes name = some (some r.uid) ∧ ∃ m j old, (w.reshards m).entry j = some old ∧ old.uid = r.uid) ∨
      w.nodes name = none ∧ ¬ openNode name := by
  cases happens.node node with
  | same stored =>
    rcases happens.reshard_uid lawful found with old | fresh
    · exact .inl ⟨stored, old⟩
    · simp only [World.freshUid, Bool.and_eq_true, Bool.not_eq_true', List.contains_eq_mem,
        decide_eq_false_iff_not] at fresh
      rcases owned.nodeOwner stored with known | outside
      · exact absurd known fresh.1.2
      · exact absurd outside fresh.2
  | made absent running held _ phase named =>
    obtain ⟨entry, -⟩ := (lawful.thread running).2.2.held _ held
    exact .inr ⟨absent, named.not_open (owned.ranged entry phase)⟩
  | appeared _ _ noted => exact absurd (noted _ rfl) (owned.foreign_step lawful happens found)

theorem Owned.step : Owned w' where
  ranged found phase := by
    rcases happens.entry found with ⟨j, old⟩ | stored
    · exact owned.ranged old phase
    · exact (happens.stored lawful stored).ranged owned phase
  foreign := owned.foreign_step lawful happens
  shardOwner := owned.shardOwner_step lawful happens
  nodeOwner := owned.nodeOwner_step lawful happens
  lasts := owned.lasts_step happens
  passes := owned.passes_step happens
  closed found node := by
    rcases owned.node_cases lawful happens found node with ⟨stored, m, j, old, entry, uid⟩ | ⟨-, closed⟩
    · exact owned.closed entry (uid ▸ stored)
    · exact closed
  placed found := ((happens.shard found).placed owned).imp_right fun there absent => there (by
    cases stored : w.nodes _ with
    | none => rfl
    | some controller => cases absent.symm.trans (happens.grows.nodes stored))
  lodged found shard node := by
    have stored := happens.shard shard
    rcases owned.node_cases lawful happens found node with ⟨before, m, j, old, entry, uid⟩ | ⟨absent, closed⟩
    · exact uid ▸ stored.lodged owned lawful entry (uid ▸ before)
    · exact ((stored.placed owned).elim closed (absurd absent)).elim

end

theorem Reached.owned (reached : Reached w) : Owned w :=
  reached.invariant .empty fun _ _ _ reached owned _ taken =>
    owned.step reached.lawful (step_happens reached.lawful taken)

end PgShard.Operator
