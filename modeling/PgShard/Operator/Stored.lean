import PgShard.Operator.Authority

/-! What one step can do to the reshard stored under a name, and to what the running
passes have read. -/

namespace PgShard.Operator

open Versioned

variable {w w' after : World} {n m : String} {c : Choice} {p q : Pass} {r : Reshard}

/-- Where the reshard stored after a step comes from: it was stored before, its own
pass moved its status, its metadata changed, or it is new. -/
inductive Stored (w : World) (c : Choice) (n : String) : Reshard → Prop
  | same {r : Reshard} (stored : w.reshard n = some r) : Stored w c n r
  | moved {t : Thread} {h : Copy Reshard} {status : ReshardStatus} (running : w.threads n = some t)
      (held : t.pass.held = some h) (stored : w.reshard n = some h.obj) (move : Move t.pass h.obj status)
      (latest : (w.reshards n).accepts h.version = true) : Stored w c n { h.obj with status }
  | pinned {r : Reshard} (finalizers : List String) (stored : w.reshard n = some r) :
      Stored w c n { r with finalizers }
  | deleted {r : Reshard} (asked : c = .deleteReshard n) (stored : w.reshard n = some r) :
      Stored w c n { r with deleting := true }
  | born {uid : String} {spec : ReshardSpec} (absent : w.reshard n = none) (fresh : w.freshUid uid = true) :
      Stored w c n { name := n, uid, spec }

theorem Acted.stored {t : Thread} (acted : Acted w t.pass after q) (running : w.threads n = some t)
    (named : t.pass.name = n) (found : after.reshard n = some r) : Stored w c n r := by
  subst named
  cases acted with
  | moved _ held stored move latest | movedUnknown _ held stored move latest =>
    rw [World.reshard_storeReshard, if_pos rfl] at found
    cases found
    exact .moved running held stored move latest
  | pinned finalizers held stored | pinnedUnknown finalizers held stored =>
    rw [World.reshard_storeReshard, if_pos rfl] at found
    cases found
    exact .pinned finalizers stored
  | unpinned =>
    rw [World.reshard_storeReshard, if_pos rfl] at found
    cases found
  | _ => exact .same found

theorem Retags.stored {new : Option Reshard} (retags : Retags n r c new) (stored : w.reshard n = some r)
    {r' : Reshard} (found : new = some r') : Stored w c n r' := by
  subst found
  generalize present : some r' = new at retags
  cases retags with
  | tagged kept =>
    rcases kept with ⟨rfl, -⟩ | ⟨finalizers, rfl⟩
    · cases present
    · cases present
      exact .pinned finalizers stored
  | deleted =>
    split at present
    · cases present
    · cases present
      exact .deleted rfl stored
  | touched =>
    cases present
    exact .same stored

theorem Happens.stored (happens : Happens w c w') (lawful : Lawful w) (found : w'.reshard n = some r) :
    Stored w c n r := by
  cases happens with
  | @acted m _ _ _ _ _ _ running _ _ _ acted =>
    have named := (lawful.thread running).1
    by_cases here : n = m
    · subst here
      exact acted.stored running named found
    · exact .same ((acted.reshard_of_ne (named ▸ here)).symm.trans found)
  | @retagged m _ _ _ _ stored retags =>
    change (w.storeReshard m _).reshard n = some r at found
    rw [World.reshard_storeReshard] at found
    split at found
    · rename_i here
      subst here
      exact retags.stored stored found
    · exact .same found
  | @born name uid spec _ absent fresh =>
    rw [World.reshard_storeReshard] at found
    split at found
    · rename_i here
      subst here
      cases found
      exact .born absent fresh
    · exact .same found
  | _ => exact .same found

theorem update_push_cases {α : Type} (h : String → History α) (m n : String) (stored : Option α) :
    Function.update h m ((h m).push stored) n = h n ∨
      ∃ new, Function.update h m ((h m).push stored) n = (h n).push new := by
  by_cases here : n = m
  · subst here
    exact .inr ⟨stored, Function.update_self ..⟩
  · exact .inl (Function.update_of_ne here ..)

theorem Acted.reshards (acted : Acted w p after q) (n : String) :
    after.reshards n = w.reshards n ∨ ∃ stored, after.reshards n = (w.reshards n).push stored := by
  cases acted <;> first | exact .inl rfl | exact update_push_cases w.reshards ..

theorem Happens.reshards (happens : Happens w c w') (n : String) :
    w'.reshards n = w.reshards n ∨ ∃ stored, w'.reshards n = (w.reshards n).push stored := by
  cases happens with
  | acted _ _ _ _ acted => exact acted.reshards n
  | retagged | born => exact update_push_cases w.reshards ..
  | _ => exact .inl rfl

theorem Happens.entry (happens : Happens w c w') {i : Nat} (found : (w'.reshards n).entry i = some r) :
    (∃ j, (w.reshards n).entry j = some r) ∨ w'.reshard n = some r := by
  rcases happens.reshards n with same | ⟨stored, grown⟩
  · exact .inl ⟨i, same ▸ found⟩
  · rw [grown] at found
    rcases History.entry_push_cases found with old | ⟨-, rfl⟩
    · exact .inl ⟨i, old⟩
    · exact .inr ((congrArg History.current grown).trans History.current_push)

theorem Happens.passes (happens : Happens w c w') (holds : World → Pass → Prop)
    (before : ∀ n t, w.threads n = some t → holds w t.pass) (start : ∀ n, holds w' { name := n })
    (kept : ∀ n t, w.threads n = some t → holds w t.pass → holds w' t.pass)
    (acts : ∀ n t t' after, w.threads n = some t → w' = after.setThread n (some t') → Acted w t.pass after t'.pass →
      holds w t.pass → holds w' t'.pass) :
    ∀ n t, w'.threads n = some t → holds w' t.pass := by
  have still : ∀ n t, w.threads n = some t → holds w' t.pass := fun n t running => kept n t running (before n t running)
  intro n t running
  cases happens with
  | @started m =>
    by_cases here : n = m
    · subst here
      cases (World.threads_setThread_self ..).symm.trans running
      exact start n
    · exact still n t ((World.threads_setThread_of_ne here).symm.trans running)
  | stopped m =>
    by_cases here : n = m
    · subst here
      cases (World.threads_setThread_self ..).symm.trans running
    · exact still n t ((World.threads_setThread_of_ne here).symm.trans running)
  | @acted m _ _ _ _ _ _ running' _ _ _ acted =>
    by_cases here : n = m
    · subst here
      obtain rfl := Option.some.inj ((World.threads_setThread_self ..).symm.trans running)
      exact acts n _ _ _ running' rfl acted (before n _ running')
    · have running := (World.threads_setThread_of_ne here).symm.trans running
      exact still n t (acted.threads ▸ running)
  | _ => exact still n t running

/-! ## What a call teaches a pass -/

theorem Pass.next_reads (p : Pass) (o : Op) (answer : Ans o) :
    (o ≠ .listTableConfigs → (p.next o answer).configs = p.configs) ∧
      ((∀ name, o ≠ .getShard name) → (p.next o answer).unread = p.unread ∧
        ((∀ x, o ≠ .updateShard x) → (p.next o answer).shards = p.shards)) := by
  have same : ∀ q : Pass, p.next o answer = q → q.configs = p.configs → q.unread = p.unread → q.shards = p.shards →
      (o ≠ .listTableConfigs → (p.next o answer).configs = p.configs) ∧
      ((∀ name, o ≠ .getShard name) → (p.next o answer).unread = p.unread ∧
        ((∀ x, o ≠ .updateShard x) → (p.next o answer).shards = p.shards)) := by
    rintro q rfl configs unread shards
    exact ⟨fun _ => configs, fun _ => ⟨unread, fun _ => shards⟩⟩
  cases o with
  | listTableConfigs => exact ⟨fun other => absurd rfl other, fun _ => by cases answer <;> exact ⟨rfl, fun _ => rfl⟩⟩
  | getShard name => exact ⟨fun _ => by cases answer <;> rfl, fun other => absurd rfl (other name)⟩
  | updateShard x =>
    exact ⟨fun _ => by cases answer <;> rfl, fun _ => ⟨by cases answer <;> rfl, fun other => absurd rfl (other x)⟩⟩
  | updateStatus r => cases answer <;> exact same _ rfl rfl rfl rfl
  | updateReshard r =>
    cases answer with
    | stored version =>
      simp only [Pass.next, Pass.wroteReshard]
      split <;> exact ⟨fun _ => rfl, fun _ => ⟨rfl, fun _ => rfl⟩⟩
    | _ => exact same _ rfl rfl rfl rfl
  | fenceWrites request =>
    cases answer with
    | ok =>
      simp only [Pass.next, Pass.sentFence]
      split <;> exact ⟨fun _ => rfl, fun _ => ⟨rfl, fun _ => rfl⟩⟩
    | error e =>
      simp only [Pass.next, Pass.sentFence, Pass.rejects_eq]
      split <;> exact ⟨fun _ => rfl, fun _ => ⟨rfl, fun _ => rfl⟩⟩
  | getCluster name | getNodeController name =>
    cases answer with
    | found x =>
      simp only [Pass.next]
      split <;> exact ⟨fun _ => rfl, fun _ => ⟨rfl, fun _ => rfl⟩⟩
    | _ => exact same _ rfl rfl rfl rfl
  | emitJournal request | prepareSource request | startWorkflow request =>
    cases answer with
    | ok => exact same _ rfl rfl rfl rfl
    | error e => exact same _ (Pass.rejects_eq ..) rfl rfl rfl
  | getReshard | getReshardLive | getShardLive | createNode | getRouting =>
    cases answer <;> exact same _ rfl rfl rfl rfl
  | _ => exact same _ rfl rfl rfl rfl

/-! ## What a pass has read for its reshard -/

/-- The pass has read a value only after its reshard, and what it has read fits the
reshard's spec. -/
structure Pass.Read {α : Type} (field : Pass → Option α) (fact : ReshardSpec → α → Prop) (p : Pass) : Prop where
  unheld : p.held = none → field p = none
  known : ∀ {h a}, p.held = some h → field p = some a → fact h.obj.spec a

theorem Acted.held_spec (acted : Acted w p after q) :
    p.held = none ∨ q.held.map (·.obj.spec) = p.held.map (·.obj.spec) := by
  cases acted with
  | readSelf unheld => exact .inl unheld
  | madeNode held _ _ _ _ known | unpinned _ _ _ known => cases known <;> exact .inr rfl
  | moved _ held => exact .inr (by simp [Pass.wroteStatus, held])
  | pinned _ held => exact .inr (by simp [held])
  | edited | tried => exact .inr (by simp)
  | _ => exact .inr rfl

theorem Pass.Read.acted {α : Type} {field : Pass → Option α} {fact : ReshardSpec → α → Prop}
    (read : p.Read field fact) (acted : Acted w p after q)
    (reads : field q = field p ∨ ∃ h a, p.held = some h ∧ field q = some a ∧ fact h.obj.spec a) : q.Read field fact := by
  rcases acted.held_spec with unheld | same
  · rcases reads with kept | ⟨h, _, held, -⟩
    · have nothing := kept.trans (read.unheld unheld)
      exact ⟨fun _ => nothing, fun _ found => absurd (found.symm.trans nothing) (Option.some_ne_none _)⟩
    · cases unheld.symm.trans held
  · rcases reads with kept | ⟨h, a, held, found, fits⟩
    · refine ⟨fun unheld => ?_, fun {h a} held found => ?_⟩
      · rw [unheld] at same
        exact kept.trans (read.unheld (Option.map_eq_none_iff.mp same.symm))
      · rw [held] at same
        obtain ⟨old, before, spec⟩ := Option.map_eq_some_iff.mp same.symm
        replace spec : old.obj.spec = h.obj.spec := spec
        exact spec ▸ read.known before (kept ▸ found)
    · rw [held] at same
      obtain ⟨now, held', spec⟩ := Option.map_eq_some_iff.mp same
      replace spec : now.obj.spec = h.obj.spec := spec
      refine ⟨fun unheld => absurd (held'.symm.trans unheld) (Option.some_ne_none _), fun held'' found' => ?_⟩
      cases held'.symm.trans held''
      cases found.symm.trans found'
      exact spec ▸ fits

end PgShard.Operator
