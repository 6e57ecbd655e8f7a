import PgShard.Seq.Cache

/-! No id is handed out twice, and one reservation at a time is in flight for each
sequence of a router. -/

namespace PgShard.Seq

open Allotment
open Function (update update_self update_of_ne update_eq_self)

variable {id start size : Int} {block : Block} {t : Thread} {entry old : SeqState} {router : Nat}

variable {s s' : State} {sequence : String} {c : Client} {choice : Choice} {disjoint : Prop}

/-! ## What a step does -/

theorem Block.take_eq {b : Block} (taken : b.take = some (id, block)) :
    b.next < b.end_ ∧ id = b.next ∧ block = { b with next := b.next + 1 } := by
  unfold Block.take at taken
  split at taken
  · cases taken
    exact ⟨‹_›, rfl, rfl⟩
  · cases taken

/-- What one step does, for the client and the sequence it is about. -/
inductive Moves (disjoint : Prop) (s : State) (c : Client) (sequence : String) : State → Prop
  | entered (was : s.threads c = .idle ∨ s.threads c = .waiting sequence) :
      Moves disjoint s c sequence (s.setThread c (.entering sequence))
  | took {entry : SeqState} {block : Block} {id : Int} (was : s.threads c = .entering sequence)
      (found : s.caches c.router sequence = some entry) (taken : entry.block.take = some (id, block)) :
      Moves disjoint s c sequence (((s.setEntry c.router sequence { entry with block }).setThread c .idle).giveOut sequence id)
  | waited {entry : SeqState} (was : s.threads c = .entering sequence)
      (found : s.caches c.router sequence = some entry) :
      Moves disjoint s c sequence ((s.setEntry c.router sequence entry).setThread c (.waiting sequence))
  | claimed {entry : SeqState} (was : s.threads c = .entering sequence)
      (free : ∀ old, s.caches c.router sequence = some old → old.reserving = false ∧ old.block = entry.block)
      (fresh : s.caches c.router sequence = none → entry.block = .empty) (busy : entry.reserving = true) :
      Moves disjoint s c sequence ((s.setEntry c.router sequence entry).setThread c (.reserving sequence))
  | granted {start size : Int} (was : s.threads c = .reserving sequence)
      (fresh : disjoint → 0 < size ∧ ∀ b ∈ s.reserved sequence, start + size ≤ b.1 ∨ b.1 + b.2 ≤ start) :
      Moves disjoint s c sequence ((s.grant sequence start size).setThread c (.reserved sequence (.ok (start, size))))
  | failed {t : Thread} (was : s.threads c = .reserving sequence)
      (now : (∃ e, t = .reserved sequence (.error e)) ∨ t = .unwinding sequence) :
      Moves disjoint s c sequence (s.setThread c t)
  | cached {start size refillAt : Int} {entry : SeqState} (was : s.threads c = .reserved sequence (.ok (start, size)))
      (found : s.caches c.router sequence = some entry) (positive : 0 < size) :
      Moves disjoint s c sequence ((((s.setEntry c.router sequence
        ⟨⟨start + 1, start + size⟩, refillAt, false⟩).notifyAll c.router).setThread c .idle).giveOut sequence start)
  | released {entry : SeqState}
      (was : (∃ result, s.threads c = .reserved sequence result) ∨ s.threads c = .unwinding sequence)
      (found : s.caches c.router sequence = some entry) :
      Moves disjoint s c sequence
        (((s.setEntry c.router sequence { entry with reserving := false }).notifyAll c.router).setThread c .idle)

theorem enter_moves (was : s.threads c = .entering sequence) (taken : step s (.lock c) = some s') :
    Moves disjoint s c sequence s' := by
  simp only [step, was] at taken
  cases found : s.caches c.router sequence with
  | none =>
    simp only [found, enter] at taken
    cases taken
    exact .claimed was (fun _ old => by cases found.symm.trans old) (fun _ => rfl) rfl
  | some entry =>
    cases took : entry.block.take with
    | some result =>
      obtain ⟨id, block⟩ := result
      simp only [found, enter, took] at taken
      cases taken
      exact .took was found took
    | none =>
      by_cases busy : entry.reserving = true
      · simp only [found, enter, took, if_pos busy] at taken
        cases taken
        exact .waited was found
      · simp only [found, enter, took, if_neg busy] at taken
        cases taken
        refine .claimed was ?_ (fun absent => by cases absent.symm.trans found) rfl
        intro old here
        cases found.symm.trans here
        exact ⟨by simpa using busy, rfl⟩

theorem Block.new_take
    (taken : (Block.new start size).bind Block.take = some (id, block)) :
    id = start ∧ block = ⟨start + 1, start + size⟩ := by
  obtain ⟨whole, built, taken⟩ := Option.bind_eq_some_iff.mp taken
  obtain ⟨end_, sum, rfl⟩ := Option.map_eq_some_iff.mp built
  obtain ⟨-, rfl, rfl⟩ := Block.take_eq taken
  unfold checkedAdd at sum
  split at sum
  · cases sum
    exact ⟨rfl, rfl⟩
  · cases sum

theorem settle_moves {result : Except SeqError (Int × Int)} (was : s.threads c = .reserved sequence result)
    (taken : step s (.lock c) = some s') : Moves disjoint s c sequence s' := by
  simp only [step, was] at taken
  obtain ⟨entry, found, rfl⟩ := Option.map_eq_some_iff.mp taken
  cases result with
  | error e => exact .released (.inl ⟨_, was⟩) found
  | ok range =>
    obtain ⟨start, size⟩ := range
    by_cases positive : size ≤ 0
    · simp only [settle, if_pos positive]
      exact .released (.inl ⟨_, was⟩) found
    · simp only [settle, if_neg positive]
      cases took : (Block.new start size).bind Block.take with
      | none => exact .released (.inl ⟨_, was⟩) found
      | some given =>
        obtain ⟨id, block⟩ := given
        obtain ⟨rfl, rfl⟩ := Block.new_take took
        exact .cached was found (not_le.mp positive)

theorem step_moves (taken : step s choice = some s') :
    ∃ c sequence, Moves (disjointGrants s choice = true) s c sequence s' := by
  cases choice with
  | call c sequence =>
    cases was : s.threads c with
    | idle =>
      simp only [step, was] at taken
      cases taken
      exact ⟨c, sequence, .entered (.inl was)⟩
    | _ => simp [step, was] at taken
  | lock c =>
    cases was : s.threads c with
    | entering sequence => exact ⟨c, sequence, enter_moves was taken⟩
    | reserved sequence result => exact ⟨c, sequence, settle_moves was taken⟩
    | unwinding sequence =>
      simp only [step, was] at taken
      obtain ⟨entry, found, rfl⟩ := Option.map_eq_some_iff.mp taken
      exact ⟨c, sequence, .released (.inr was) found⟩
    | _ => simp [step, was] at taken
  | answer c answer =>
    cases was : s.threads c with
    | reserving sequence =>
      refine ⟨c, sequence, ?_⟩
      cases answer <;> simp only [step, was] at taken <;> cases taken
      · refine .granted was fun fit => ?_
        simpa only [disjointGrants, was, Bool.and_eq_true, decide_eq_true_eq, List.all_eq_true, Bool.or_eq_true] using fit
      · exact .failed was (.inl ⟨_, rfl⟩)
      · exact .failed was (.inr rfl)
    | _ => simp [step, was] at taken
  | wake c =>
    cases was : s.threads c with
    | waiting sequence =>
      simp only [step, was] at taken
      cases taken
      exact ⟨c, sequence, .entered (.inr was)⟩
    | _ => simp [step, was] at taken

/-! ## The ids held by caches and threads -/

/-- Who may hold ids not handed out yet. -/
inductive Holder
  | cache (router : Nat)
  | thread (c : Client)
  deriving DecidableEq

def Block.ids (b : Block) : Set Int := Set.Ico b.next b.end_

/-- The ids of the sequence in a block granted to the thread and not yet cached. -/
def Thread.ids (sequence : String) : Thread → Set Int
  | .reserved other (.ok (start, size)) => if other = sequence then Set.Ico start (start + size) else ∅
  | _ => ∅

def State.share (s : State) (sequence : String) : Holder → Set Int
  | .cache router => (s.caches router sequence).elim ∅ (·.block.ids)
  | .thread c => (s.threads c).ids sequence

def State.granted (s : State) (sequence : String) : Set Int :=
  { id | ∃ b ∈ s.reserved sequence, b.1 ≤ id ∧ id < b.1 + b.2 }

/-- What the run has made of the ids of a sequence. -/
def State.allotment (s : State) (sequence : String) : Allotment Holder Int :=
  ⟨s.granted sequence, s.share sequence, s.returned sequence⟩

namespace State

theorem share_setThread (t : Thread) :
    (s.setThread c t).share sequence = update (s.share sequence) (.thread c) (t.ids sequence) := by
  funext holder
  cases holder with
  | cache router => rfl
  | thread other =>
    by_cases here : other = c
    · subst here
      simp [share, setThread]
    · simp [share, setThread, here]

theorem share_setThread_le (after : t.ids sequence = ∅) : (s.setThread c t).share sequence ≤ s.share sequence := by
  rw [share_setThread, after, update_le_self_iff]
  exact Set.empty_subset _

theorem share_setEntry (router : Nat) (name : String) (entry : SeqState) :
    (s.setEntry router name entry).share sequence =
      if sequence = name then update (s.share sequence) (.cache router) entry.block.ids else s.share sequence := by
  funext holder
  cases holder with
  | thread other => split <;> rfl
  | cache other =>
    by_cases here : other = router <;> by_cases same : sequence = name <;> simp [share, setEntry, here, same]

theorem share_cache (found : s.caches router sequence = some entry) :
    s.share sequence (.cache router) = entry.block.ids := by
  simp [share, found]

theorem share_setEntry_le (smaller : entry.block.ids ⊆ s.share sequence (.cache router)) (other : String) :
    (s.setEntry router sequence entry).share other ≤ s.share other := by
  rw [share_setEntry]
  split
  · subst other
    exact update_le_self_iff.mpr smaller
  · exact le_rfl

theorem share_notifyAll (router : Nat) : (s.notifyAll router).share sequence = s.share sequence := by
  funext holder
  cases holder with
  | cache r => rfl
  | thread c =>
    change ((s.notifyAll router).threads c).ids sequence = (s.threads c).ids sequence
    cases at_ : s.threads c with
    | waiting other =>
      simp only [notifyAll, at_]
      split <;> rfl
    | _ => simp only [notifyAll, at_]

theorem fair_giveOut {other : String} (elsewhere : other ≠ sequence → (s.allotment other).Fair)
    (here : other = sequence → Fair { s.allotment other with spent := id :: s.returned other }) :
    ((s.giveOut sequence id).allotment other).Fair := by
  by_cases same : other = sequence
  · subst same
    have spent : (s.giveOut other id).returned other = id :: s.returned other := update_self ..
    rw [allotment, spent]
    exact here rfl
  · have kept : (s.giveOut sequence id).returned other = s.returned other := update_of_ne same ..
    rw [allotment, kept]
    exact elsewhere same

end State

theorem Block.ids_tail {end_ : Int} : (⟨start + 1, end_⟩ : Block).ids = Block.ids ⟨start, end_⟩ \ {start} := by
  ext id
  simp only [Block.ids, Set.mem_Ico, Set.mem_sdiff, Set.mem_singleton_iff]
  omega

theorem Block.next_mem {b : Block} (more : b.next < b.end_) : b.next ∈ b.ids :=
  ⟨le_refl _, more⟩

theorem cached_fair {refillAt : Int} (was : s.threads c = .reserved sequence (.ok (start, size))) (positive : 0 < size)
    (fair : (s.allotment sequence).Fair) :
    Fair { (((s.setEntry c.router sequence ⟨⟨start + 1, start + size⟩, refillAt, false⟩).notifyAll
      c.router).setThread c .idle).allotment sequence with spent := start :: s.returned sequence } := by
  have own : s.share sequence (.thread c) = Block.ids ⟨start, start + size⟩ := by
    simp [State.share, was, Thread.ids, Block.ids]
  have passed := fair.rearrange (Equiv.swap (Holder.thread c) (.cache c.router)).injective le_rfl
  have share : (((s.setEntry c.router sequence ⟨⟨start + 1, start + size⟩, refillAt, false⟩).notifyAll
      c.router).setThread c .idle).share sequence =
        update (update (s.share sequence) (.cache c.router) (s.share sequence (.thread c) \ {start}))
          (.thread c) ∅ := by
    rw [State.share_setThread, State.share_notifyAll, State.share_setEntry, if_pos rfl, Block.ids_tail, own]
    rfl
  refine passed.spend (i := .cache c.router) ?_ ?_ fun holder => ?_
  · have first : start ∈ Block.ids ⟨start, start + size⟩ := Block.next_mem (by simpa using positive)
    simpa [State.allotment, own] using first
  · simp [State.allotment, share]
  · change State.share _ _ _ ⊆ _
    rw [share]
    by_cases thread : holder = .thread c
    · simp [thread]
    by_cases cache : holder = .cache c.router
    · simp [cache, State.allotment]
    · simp [thread, cache, State.allotment, Equiv.swap_apply_of_ne_of_ne]

theorem Moves.fair (moves : Moves disjoint s c sequence s') (fit : disjoint) {other : String} (fair : (s.allotment other).Fair) :
    (s'.allotment other).Fair := by
  cases moves with
  | entered was => exact fair.shrink (State.share_setThread_le rfl)
  | @took entry block id was found taken =>
    obtain ⟨more, rfl, rfl⟩ := Block.take_eq taken
    have held := State.share_cache found
    have shrinks : ((s.setEntry c.router sequence
        { entry with block := ⟨entry.block.next + 1, entry.block.end_⟩ }).setThread c .idle).share other ≤ s.share other := by
      refine (State.share_setThread_le rfl).trans (State.share_setEntry_le ?_ other)
      rw [held, Block.ids_tail]
      exact Set.sdiff_subset
    refine State.fair_giveOut (fun _ => fair.shrink shrinks) ?_
    rintro rfl
    have member : entry.block.next ∈ (s.allotment other).share (.cache c.router) := by
      simpa only [State.allotment, held] using Block.next_mem more
    refine fair.spend member ?_ shrinks
    simp [State.allotment, State.share, State.setThread, State.setEntry, Block.ids]
  | waited was found =>
    exact fair.shrink ((State.share_setThread_le rfl).trans (State.share_setEntry_le (State.share_cache found).ge other))
  | @claimed entry was free fresh =>
    refine fair.shrink ((State.share_setThread_le rfl).trans (State.share_setEntry_le ?_ other))
    cases found : s.caches c.router sequence with
    | none => simp [fresh found, Block.ids, Block.empty]
    | some old => rw [State.share_cache found, (free old found).2]
  | @granted start size was fresh =>
    by_cases here : other = sequence
    · subst here
      have apart : Disjoint (Set.Ico start (start + size)) (s.granted other) := by
        refine Set.disjoint_left.mpr ?_
        rintro id ⟨above, below⟩ ⟨b, member, first, last⟩
        rcases (fresh fit).2 b member with before | after <;> omega
      have grants : ((s.grant other start size).setThread c (.reserved other (.ok (start, size)))).granted other =
          Set.Ico start (start + size) ∪ s.granted other := by
        ext id
        simp [State.granted, State.grant, State.setThread]
      rw [State.allotment, grants, State.share_setThread]
      refine fair.grant (i := .thread c) apart ?_ fun holder elsewhere => ?_
      · simp [Thread.ids]
      · simp [elsewhere, State.allotment]
        rfl
    · have kept : ((s.grant sequence start size).setThread c (.reserved sequence (.ok (start, size)))).granted other =
          s.granted other := by
        simp [State.granted, State.grant, State.setThread, here]
      rw [State.allotment, kept]
      exact fair.shrink (State.share_setThread_le (if_neg (Ne.symm here)))
  | failed was now =>
    refine fair.shrink (State.share_setThread_le ?_)
    rcases now with ⟨e, rfl⟩ | rfl <;> rfl
  | @cached start size refillAt entry was _ positive =>
    refine State.fair_giveOut (fun elsewhere => fair.shrink ?_) ?_
    · refine (State.share_setThread_le rfl).trans ?_
      rw [State.share_notifyAll, State.share_setEntry, if_neg elsewhere]
      rfl
    · rintro rfl
      exact cached_fair was positive fair
  | released was found =>
    refine fair.shrink ((State.share_setThread_le rfl).trans ?_)
    rw [State.share_notifyAll]
    exact State.share_setEntry_le (by exact (State.share_cache found).ge) other

/-! ## One reservation at a time -/

def Thread.claim : Thread → Option String
  | .reserving sequence => some sequence
  | .reserved sequence _ => some sequence
  | .unwinding sequence => some sequence
  | _ => none

def State.claim (s : State) (c : Client) : Option String := (s.threads c).claim

/-- The router's entry of the sequence says that it is being reserved. -/
def State.busy (s : State) (router : Nat) (sequence : String) : Bool :=
  (s.caches router sequence).any (·.reserving)

/-- Two threads of a router never hold one claim, and what is claimed is marked. -/
structure SingleFlight (claim : Client → Option String) (busy : Nat → String → Bool) : Prop where
  alone : ∀ {c o sequence}, c.router = o.router → claim c = some sequence → claim o = some sequence → c = o
  marked : ∀ {c sequence}, claim c = some sequence → busy c.router sequence = true

theorem SingleFlight.turn {claim : Client → Option String} {busy : Nat → String → Bool}
    (single : SingleFlight claim busy) (now : Option String) (mark : Bool)
    (sole : ∀ o, o.router = c.router → claim o = some sequence → o = c)
    (own : ∀ name, now = some name → name = sequence ∧ mark = true) :
    SingleFlight (update claim c now)
      (update busy c.router (update (busy c.router) sequence mark)) := by
  have before : ∀ {o name}, update claim c now o = some name →
      (o = c ∧ name = sequence ∧ mark = true) ∨ (o ≠ c ∧ claim o = some name) := by
    intro o name holds
    by_cases here : o = c
    · subst here
      exact .inl ⟨rfl, own name (by simpa using holds)⟩
    · exact .inr ⟨here, by simpa [here] using holds⟩
  constructor
  · intro o o' name together first second
    rcases before first with ⟨rfl, rfl, -⟩ | ⟨-, held⟩ <;> rcases before second with ⟨rfl, same, -⟩ | ⟨-, held'⟩
    · rfl
    · exact (sole o' together.symm held').symm
    · exact sole o together (same ▸ held)
    · exact single.alone together held held'
  · intro o name holds
    rcases before holds with ⟨rfl, rfl, rfl⟩ | ⟨other, holds⟩
    · simp
    · have marked := single.marked holds
      by_cases here : o.router = c.router
      · have apart : name ≠ sequence := fun same => other (sole o here (same ▸ holds))
        rw [here] at marked ⊢
        simpa [apart] using marked
      · simpa [here] using marked

namespace State

theorem claim_setThread (t : Thread) : (s.setThread c t).claim = update s.claim c t.claim := by
  funext o
  by_cases here : o = c
  · subst here
    simp [claim, setThread]
  · simp [claim, setThread, here]

theorem claim_kept (same : t.claim = s.claim c) : (s.setThread c t).claim = s.claim := by
  rw [claim_setThread, same, update_eq_self]

theorem busy_setEntry (router : Nat) (entry : SeqState) :
    (s.setEntry router sequence entry).busy =
      update s.busy router (update (s.busy router) sequence entry.reserving) := by
  funext other name
  by_cases here : other = router
  · subst here
    by_cases same : name = sequence <;> simp [busy, setEntry, same]
  · simp [busy, setEntry, here]

theorem busy_kept (found : s.caches router sequence = some old) (same : entry.reserving = old.reserving) :
    (s.setEntry router sequence entry).busy = s.busy := by
  have mark : entry.reserving = s.busy router sequence := by simp [busy, found, same]
  rw [busy_setEntry, mark, update_eq_self, update_eq_self]

theorem claim_notifyAll (router : Nat) : (s.notifyAll router).claim = s.claim := by
  funext c
  simp only [claim, notifyAll]
  cases s.threads c with
  | waiting sequence =>
    dsimp only
    split <;> rfl
  | _ => rfl

end State

theorem SingleFlight.settles (single : SingleFlight s.claim s.busy) (claimed : s.claim c = some sequence)
    (done : entry.reserving = false) :
    SingleFlight (((s.setEntry c.router sequence entry).notifyAll c.router).setThread c .idle).claim
      (((s.setEntry c.router sequence entry).notifyAll c.router).setThread c .idle).busy := by
  have settled := single.turn none false (fun o together holds => single.alone together holds claimed)
    fun _ claims => by cases claims
  rw [← done, ← State.busy_setEntry] at settled
  rw [State.claim_setThread, State.claim_notifyAll]
  exact settled

theorem SingleFlight.step (single : SingleFlight s.claim s.busy) (moves : Moves disjoint s c sequence s') :
    SingleFlight s'.claim s'.busy := by
  -- a step after which every claim and every mark is as before
  have same : ∀ {t : State}, t.claim = s.claim → t.busy = s.busy → SingleFlight t.claim t.busy := by
    intro t claims marks
    rwa [claims, marks]
  have at_ : ∀ {t}, s.threads c = t → s.claim c = t.claim := fun was => congrArg Thread.claim was
  cases moves with
  | entered was =>
    refine same (State.claim_kept ?_) rfl
    rcases was with was | was <;> exact (at_ was).symm
  | granted was => exact same (State.claim_kept (at_ was).symm) rfl
  | failed was now =>
    refine same (State.claim_kept ?_) rfl
    rcases now with ⟨e, rfl⟩ | rfl <;> exact (at_ was).symm
  | took was found => exact same (State.claim_kept (at_ was).symm) (State.busy_kept found rfl)
  | waited was found => exact same (State.claim_kept (at_ was).symm) (State.busy_kept found rfl)
  | claimed was free fresh busy =>
    have unmarked : s.busy c.router sequence = false := by
      cases found : s.caches c.router sequence with
      | none => simp [State.busy, found]
      | some old => simp [State.busy, found, (free old found).1]
    have claimed := single.turn (some sequence) true
      (fun o together holds => by cases unmarked.symm.trans (together ▸ single.marked holds)) fun name claims => by
        cases claims
        exact ⟨rfl, rfl⟩
    rw [← busy, ← State.busy_setEntry] at claimed
    rw [State.claim_setThread]
    exact claimed
  | cached was => exact single.settles (at_ was) rfl
  | released was =>
    refine single.settles ?_ rfl
    rcases was with ⟨result, was⟩ | was <;> exact at_ was

/-! ## Whole runs -/

theorem Reached.fair (reached : Reached s) (sequence : String) : (s.allotment sequence).Fair := by
  induction reached with
  | start =>
    have nothing : State.granted {} sequence = ∅ := by simp [State.granted]
    rw [State.allotment, nothing]
    exact fair_empty fun holder => by cases holder <;> rfl
  | next _ fit taken fair =>
    obtain ⟨c, name, moves⟩ := step_moves taken
    exact moves.fair fit fair

theorem singleFlight_of_under {allowed : State → Choice → Bool} (reached : Runs.Under step allowed {} s) :
    SingleFlight s.claim s.busy := by
  induction reached with
  | start => exact ⟨fun _ holds => (by cases holds), fun holds => (by cases holds)⟩
  | next _ _ taken single =>
    obtain ⟨c, name, moves⟩ := step_moves taken
    exact single.step moves

/-- No id of a sequence is returned twice, every id returned is in a block reserved
for the sequence, and a router has one reservation of a sequence in flight at most. -/
theorem ids_unique (reached : Reached s) :
    (∀ sequence, (s.returned sequence).Nodup) ∧
      (∀ sequence, ∀ id ∈ s.returned sequence, ∃ b ∈ s.reserved sequence, b.1 ≤ id ∧ id < b.1 + b.2) ∧
      ∀ c o sequence, c.router = o.router → s.threads c = .reserving sequence → s.threads o = .reserving sequence →
        c = o := by
  refine ⟨fun sequence => (reached.fair sequence).once, fun sequence id member => ?_, ?_⟩
  · exact (reached.fair sequence).spent_within member
  · intro c o sequence together first second
    exact (singleFlight_of_under reached).alone together (congrArg Thread.claim first) (congrArg Thread.claim second)

/-- Two threads of one router and one of another want an id. The first reservation
panics, and the thread that waited for it reserves in its place. -/
def racing : List Choice :=
  [.call ⟨0, 0⟩ "orders", .call ⟨0, 1⟩ "orders", .call ⟨1, 0⟩ "orders", .lock ⟨0, 0⟩, .lock ⟨0, 1⟩, .lock ⟨1, 0⟩,
    .answer ⟨0, 0⟩ .panicked, .lock ⟨0, 0⟩, .lock ⟨0, 1⟩, .answer ⟨0, 1⟩ (.granted 1 10), .answer ⟨1, 0⟩ (.granted 11 10),
    .lock ⟨0, 1⟩, .lock ⟨1, 0⟩, .call ⟨0, 0⟩ "orders", .lock ⟨0, 0⟩]

theorem ids_unique_racing : ∃ s, Reached s ∧ s.returned "orders" = [2, 11, 1] ∧ (s.returned "orders").Nodup ∧
    ∀ id ∈ s.returned "orders", ∃ b ∈ s.reserved "orders", b.1 ≤ id ∧ id < b.1 + b.2 := by
  have ran : (Runs.exec step disjointGrants {} racing).any (fun s => s.returned "orders" == [2, 11, 1]) = true := by
    decide +kernel
  obtain ⟨s, under, returned⟩ := Runs.Under.exists_of_exec ran
  exact ⟨s, under, beq_iff_eq.mp returned, (ids_unique under).1 _, (ids_unique under).2.1 _⟩

end PgShard.Seq
