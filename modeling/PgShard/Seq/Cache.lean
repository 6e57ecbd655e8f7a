import PgShard.Lib.Allotment
import PgShard.Lib.Quote
import PgShard.Lib.Runs

/-! The block cache of global sequences. A step is one critical section of the cache's lock, or an answer of the
reservation backend. -/

namespace PgShard.Seq

inductive SeqError
  | unknownSequence (sequence : String)
  | backend (message : String)
  | exhausted (sequence : String)
  deriving DecidableEq

def checkedAdd (a b : Int) : Option Int :=
  if -2 ^ 63 ≤ a + b ∧ a + b < 2 ^ 63 then some (a + b) else none

/-- A reserved, still usable range of ids, its end excluded. -/
structure Block where
  next : Int
  end_ : Int
  deriving DecidableEq

namespace Block

def new (start size : Int) : Option Block :=
  (checkedAdd start size).map fun end_ => ⟨start, end_⟩

def empty : Block := ⟨0, 0⟩

def take (b : Block) : Option (Int × Block) :=
  if b.next < b.end_ then some (b.next, { b with next := b.next + 1 }) else none

end Block

structure SeqState where
  block : Block
  refillAt : Int
  reserving : Bool
  deriving DecidableEq

/-! ## One call of next_id -/

inductive Turn
  | returns (id : Int)
  | waits
  | reserves

def enter : Option SeqState → SeqState × Turn
  | some entry =>
    match entry.block.take with
    | some (id, block) => ({ entry with block }, .returns id)
    | none => if entry.reserving then (entry, .waits) else ({ entry with reserving := true }, .reserves)
  | none => (⟨.empty, 0, true⟩, .reserves)

def settle (sequence : String) (entry : SeqState) (result : Except SeqError (Int × Int)) :
    SeqState × Except SeqError Int :=
  let entry := { entry with reserving := false }
  match result with
  | .error e => (entry, .error e)
  | .ok (start, size) =>
    if size ≤ 0 then
      let name := Quote.debug sequence
      (entry, .error (.backend s!"sequence {name} reserved a non-positive block size {size}"))
    else
      match (Block.new start size).bind Block.take with
      | none => (entry, .error (.exhausted sequence))
      | some (id, block) => ({ entry with block, refillAt := max (size.tdiv 5) 1 }, .ok id)

/-! ## Routers and threads -/

/-- Where a thread is in `next_id`. In `reserving`, `reserved` and `unwinding` it
holds the reservation claim of its sequence. -/
inductive Thread
  | idle
  | entering (sequence : String)
  | waiting (sequence : String)
  | reserving (sequence : String)
  | reserved (sequence : String) (result : Except SeqError (Int × Int))
  | unwinding (sequence : String)

structure Client where
  router : Nat
  thread : Nat
  deriving DecidableEq

/-- `reserved` and `returned` are the blocks granted and the ids given to callers so
far, latest first. -/
structure State where
  caches : Nat → String → Option SeqState := fun _ _ => none
  threads : Client → Thread := fun _ => .idle
  reserved : String → List (Int × Int) := fun _ => []
  returned : String → List Int := fun _ => []

namespace State

def setThread (s : State) (c : Client) (t : Thread) : State :=
  { s with threads := Function.update s.threads c t }

def setEntry (s : State) (router : Nat) (sequence : String) (entry : SeqState) : State :=
  { s with caches := Function.update s.caches router (Function.update (s.caches router) sequence (some entry)) }

def grant (s : State) (sequence : String) (start size : Int) : State :=
  { s with reserved := Function.update s.reserved sequence ((start, size) :: s.reserved sequence) }

def giveOut (s : State) (sequence : String) (id : Int) : State :=
  { s with returned := Function.update s.returned sequence (id :: s.returned sequence) }

def notifyAll (s : State) (router : Nat) : State :=
  { s with threads := fun c => match s.threads c with
    | .waiting sequence => if c.router = router then .entering sequence else .waiting sequence
    | t => t }

end State

inductive Answer
  | granted (start size : Int)
  | failed (e : SeqError)
  | panicked

inductive Choice
  | call (c : Client) (sequence : String)
  | lock (c : Client)
  | answer (c : Client) (answer : Answer)
  | wake (c : Client)

/-- `lock` takes the cache's lock and runs up to the point where it is given up; a
waiting thread may also wake by itself. -/
def step (s : State) : Choice → Option State
  | .call c sequence =>
    match s.threads c with
    | .idle => some (s.setThread c (.entering sequence))
    | _ => none
  | .lock c =>
    match s.threads c with
    | .entering sequence =>
      let (entry, turn) := enter (s.caches c.router sequence)
      let s := s.setEntry c.router sequence entry
      match turn with
      | .returns id => some ((s.setThread c .idle).giveOut sequence id)
      | .waits => some (s.setThread c (.waiting sequence))
      | .reserves => some (s.setThread c (.reserving sequence))
    | .reserved sequence result =>
      (s.caches c.router sequence).map fun entry =>
        let (entry, outcome) := settle sequence entry result
        let s := ((s.setEntry c.router sequence entry).notifyAll c.router).setThread c .idle
        match outcome with
        | .ok id => s.giveOut sequence id
        | .error _ => s
    | .unwinding sequence =>
      (s.caches c.router sequence).map fun entry =>
        ((s.setEntry c.router sequence { entry with reserving := false }).notifyAll c.router).setThread c .idle
    | _ => none
  | .answer c answer =>
    match s.threads c with
    | .reserving sequence =>
      match answer with
      | .granted start size => some ((s.grant sequence start size).setThread c (.reserved sequence (.ok (start, size))))
      | .failed e => some (s.setThread c (.reserved sequence (.error e)))
      | .panicked => some (s.setThread c (.unwinding sequence))
    | _ => none
  | .wake c =>
    match s.threads c with
    | .waiting sequence => some (s.setThread c (.entering sequence))
    | _ => none

/-- A block that the backend grants is not empty and meets no block it has granted
for the sequence before. -/
def disjointGrants (s : State) : Choice → Bool
  | .answer c (.granted start size) =>
    match s.threads c with
    | .reserving sequence =>
      0 < size && (s.reserved sequence).all fun b => start + size ≤ b.1 || b.1 + b.2 ≤ start
    | _ => true
  | _ => true

abbrev Reached : State → Prop :=
  Runs.Under step disjointGrants {}

end PgShard.Seq
