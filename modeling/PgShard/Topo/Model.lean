import PgShard.Core.KeyRangeText
import PgShard.Core.Partition
import PgShard.Lib.Quote

/-! The topology that routers follow, as its source publishes it, and what a snapshot
must pass before it is applied. -/

namespace PgShard.Topo

open Quote

structure Instance where
  pod : String
  host : String
  port : Nat := 5432
  canRead : Bool := false
  deriving DecidableEq

inductive ShardState
  | serving
  | buffered
  | readOnly
  | draining
  | hidden
  deriving DecidableEq

structure ShardEntry where
  name : String
  keyRange : KeyRange
  state : ShardState
  primary : Option Instance := none
  replicas : List Instance := []
  deriving DecidableEq

inductive TableType
  | sharded
  | global
  deriving DecidableEq

structure Sequence where
  column : String
  sequence : String
  deriving DecidableEq

inductive ShardKeyType
  | int
  | text
  | uuid
  | bytea
  deriving DecidableEq

structure TableEntry where
  schema : String
  name : String
  tableType : TableType
  shardKeyColumn : Option String := none
  shardKeyType : Option ShardKeyType := none
  sequences : List Sequence := []
  deriving DecidableEq

inductive GateMode
  | bufferWrites
  | bufferAll
  deriving DecidableEq

structure GateMatch where
  all : Bool := false
  tables : List String := []
  keyRanges : List KeyRange := []
  deriving DecidableEq

structure GateSpec where
  id : String
  matcher : GateMatch
  mode : GateMode := .bufferWrites
  deadline : String
  minTopologyGeneration : Nat := 0
  deriving DecidableEq

structure Topology where
  epoch : Nat
  topologyGeneration : Nat
  writeLeaseSeconds : Nat := 10
  hashFunction : String := "xxhash64_v1"
  shards : List ShardEntry := []
  tables : List TableEntry := []
  gates : List GateSpec := []
  sequenceEndpoint : Option Instance := none
  deriving DecidableEq

/-! ## Bounds -/

/-- A key range as its two bounds are written; an empty end is the top of the space. -/
structure Bounds where
  start : String := ""
  stop : String := ""
  deriving DecidableEq

def hex018 (v : Fin (2 ^ 64)) : String :=
  "0x" ++ String.ofList (Hex.padded 16 v.val)

def keyRangeErrorText : KeyRangeError → String
  | .empty start stop => "empty range: start " ++ hex018 start ++ " >= end " ++ hex018 stop
  | .invalidBound text =>
    "invalid bound " ++ debug text ++ ": expected lowercase hex, even number of digits, at most 16"
  | .invalidSyntax text => "invalid range syntax " ++ debug text ++ ": expected \"<start>-<end>\""
  | .invalidSplit parts => "cannot split into " ++ toString parts ++ " parts: range too narrow or parts == 0"

def canonicalBound (s : String) : Except String (Fin (2 ^ 64)) :=
  match parseBound s with
  | .error e => .error (keyRangeErrorText e)
  | .ok value =>
    if formatBound value ≠ s then
      .error ("noncanonical key-range bound " ++ debug s ++ ": expected " ++ debug (formatBound value))
    else .ok value

def Bounds.fromRange (r : KeyRange) : Bounds :=
  ⟨formatBound r.start, (r.stop.map formatBound).getD ""⟩

def Bounds.intoRange (b : Bounds) : Except String KeyRange := do
  let start ← canonicalBound b.start
  let stop ← if b.stop = "" then .ok none else some <$> canonicalBound b.stop
  match KeyRange.new start stop with
  | .ok r => .ok r
  | .error e => .error (keyRangeErrorText e)

theorem canonicalBound_iff {s : String} {v : Fin (2 ^ 64)} : canonicalBound s = .ok v ↔ s = formatBound v := by
  constructor
  · intro accepted
    unfold canonicalBound at accepted
    split at accepted
    · cases accepted
    · split_ifs at accepted with other
      cases accepted
      exact (not_not.mp other).symm
  · rintro rfl
    simp only [canonicalBound, parseBound_formatBound, ne_eq, not_true_eq_false, if_false]

theorem canonicalBound_formatBound (v : Fin (2 ^ 64)) : canonicalBound (formatBound v) = .ok v :=
  canonicalBound_iff.mpr rfl

theorem Bounds.intoRange_fromRange (r : KeyRange) : (Bounds.fromRange r).intoRange = .ok r := by
  have made := r.new_eq
  obtain ⟨start, stop, nonempty⟩ := r
  cases stop with
  | none =>
    simp only [Bounds.fromRange, Bounds.intoRange, canonicalBound_formatBound, bind, Except.bind, Option.map_none,
      Option.getD_none, if_true]
    rw [made]
  | some e =>
    have nonempty : formatBound e ≠ "" := fun empty =>
      KeyRange.stop_ne_zero (rfl : KeyRange.stop ⟨start, some e, nonempty⟩ = some e)
        (formatBound_eq_empty_iff.mp empty)
    simp only [Bounds.fromRange, Bounds.intoRange, canonicalBound_formatBound, bind, Except.bind, Option.map_some,
      Option.getD_some, nonempty, if_false, Functor.map, Except.map]
    rw [made]

/-! ## Validation -/

inductive TopologyError
  | io (message : String)
  | parse (message : String)
  | invalid (message : String)
  deriving DecidableEq

def optionText : Option (Fin (2 ^ 64)) → String
  | none => "None"
  | some v => "Some(" ++ toString v.val ++ ")"

def partitionErrorText : PartitionError → String
  | .empty => "no ranges"
  | .doesNotStartAtZero start => "first range starts at " ++ hex018 start ++ ", not 0"
  | .gapOrOverlap index prevEnd nextStart =>
    "range " ++ toString index ++ " starts at " ++ hex018 nextStart ++ " but previous range ends at " ++ optionText prevEnd
  | .doesNotEndAtMax stop => "last range ends at " ++ hex018 stop ++ " instead of the top of the keyspace"

def Topology.servingRanges (t : Topology) : List KeyRange :=
  (t.shards.filter (·.state == .serving)).map (·.keyRange)

def validate (t : Topology) : Except TopologyError Unit :=
  if t.epoch = 0 then .error (.invalid "epoch must be >= 1")
  else if ¬ (1 ≤ t.writeLeaseSeconds ∧ t.writeLeaseSeconds ≤ 60) then
    .error (.invalid ("writeLeaseSeconds " ++ toString t.writeLeaseSeconds ++ " must be between 1 and 60"))
  else if t.topologyGeneration = 0 then .error (.invalid "topologyGeneration must be >= 1")
  else if t.hashFunction ≠ "xxhash64_v1" then .error (.invalid ("unknown shard function " ++ debug t.hashFunction))
  else
    match validatePartition (sortByStart t.servingRanges) with
    | .error e => .error (.invalid ("serving shards: " ++ partitionErrorText e))
    | .ok () => .ok ()

theorem validate_owners {t : Topology} (valid : validate t = .ok ()) (id : KeyspaceId) :
    owners t.servingRanges id = 1 := by
  unfold validate at valid
  split_ifs at valid
  split at valid
  · cases valid
  · exact validatePartition_sortByStart_iff.mp ‹_› id

end PgShard.Topo
