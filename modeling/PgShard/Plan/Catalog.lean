import PgShard.Core.Partition

namespace PgShard

structure ShardId where
  id : String
  deriving DecidableEq

/-- The shards of one database in keyspace order. Their ranges partition the
keyspace, so every id has an owner. -/
structure ShardCatalog where
  shards : List (KeyRange × ShardId)
  partition : validatePartition (shards.map Prod.fst) = .ok ()

def ShardCatalog.new (shards : List (KeyRange × ShardId)) : Except PartitionError ShardCatalog :=
  match valid : validatePartition (shards.map Prod.fst) with
  | .ok () => .ok ⟨shards, valid⟩
  | .error e => .error e

theorem ShardCatalog.new_shards {shards : List (KeyRange × ShardId)} {c : ShardCatalog}
    (made : ShardCatalog.new shards = .ok c) : c.shards = shards := by
  unfold ShardCatalog.new at made
  split at made
  · cases made
    rfl
  · cases made

theorem ShardCatalog.owner_isSome (c : ShardCatalog) (id : KeyspaceId) :
    (c.shards.find? (fun s => s.1.contains id)).isSome = true := by
  obtain ⟨r, member, inside⟩ := validatePartition_covers c.partition id
  obtain ⟨s, shard, rfl⟩ := List.mem_map.mp member
  exact List.find?_isSome.mpr ⟨s, shard, inside⟩

/-- The shard owning `id`. The lookup cannot fail on a validated partition. -/
def ShardCatalog.route (c : ShardCatalog) (id : KeyspaceId) : ShardId :=
  ((c.shards.find? (fun s => s.1.contains id)).get (c.owner_isSome id)).2

def ShardCatalog.all (c : ShardCatalog) : List ShardId := c.shards.map Prod.snd

theorem ShardCatalog.route_eq {c : ShardCatalog} {id : KeyspaceId} {r : KeyRange} {s : ShardId}
    (found : c.shards.find? (fun s => s.1.contains id) = some (r, s)) : c.route id = s := by
  simp only [ShardCatalog.route, found, Option.get_some]

theorem ShardCatalog.route_owns (c : ShardCatalog) (id : KeyspaceId) :
    ∃ r, (r, c.route id) ∈ c.shards ∧ r.contains id = true := by
  obtain ⟨⟨r, s⟩, found⟩ := Option.isSome_iff_exists.mp (c.owner_isSome id)
  refine ⟨r, ?_, ?_⟩
  · rw [ShardCatalog.route_eq found]
    exact List.mem_of_find?_eq_some found
  · simpa using List.find?_some found

theorem ShardCatalog.route_unique (c : ShardCatalog) (id : KeyspaceId) :
    ∃ r, (r, c.route id) ∈ c.shards ∧ r.contains id = true ∧
      ∀ s ∈ c.shards, s.1.contains id = true → s = (r, c.route id) := by
  obtain ⟨r, member, inside⟩ := c.route_owns id
  have one := validatePartition_owners c.partition id
  rw [owners, List.countP_map, List.countP_eq_length_filter] at one
  obtain ⟨owner, only⟩ := List.length_eq_one_iff.mp one
  have isOwner : ∀ s ∈ c.shards, s.1.contains id = true → s = owner := by
    intro s listed holds
    rw [← List.mem_singleton, ← only, List.mem_filter]
    exact ⟨listed, holds⟩
  refine ⟨r, member, inside, fun s listed holds => ?_⟩
  rw [isOwner s listed holds, isOwner _ member inside]

theorem ShardCatalog.route_mem_all (c : ShardCatalog) (id : KeyspaceId) : c.route id ∈ c.all := by
  obtain ⟨r, member, _⟩ := c.route_owns id
  exact List.mem_map.mpr ⟨_, member, rfl⟩

def KeyRange.below (cut : Fin (2 ^ 64)) (positive : 0 < cut) : KeyRange :=
  ⟨0, some cut, by rintro e ⟨⟩; exact positive⟩

def KeyRange.atLeast (cut : Fin (2 ^ 64)) : KeyRange := ⟨cut, none, KeyRange.nonempty_open cut⟩

theorem KeyRange.below_contains {cut : Fin (2 ^ 64)} (positive : 0 < cut) (id : KeyspaceId) :
    (KeyRange.below cut positive).contains id = true ↔ id < cut := by
  simp [KeyRange.contains_iff, KeyRange.below, KeyRange.endExclusive]

theorem KeyRange.atLeast_contains (cut : Fin (2 ^ 64)) (id : KeyspaceId) :
    (KeyRange.atLeast cut).contains id = true ↔ cut ≤ id := by
  simp [KeyRange.contains_iff, KeyRange.atLeast, KeyRange.endExclusive]

def ShardCatalog.split (cut : Fin (2 ^ 64)) (positive : 0 < cut) (low high : ShardId) : ShardCatalog :=
  ⟨[(KeyRange.below cut positive, low), (KeyRange.atLeast cut, high)], by
    simp [validatePartition, validateWindows, KeyRange.below, KeyRange.atLeast]; rfl⟩

theorem ShardCatalog.split_route {cut : Fin (2 ^ 64)} (positive : 0 < cut) (low high : ShardId)
    (id : KeyspaceId) :
    (ShardCatalog.split cut positive low high).route id = if id < cut then low else high := by
  by_cases below : id < cut
  · rw [if_pos below]
    exact ShardCatalog.route_eq (List.find?_cons_of_pos ((KeyRange.below_contains positive id).mpr below))
  · rw [if_neg below]
    refine ShardCatalog.route_eq (r := KeyRange.atLeast cut) ?_
    have outside : ¬ (KeyRange.below cut positive).contains id = true :=
      fun inside => below ((KeyRange.below_contains positive id).mp inside)
    have inside : (KeyRange.atLeast cut).contains id = true :=
      (KeyRange.atLeast_contains cut id).mpr (not_lt.mp below)
    simp [ShardCatalog.split, outside, inside]

end PgShard
