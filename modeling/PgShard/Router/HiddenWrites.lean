import PgShard.Plan.Scopes
import PgShard.Router.Dispatch

/-! SELECTs that write, which the router has to treat as writes. -/

namespace PgShard

open Router

/-- The leaf that PostgreSQL finds by going down the left arms of a set operation. -/
inductive LeftmostArm : SelectStmt → SelectStmt → Prop
  | leaf {s : SelectStmt} : s.op = .none → LeftmostArm s s
  | down {s left leaf : SelectStmt} : s.op ≠ .none → s.larg = some left → LeftmostArm left leaf → LeftmostArm s leaf

/-- `SELECT ... INTO`: the clause stands on the statement or on its leftmost arm. -/
def SelectStmt.CreatesRelation (s : SelectStmt) : Prop :=
  s.intoClause.isSome ∨ ∃ leaf, LeftmostArm s leaf ∧ leaf.intoClause.isSome

inductive DataModifying : NodeEnum → Prop
  | insert (s : InsertStmt) : DataModifying (.insertStmt s)
  | update (s : UpdateStmt) : DataModifying (.updateStmt s)
  | delete (s : DeleteStmt) : DataModifying (.deleteStmt s)
  | merge (children : List Node) : DataModifying (.utility .merge children)

/-- A common table expression of the statement's own WITH clause changes rows. -/
def SelectStmt.ModifiesRows (s : SelectStmt) : Prop :=
  ∃ clause, s.withClause = some clause ∧
    ∃ name query, some (.commonTableExpr name (some query)) ∈ clause.ctes ∧ DataModifying query

def SelectStmt.Writes (s : SelectStmt) : Prop :=
  s.CreatesRelation ∨ s.ModifiesRows

/-- The statement is no read to the classifier, the planner and the lease check: it is never planned as local to the
session, and under an expired lease the router itself refuses it. -/
structure SelectStmt.KeptOffReads (s : SelectStmt) : Prop where
  classified : classify (some (.selectStmt s)) ≠ .select
  planned : ∀ (xxh64 : Xxh64) (vschema : VSchema) (shards : ShardCatalog),
    plan xxh64 (classify (some (.selectStmt s))) (.selectStmt s) vschema shards ≠ .routerLocal
  refused : ∀ (xxh64 : Xxh64) (router : Router) (freshness : Freshness) (wall : Nat) (bootNow : Option Nat),
    leaseExpired (freshness.age wall bootNow) router.writeLease = true →
    doQuery xxh64 router (some freshness) wall bootNow [some (.selectStmt s)] =
      .error (leaseRefusal (freshness.age wall bootNow) router.writeLease)

section

variable {s : SelectStmt}

theorem isWritableCte_iff {cte : Node} :
    isWritableCte cte = true ↔ ∃ name query, cte = some (.commonTableExpr name (some query)) ∧ DataModifying query := by
  constructor
  · intro writable
    unfold isWritableCte at writable
    split at writable
    · exact ⟨_, _, rfl, .insert _⟩
    · exact ⟨_, _, rfl, .update _⟩
    · exact ⟨_, _, rfl, .delete _⟩
    · exact ⟨_, _, rfl, .merge _⟩
    · cases writable
  · rintro ⟨name, query, rfl, modifying⟩
    cases modifying <;> rfl

theorem hasWritableCte_iff : hasWritableCte s = true ↔ s.ModifiesRows := by
  unfold hasWritableCte SelectStmt.ModifiesRows
  split
  · rename_i absent
    simp [absent]
  · rename_i clause present
    simp only [List.any_eq_true, isWritableCte_iff, present, Option.some.injEq, exists_eq_left']
    constructor
    · rintro ⟨_, member, name, query, rfl, modifying⟩
      exact ⟨name, query, member, modifying⟩
    · rintro ⟨name, query, member, modifying⟩
      exact ⟨_, member, name, query, rfl, modifying⟩

theorem classify_selectStmt : classify (some (.selectStmt s)) =
    if s.intoClause.isSome then .ddl else if hasWritableCte s then .other else .select := rfl

/-- A SELECT is classified as a read exactly if the clauses on its own node do not write. -/
theorem classify_ne_select_iff :
    classify (some (.selectStmt s)) ≠ .select ↔ s.intoClause.isSome = true ∨ s.ModifiesRows := by
  rw [classify_selectStmt, ← hasWritableCte_iff]
  cases s.intoClause.isSome <;> cases hasWritableCte s <;> simp

theorem classify_cases (notRead : classify (some (.selectStmt s)) ≠ .select) :
    classify (some (.selectStmt s)) = .ddl ∨ classify (some (.selectStmt s)) = .other := by
  rw [classify_selectStmt] at notRead ⊢
  split_ifs at notRead ⊢
  · exact .inl rfl
  · exact .inr rfl
  · exact absurd rfl notRead

theorem keptOffReads_of_classified (notRead : classify (some (.selectStmt s)) ≠ .select) : s.KeptOffReads where
  classified := notRead
  planned xxh64 vschema shards := by
    rcases classify_cases notRead with kind | kind <;> simp [kind, plan, reject]
  refused xxh64 router freshness wall bootNow expired := by
    refine doQuery_refused ?_ expired
    rcases classify_cases notRead with kind | kind <;> rw [kind] <;> rfl

end

/-- A SELECT that writes is kept off the reads, unless its only write is an INTO clause on the leftmost arm of a set
operation: the classifier reads the clauses of the top node alone. -/
theorem writes_kept_off_iff (s : SelectStmt) :
    (s.Writes → s.KeptOffReads) ↔
      ((∃ leaf, LeftmostArm s leaf ∧ leaf.intoClause.isSome = true) →
        s.intoClause.isSome = true ∨ s.ModifiesRows) := by
  constructor
  · intro kept onArm
    exact classify_ne_select_iff.mp (kept (.inl (.inr onArm))).classified
  · rintro seen ((own | onArm) | modifies)
    · exact keptOffReads_of_classified (classify_ne_select_iff.mpr (.inl own))
    · exact keptOffReads_of_classified (classify_ne_select_iff.mpr (seen onArm))
    · exact keptOffReads_of_classified (classify_ne_select_iff.mpr (.inr modifies))

def selectConst (c : Int32) (intoClause : Option RangeVar) : SelectStmt :=
  { selectFrom none [] with
    intoClause := intoClause
    targetList := [some (.resTarget "" [] (some (.aConst ⟨false, some (.ival c)⟩)))] }

def unionInto : SelectStmt :=
  { selectFrom none [] with
    targetList := [], op := .union
    larg := some (selectConst 1 (some ⟨"", "", "copied", none⟩)), rarg := some (selectConst 2 none) }

def leasedRouter : Router where
  epoch := 1
  vschema := VSchema.empty
  catalog := halves
  primaries := [(⟨"-80"⟩, some { pod := "low-0", host := "low" }), (⟨"80-"⟩, some { pod := "high-0", host := "high" })]
  system := none
  writeLease := 10

/-- The union creates a relation. It is classified and planned as a read, and twenty seconds after the last
confirmation the router forwards it to a shard. -/
theorem union_into_read :
    unionInto.Writes ∧ classify (some (.selectStmt unionInto)) = .select ∧
      plan goldenXxh64 .select (.selectStmt unionInto) leasedRouter.vschema leasedRouter.catalog = .routerLocal ∧
      leaseExpired (Freshness.age ⟨100, 100⟩ 120 (some 120)) leasedRouter.writeLease = true ∧
      doQuery goldenXxh64 leasedRouter (some ⟨100, 100⟩) 120 (some 120) [some (.selectStmt unionInto)] =
        .ok (some (.session ⟨{ pod := "low-0", host := "low" }, "-80"⟩ true)) ∧
      ¬ unionInto.KeptOffReads := by
  have onArm : LeftmostArm unionInto (selectConst 1 (some ⟨"", "", "copied", none⟩)) :=
    .down (by decide) rfl (.leaf rfl)
  refine ⟨.inl (.inr ⟨_, onArm, rfl⟩), rfl, rfl, rfl, rfl, fun kept => kept.classified rfl⟩

end PgShard
