import PgShard.Lib.Checked
import PgShard.Lib.Runs
import PgShard.Repl.Source

/-! Which descriptor each change is applied under. -/

namespace PgShard

def lastRelation (received : List LogicalRepMsg) : RelationMap := fun oid =>
  received.reverse.findSome? fun
    | .relation r => if r.oid = oid then some (.ofMsg r) else none
    | _ => none

theorem lastRelation_append (received : List LogicalRepMsg) (msg : LogicalRepMsg) :
    lastRelation (received ++ [msg]) = announce (lastRelation received) msg := by
  funext oid
  cases msg with
  | relation r =>
    by_cases same : r.oid = oid
    · simp [lastRelation, announce, RelationMap.insert, same]
    · simp [lastRelation, announce, RelationMap.insert, same, Ne.symm same]
  | _ => simp [lastRelation, announce]

/-- An applier with the messages it has received, and its buffered changes, each with the
messages that had been received before it. -/
structure Receiver where
  applier : Applier
  received : List LogicalRepMsg := []
  sent : List (PendingChange × List LogicalRepMsg) := []

def sentStatements : List (PendingChange × List LogicalRepMsg) → Except ApplyError (List String)
  | [] => .ok []
  | (change, before) :: rest => do
    let sql ← buildStatement (lastRelation before) change
    let others ← sentStatements rest
    .ok (sql.toList ++ others)

namespace Receiver

/-- The buffered changes after a message that is handled and is not a Commit. -/
def buffer (r : Receiver) (msg : LogicalRepMsg) : List (PendingChange × List LogicalRepMsg) :=
  match msg with
  | .begin _ => []
  | _ =>
    match pendingChange msg with
    | .ok (some change) => r.sent ++ [(change, r.received)]
    | _ => r.sent

/-- One message. A message that is refused leaves the applier as it is, and so does a Commit whose
target transaction fails; `commits` says whether it does. -/
def receive (r : Receiver) (msg : LogicalRepMsg) (commits : Bool) : Receiver :=
  let received := r.received ++ [msg]
  match msg with
  | .commit commitLsn endLsn =>
    match r.applier.planCommit commitLsn endLsn with
    | .ok (.skip next) => ⟨next, received, []⟩
    | .ok (.transact _) =>
      if commits then ⟨r.applier.committed commitLsn endLsn, received, []⟩ else { r with received }
    | .error _ => { r with received }
  | _ =>
    match r.applier.handle msg with
    | .ok a => ⟨a, received, r.buffer msg⟩
    | .error _ => { r with received }

/-- A Relation message that comes while changes of its relation are buffered describes the relation
as it is known. -/
def keepsDescriptors (r : Receiver) (choice : LogicalRepMsg × Bool) : Bool :=
  match choice.1 with
  | .relation relation => r.applier.pending.all fun change =>
      change.relOid != relation.oid || r.applier.relations relation.oid == some (.ofMsg relation)
  | _ => true

def step (r : Receiver) (choice : LogicalRepMsg × Bool) : Option Receiver := some (r.receive choice.1 choice.2)

/-- The applier knows the last descriptors, and its buffered changes were sent under those. -/
structure Sound (r : Receiver) : Prop where
  relations : r.applier.relations = lastRelation r.received
  pending : r.applier.pending = r.sent.map Prod.fst
  described : ∀ entry ∈ r.sent, lastRelation entry.2 entry.1.relOid = r.applier.relations entry.1.relOid

theorem sentStatements_eq {relations : RelationMap} {sent : List (PendingChange × List LogicalRepMsg)}
    (described : ∀ entry ∈ sent, lastRelation entry.2 entry.1.relOid = relations entry.1.relOid) :
    sentStatements sent = buildStatements relations (sent.map Prod.fst) := by
  induction sent with
  | nil => rfl
  | cons entry rest ih =>
    have here : buildStatement (lastRelation entry.2) entry.1 = buildStatement relations entry.1 :=
      buildStatement_congr (described entry List.mem_cons_self)
    rw [sentStatements, List.map_cons, buildStatements, here, ih fun e member => described e (List.mem_cons_of_mem _ member)]

variable {r : Receiver} {msg : LogicalRepMsg} {commits : Bool}

theorem handle_cases {a b : Applier} (handled : a.handle msg = .ok b) :
    b.relations = announce a.relations msg ∧ ((∃ lsn, msg = .begin lsn) ∧ b.pending = [] ∨
      (∀ lsn, msg ≠ .begin lsn) ∧ ∃ change, pendingChange msg = .ok change ∧ b.pending = a.pending ++ change.toList) := by
  cases msg with
  | begin lsn =>
    cases handled
    exact ⟨rfl, .inl ⟨⟨lsn, rfl⟩, rfl⟩⟩
  | truncate | streamed => cases handled
  | commit | relation | type | origin | message =>
    cases handled
    exact ⟨rfl, .inr ⟨by simp, none, rfl, by simp⟩⟩
  | insert | update | delete =>
    obtain ⟨change, built, handled⟩ := Checked.bind_ok handled
    cases handled
    exact ⟨rfl, .inr ⟨by simp, change, built, rfl⟩⟩

theorem announce_kept (kept : r.keepsDescriptors (msg, commits) = true) {change : PendingChange}
    (buffered : change ∈ r.applier.pending) :
    announce r.applier.relations msg change.relOid = r.applier.relations change.relOid := by
  cases msg with
  | relation relation =>
    have known := List.all_eq_true.mp kept change buffered
    simp only [bne_iff_ne, Bool.or_eq_true, beq_iff_eq] at known
    by_cases same : change.relOid = relation.oid
    · rw [same]
      simpa [announce, RelationMap.insert] using (known.resolve_left (not_not.mpr same)).symm
    · simp [announce, RelationMap.insert, same]
  | _ => rfl

theorem Sound.refuse (sound : r.Sound) (plain : announce (lastRelation r.received) msg = lastRelation r.received) :
    Sound { r with received := r.received ++ [msg] } where
  relations := by rw [lastRelation_append, plain, sound.relations]
  pending := sound.pending
  described := sound.described

theorem Sound.handle (sound : r.Sound) (kept : r.keepsDescriptors (msg, commits) = true) {a : Applier}
    (handled : r.applier.handle msg = .ok a) : Sound ⟨a, r.received ++ [msg], r.buffer msg⟩ := by
  obtain ⟨relations, fate⟩ := handle_cases handled
  have known : a.relations = lastRelation (r.received ++ [msg]) := by
    rw [relations, sound.relations, lastRelation_append]
  rcases fate with ⟨⟨lsn, rfl⟩, emptied⟩ | ⟨notBegin, change, built, grown⟩
  · exact ⟨known, emptied, by simp [buffer]⟩
  · -- the changes there were keep their descriptor, and a new one is sent under the current
    have old : ∀ entry ∈ r.sent, lastRelation entry.2 entry.1.relOid = a.relations entry.1.relOid := by
      intro entry member
      have buffered : entry.1 ∈ r.applier.pending := sound.pending ▸ List.mem_map_of_mem member
      rw [relations, announce_kept kept buffered]
      exact sound.described entry member
    cases change with
    | none =>
      have same : r.buffer msg = r.sent := by
        unfold buffer
        split
        · exact absurd rfl (notBegin _)
        · rw [built]
      rw [same]
      exact ⟨known, by simp [grown, sound.pending], old⟩
    | some change =>
      have more : r.buffer msg = r.sent ++ [(change, r.received)] := by
        unfold buffer
        split
        · exact absurd rfl (notBegin _)
        · rw [built]
      have silent : announce r.applier.relations msg = r.applier.relations := by
        cases msg with
        | relation => cases built
        | _ => rfl
      rw [more]
      refine ⟨known, by simp [grown, sound.pending], fun entry member => ?_⟩
      rcases List.mem_append.mp member with earlier | new
      · exact old entry earlier
      · rw [List.mem_singleton.mp new, relations, silent, sound.relations]

theorem Sound.receive (sound : r.Sound) (kept : r.keepsDescriptors (msg, commits) = true) :
    (r.receive msg commits).Sound := by
  cases isCommit : msg with
  | commit commitLsn endLsn =>
    have done : ∀ next : Applier, next.relations = r.applier.relations → next.pending = [] →
        Sound ⟨next, r.received ++ [.commit commitLsn endLsn], []⟩ := fun next same emptied =>
      ⟨by rw [same, sound.relations, lastRelation_append]; rfl, emptied, by simp⟩
    simp only [Receiver.receive]
    cases planned : r.applier.planCommit commitLsn endLsn with
    | error e => exact sound.refuse rfl
    | ok fate =>
      cases fate with
      | skip next =>
        unfold Applier.planCommit at planned
        split_ifs at planned
        · cases planned
          exact done _ rfl rfl
        · obtain ⟨statements, -, planned⟩ := Checked.bind_ok planned
          cases planned
      | transact statements =>
        cases commits with
        | true => exact done _ rfl rfl
        | false => exact sound.refuse rfl
  | relation =>
    subst isCommit
    exact sound.handle kept rfl
  | begin | message | origin | type | insert | update | delete | truncate | streamed =>
    subst isCommit
    simp only [Receiver.receive]
    split
    · exact sound.handle kept ‹_›
    · exact sound.refuse rfl

theorem start_sound (consumer : String) (progress : Option ProgressRow) : Sound { applier := .new consumer progress } where
  relations := by cases progress <;> rfl
  pending := by cases progress <;> rfl
  described := by simp

end Receiver

/-- In every run in which no Relation message redescribes a relation with buffered changes, the
statements of a commit are those of its changes under the descriptors they were sent with. -/
theorem statements_as_sent {consumer : String} {progress : Option ProgressRow} {r : Receiver}
    (reached : Runs.Under Receiver.step Receiver.keepsDescriptors { applier := .new consumer progress } r)
    {commitLsn endLsn : Nat} {statements : List String}
    (planned : r.applier.planCommit commitLsn endLsn = .ok (.transact statements)) :
    sentStatements r.sent = .ok statements := by
  have sound : r.Sound := reached.invariant (Receiver.start_sound consumer progress) fun _ _ _ sound kept taken => by
    cases taken
    exact sound.receive kept
  rw [Receiver.sentStatements_eq sound.described, ← sound.pending]
  exact planCommit_transact planned

def pairTable (first second : String) : Relation where
  oid := 1
  «namespace» := "public"
  name := "pairs"
  replicaIdentity := 'd'
  columns := [⟨1, first, 23, -1⟩, ⟨0, second, 23, -1⟩]

def Receiver.runs (r : Receiver) (statements : List String) : Bool :=
  match r.applier.planCommit 8 9 with
  | .ok (.transact planned) => planned == statements
  | _ => false

theorem Receiver.runs_iff {r : Receiver} {statements : List String} :
    r.runs statements = true ↔ r.applier.planCommit 8 9 = .ok (.transact statements) := by
  unfold Receiver.runs
  split
  · rename_i planned same
    simp [same]
  · rename_i other
    exact iff_of_false Bool.false_ne_true fun planned => other statements planned

/-- A table is described, filled, and described again as it was. -/
theorem statements_as_sent_repeated : ∃ r,
    Runs.Under Receiver.step Receiver.keepsDescriptors { applier := .new "split" none } r ∧
    sentStatements r.sent = .ok ["INSERT INTO \"public\".\"pairs\" (\"a\", \"b\") VALUES ('1', NULL)"] := by
  have ran : (Runs.exec Receiver.step Receiver.keepsDescriptors { applier := .new "split" none }
      [(.begin 9, true), (.relation (pairTable "a" "b"), true), (.insert 1 [.text [49], .null], true),
        (.relation (pairTable "a" "b"), true)]).any (fun r => r.runs ["INSERT INTO \"public\".\"pairs\" (\"a\", \"b\") VALUES ('1', NULL)"]) =
          true := by
    decide +kernel
  obtain ⟨r, reached, planned⟩ := Runs.Under.exists_of_exec ran
  exact ⟨r, reached, statements_as_sent reached (Receiver.runs_iff.mp planned)⟩

/-- The columns change places between two changes of one transaction: the first is applied with
its values in the wrong columns. -/
theorem redescribed_change_misapplied : ∃ r statements,
    Runs.Under Receiver.step (fun _ _ => true) { applier := .new "split" none } r ∧
    r.applier.planCommit 8 9 = .ok (.transact statements) ∧
    statements = ["INSERT INTO \"public\".\"pairs\" (\"b\", \"a\") VALUES ('1', NULL)",
      "INSERT INTO \"public\".\"pairs\" (\"b\", \"a\") VALUES ('2', NULL)"] ∧
    sentStatements r.sent = .ok ["INSERT INTO \"public\".\"pairs\" (\"a\", \"b\") VALUES ('1', NULL)",
      "INSERT INTO \"public\".\"pairs\" (\"b\", \"a\") VALUES ('2', NULL)"] := by
  have ran : (Runs.exec Receiver.step (fun _ _ => true) { applier := .new "split" none }
      [(.begin 9, true), (.relation (pairTable "a" "b"), true), (.insert 1 [.text [49], .null], true),
        (.relation (pairTable "b" "a"), true), (.insert 1 [.text [50], .null], true)]).any (fun r =>
          r.runs ["INSERT INTO \"public\".\"pairs\" (\"b\", \"a\") VALUES ('1', NULL)",
            "INSERT INTO \"public\".\"pairs\" (\"b\", \"a\") VALUES ('2', NULL)"] &&
          decide (sentStatements r.sent = .ok ["INSERT INTO \"public\".\"pairs\" (\"a\", \"b\") VALUES ('1', NULL)",
            "INSERT INTO \"public\".\"pairs\" (\"b\", \"a\") VALUES ('2', NULL)"])) = true := by decide +kernel
  obtain ⟨r, reached, holds⟩ := Runs.Under.exists_of_exec ran
  simp only [Bool.and_eq_true, decide_eq_true_eq] at holds
  exact ⟨r, _, reached, Receiver.runs_iff.mp holds.1, rfl, holds.2⟩

end PgShard
