import PgShard.Failover.Identity

/-! The latch against the order in which the instances are listed. -/

namespace PgShard.Failover

theorem foldl_perm_pair {α β : Type} {f : β → α → β} {z : β} {l₁ l₂ : List α} (perm : l₁.Perm l₂)
    (short : l₁.length ≤ 2) (swap : ∀ a b, l₁ = [a, b] → f (f z a) b = f (f z b) a) : l₁.foldl f z = l₂.foldl f z := by
  match l₁, l₂, perm.length_eq with
  | [], [], _ => rfl
  | [a], [c], _ => rw [List.singleton_perm_singleton.mp perm]
  | [a, b], [c, d], _ =>
    rcases List.mem_pair.mp (perm.mem_iff.mpr List.mem_cons_self) with rfl | rfl
    · rw [List.singleton_perm_singleton.mp (perm.cons_inv)]
    · rw [← List.singleton_perm_singleton.mp (((List.Perm.swap a c []).trans perm).cons_inv)]
      exact swap a c rfl
  | _ :: _ :: _ :: _, _, _ => simp at short

section

variable {views views' : List InstanceView} {current committed latched : String} {timeline : Int} {l : Latch}
  {disagree parsed : Bool} {v w : InstanceView}

/-- The view is one that the latch listens to. -/
def InstanceView.claims (current committed : String) (v : InstanceView) : Bool :=
  v.isPrimary && v.observed && (v.pod != "" && (v.pod == current || v.pod == committed)) && v.systemID != 0

theorem latchView_silent (silent : v.claims current committed = false) :
    latchView disagree parsed current committed l v = l := by
  unfold latchView
  rw [if_pos]
  simp only [InstanceView.claims] at silent
  grind

theorem latchViews_claimants : views.foldl (latchView disagree parsed current committed) l =
    (views.filter (·.claims current committed)).foldl (latchView disagree parsed current committed) l := by
  rw [List.foldl_filter]
  congr 1
  funext l v
  split_ifs with claims
  · rfl
  · exact latchView_silent (by simpa using claims)

theorem claimants_short (distinct : (views.map (·.pod)).Nodup) :
    (views.filter (·.claims current committed)).length ≤ 2 := by
  have names : ((views.filter (·.claims current committed)).map (·.pod)).Subperm [current, committed] := by
    refine List.subperm_of_subset (distinct.sublist (List.filter_sublist.map _)) fun name member => ?_
    obtain ⟨v, claimant, rfl⟩ := List.mem_map.mp member
    have claims := (List.mem_filter.mp claimant).2
    simp only [InstanceView.claims, Bool.and_eq_true, Bool.or_eq_true, beq_iff_eq] at claims
    simpa using claims.1.2.2
  simpa using names.length_le

/-- The current primary and a committed target of another name claim one lineage, which is latched or is latched by
this poll. No timeline is recorded that the target's would not be recorded over, and the current primary's is above it. -/
structure Overtakes (views : List InstanceView) (current committed latched : String) (timeline : Int)
    (v w : InstanceView) : Prop where
  named : v.pod = current ∧ w.pod = committed ∧ v.pod ≠ w.pod
  claims : v.claims current committed = true ∧ w.claims current committed = true
  lineage : v.systemID = w.systemID
  latches : parseLatchedID latched = .ok v.systemID ∨ parseLatchedID latched = .ok 0 ∧ disagreement views = false
  unrecorded : timeline = 0 ∧ 0 < w.timeline ∨ timeline < 0 ∧ w.timeline = 0
  above : w.timeline < v.timeline

theorem claimants_agree (agree : disagreement views = false) (first : v ∈ views) (second : w ∈ views)
    (claims : v.claims current committed = true) (claims' : w.claims current committed = true) :
    v.systemID = w.systemID := by
  simp only [InstanceView.claims, Bool.and_eq_true, bne_iff_ne] at claims claims'
  exact reported_agree agree first second ⟨claims.1.1.2, claims.2⟩ ⟨claims'.1.1.2, claims'.2⟩

/-- The view's id is the latched one, or will be. -/
def Latch.takes (l : Latch) (disagree parsed : Bool) (v : InstanceView) : Prop :=
  parsed = true ∧ (l.expectedID = v.systemID ∨ l.expectedID = 0 ∧ disagree = false)

theorem latchView_swap (agree : disagree = false → v.systemID = w.systemID) (unread : parsed = false → l.expectedID = 0)
    (claims : v.claims current committed = true ∧ w.claims current committed = true)
    (named : v.pod = current ∧ w.pod = committed ∧ v.pod ≠ w.pod) :
    latchView disagree parsed current committed (latchView disagree parsed current committed l v) w =
      latchView disagree parsed current committed (latchView disagree parsed current committed l w) v ↔
    ¬ (v.systemID = w.systemID ∧ l.takes disagree parsed v ∧
      (l.timeline = 0 ∧ 0 < w.timeline ∨ l.timeline < 0 ∧ w.timeline = 0) ∧ w.timeline < v.timeline) := by
  simp only [InstanceView.claims] at claims
  unfold latchView Latch.takes
  grind

theorem latchViews_perm (distinct : (views.map (·.pod)).Nodup) (perm : views.Perm views')
    (kept : ∀ v ∈ views, ∀ w ∈ views, v.pod = current ∧ w.pod = committed ∧ v.pod ≠ w.pod →
      v.claims current committed = true ∧ w.claims current committed = true →
      latchView (disagreement views) parsed current committed (latchView (disagreement views) parsed current committed l v) w =
        latchView (disagreement views) parsed current committed
          (latchView (disagreement views) parsed current committed l w) v) :
    views.foldl (latchView (disagreement views) parsed current committed) l =
      views'.foldl (latchView (disagreement views) parsed current committed) l := by
  rw [latchViews_claimants, @latchViews_claimants views']
  refine foldl_perm_pair (perm.filter _) (claimants_short distinct) fun v w pair => ?_
  have member : ∀ u ∈ [v, w], u ∈ views ∧ u.claims current committed = true := fun u inside =>
    List.mem_filter.mp (pair ▸ inside)
  obtain ⟨inV, claims⟩ := member v (by simp)
  obtain ⟨inW, claims'⟩ := member w (by simp)
  have apart : v.pod ≠ w.pod := by
    have names := distinct.sublist ((List.filter_sublist (p := (·.claims current committed))).map InstanceView.pod)
    rw [pair] at names
    simpa using names
  have trusted : ∀ {u : InstanceView}, u.claims current committed = true → u.pod = current ∨ u.pod = committed := by
    intro u claims
    simp only [InstanceView.claims, Bool.and_eq_true, Bool.or_eq_true, beq_iff_eq] at claims
    exact claims.1.2.2
  rcases trusted claims, trusted claims' with ⟨first | first, second | second⟩
  · exact absurd (first.trans second.symm) apart
  · exact kept v inV w inW ⟨first, second, apart⟩ ⟨claims, claims'⟩
  · exact (kept w inW v inV ⟨second, first, apart.symm⟩ ⟨claims', claims⟩).symm
  · exact absurd (first.trans second.symm) apart

theorem disagreement_perm (perm : views.Perm views') : disagreement views' = disagreement views := by
  unfold disagreement
  rw [((perm.filter _).map _).dedup.length_eq]

theorem perm_pair_of_mem {α : Type} {l : List α} {a b : α} (first : a ∈ l) (second : b ∈ l) (apart : a ≠ b) :
    ∃ rest, l.Perm (a :: b :: rest) := by
  obtain ⟨x, y, rfl⟩ := List.append_of_mem first
  have other : b ∈ x ++ y := by simpa [apart.symm] using second
  obtain ⟨z, u, same⟩ := List.append_of_mem other
  refine ⟨z ++ u, List.perm_middle.trans (.cons a ?_)⟩
  rw [same]
  exact List.perm_middle

theorem latchViews_pair {rest : List InstanceView} (distinct : ((v :: w :: rest).map (·.pod)).Nodup)
    (claims : v.claims current committed = true ∧ w.claims current committed = true) :
    (v :: w :: rest).foldl (latchView disagree parsed current committed) l =
      latchView disagree parsed current committed (latchView disagree parsed current committed l v) w := by
  have short := @claimants_short _ current committed distinct
  simp only [List.filter_cons, claims.1, claims.2, if_true, List.length_cons] at short
  have none : rest.filter (·.claims current committed) = [] := List.length_eq_zero_iff.mp (by omega)
  rw [latchViews_claimants]
  simp only [List.filter_cons, claims.1, claims.2, if_true, none, List.foldl_cons, List.foldl_nil]

theorem latchViews_order (distinct : (views.map (·.pod)).Nodup) (unread : parsed = false → l.expectedID = 0) :
    (∀ views', views.Perm views' → views'.foldl (latchView (disagreement views') parsed current committed) l =
      views.foldl (latchView (disagreement views) parsed current committed) l) ↔
    ∀ v ∈ views, ∀ w ∈ views, v.pod = current ∧ w.pod = committed ∧ v.pod ≠ w.pod →
      v.claims current committed = true ∧ w.claims current committed = true →
      ¬ (v.systemID = w.systemID ∧ l.takes (disagreement views) parsed v ∧
        (l.timeline = 0 ∧ 0 < w.timeline ∨ l.timeline < 0 ∧ w.timeline = 0) ∧ w.timeline < v.timeline) := by
  have swap : ∀ {v w}, v ∈ views → w ∈ views → v.pod = current ∧ w.pod = committed ∧ v.pod ≠ w.pod →
      v.claims current committed = true ∧ w.claims current committed = true → _ :=
    fun inV inW named claims => @latchView_swap current committed l (disagreement views) parsed _ _
      (fun agree => claimants_agree agree inV inW claims.1 claims.2) unread claims named
  constructor
  · intro free v inV w inW named claims
    obtain ⟨rest, perm⟩ := perm_pair_of_mem inV inW fun same => named.2.2 (same ▸ rfl)
    have perm' := perm.trans (.swap w v rest)
    rw [← swap inV inW named claims, ← latchViews_pair ((perm.map _).nodup_iff.mp distinct) claims,
      ← latchViews_pair ((perm'.map _).nodup_iff.mp distinct) claims.symm]
    have first := free _ perm
    have second := free _ perm'
    rw [disagreement_perm perm] at first
    rw [disagreement_perm perm'] at second
    exact first.trans second.symm
  · intro ahead views' perm
    rw [disagreement_perm perm]
    exact (latchViews_perm distinct perm fun v inV w inW named claims =>
      (swap inV inW named claims).mpr (ahead v inV w inW named claims)).symm

/-- The latch does not depend on the order of the views, exactly if no current primary overtakes the committed
target. -/
theorem latch_order_free (distinct : (views.map (·.pod)).Nodup) :
    (∀ views', views.Perm views' → latchIdentity views' current committed latched timeline =
      latchIdentity views current committed latched timeline) ↔
    ∀ v ∈ views, ∀ w ∈ views, ¬ Overtakes views current committed latched timeline v w := by
  unfold latchIdentity
  cases parses : parseLatchedID latched with
  | ok id =>
    have order := @latchViews_order views current committed ⟨latched, id, timeline⟩ true distinct (by simp)
    simp only [Prod.mk.injEq, and_true, order]
    refine forall₄_congr fun v inV w inW => ⟨fun ahead overtakes => ?_, fun ahead named claims overtakes => ?_⟩
    · refine ahead overtakes.named overtakes.claims ⟨overtakes.lineage, ⟨rfl, ?_⟩, overtakes.unrecorded, overtakes.above⟩
      exact (parses ▸ overtakes.latches).imp Except.ok.inj (And.imp_left Except.ok.inj)
    · obtain ⟨lineage, ⟨-, takes⟩, unrecorded, above⟩ := overtakes
      refine ahead ⟨named, claims, lineage, ?_, unrecorded, above⟩
      rw [parses]
      exact takes.imp (congrArg _) (And.imp_left (congrArg _))
  | error e =>
    have order := @latchViews_order views current committed ⟨latched, 0, timeline⟩ false distinct fun _ => rfl
    simp only [Prod.mk.injEq, and_true, order]
    refine forall₄_congr fun v inV w inW => ⟨fun _ overtakes => ?_, fun _ _ _ overtakes => ?_⟩
    · exact overtakes.latches.elim (fun latched => by cases parses.symm.trans latched)
        fun latched => by cases parses.symm.trans latched.1
    · cases overtakes.2.1.1

def primaryView (pod : String) (timeline : Nat) : InstanceView :=
  .poll pod "10.0.0.1" (some { ready := true, role := .primary, systemId := 7, timeline })

theorem latch_order_free_handover :
    latchIdentity [primaryView "pg-1" 4, primaryView "pg-0" 3] "pg-0" "pg-1" "7" 3 =
      latchIdentity [primaryView "pg-0" 3, primaryView "pg-1" 4] "pg-0" "pg-1" "7" 3 := by
  refine (latch_order_free (by decide)).mpr (fun _ _ _ _ overtakes => ?_) _ (.swap ..)
  rcases overtakes.unrecorded with ⟨zero, -⟩ | ⟨negative, -⟩
  · cases zero
  · cases negative

/-- The current primary is on timeline 5 and the committed target on timeline 3, with nothing recorded: the timeline of
whichever is listed first is recorded. -/
theorem first_listed_latches :
    (latchIdentity [primaryView "pg-0" 5, primaryView "pg-1" 3] "pg-0" "pg-1" "" 0).1.timeline = 5 ∧
      (latchIdentity [primaryView "pg-1" 3, primaryView "pg-0" 5] "pg-0" "pg-1" "" 0).1.timeline = 3 := by
  decide +kernel

end

end PgShard.Failover
