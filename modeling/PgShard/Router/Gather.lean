import PgShard.Router.MergeRows
import PgShard.Router.Scatter

/-! What a scatter read answers: the rows of every shard, or an error. -/

namespace PgShard.Router

open Comparators Checked

def BackendResult.dataRows : BackendResult → List DataRow
  | .rows _ data _ => data
  | .command _ | .empty => []

/-- Rows come under the schema, or with columns that match it. -/
def BackendResult.Under (schema : Option (List FieldInfo)) : BackendResult → Prop
  | .rows own _ _ => ∃ first, schema = some first ∧ (own = first ∨ schemasMatch first own = true)
  | .command _ | .empty => True

/-- The results have been added, under the schema of the first one with rows. -/
structure Gathers (results : List BackendResult) (before after : Collected) : Prop where
  rows : after.2 = before.2 ++ results.flatMap BackendResult.dataRows
  kept : ∀ first, before.1 = some first → after.1 = some first
  under : ∀ r ∈ results, r.Under after.1

variable {a b c : Collected} {answers : List (Except UserError (List BackendResult))}

theorem gathers_result {r : BackendResult} (taken : collectResult a r = .ok b) : Gathers [r] a b := by
  unfold collectResult at taken
  split at taken
  · split at taken
    · rename_i none_
      cases taken
      exact ⟨by simp [BackendResult.dataRows], by simp [none_], by simp [BackendResult.Under]⟩
    · rename_i first some_
      split_ifs at taken with fits
      cases taken
      exact ⟨by simp [BackendResult.dataRows], by simp [some_], by simp [BackendResult.Under, fits]⟩
  all_goals
    cases taken
    exact ⟨by simp [BackendResult.dataRows], fun _ same => same, by simp [BackendResult.Under]⟩

theorem Gathers.trans {xs ys : List BackendResult} (first : Gathers xs a b) (second : Gathers ys b c) :
    Gathers (xs ++ ys) a c where
  rows := by rw [second.rows, first.rows, List.flatMap_append, List.append_assoc]
  kept schema same := second.kept schema (first.kept schema same)
  under r member := by
    rcases List.mem_append.mp member with early | late
    · have under := first.under r early
      cases r with
      | rows own =>
        obtain ⟨schema, same, fits⟩ := under
        exact ⟨schema, second.kept schema same, fits⟩
      | command | empty => trivial
    · exact second.under r late

theorem gathers_shard {results : List BackendResult} (taken : results.foldlM collectResult a = .ok b) :
    Gathers results a b := by
  induction results generalizing a with
  | nil =>
    cases taken
    exact ⟨by simp, fun _ same => same, by simp⟩
  | cons r rest ih =>
    obtain ⟨mid, here, later⟩ := bind_ok taken
    exact (gathers_result here).trans (ih later)

theorem gathers_scatter (taken : answers.foldlM collectShard a = .ok b) :
    ∃ results : List (List BackendResult), answers = results.map .ok ∧ Gathers results.flatten a b := by
  induction answers generalizing a with
  | nil =>
    cases taken
    exact ⟨[], rfl, by simp, fun _ same => same, by simp⟩
  | cons answer rest ih =>
    obtain ⟨mid, here, later⟩ := bind_ok taken
    obtain ⟨results, rfl, here⟩ := bind_ok here
    obtain ⟨others, rfl, gathers⟩ := ih later
    exact ⟨results :: others, rfl, (gathers_shard here).trans gathers⟩

theorem collectScatter_ok {schema : List FieldInfo} {rows : List DataRow}
    (collected : collectScatter answers = .ok (some (schema, rows))) :
    ∃ results : List (List BackendResult), answers = results.map .ok ∧ (∀ r ∈ results.flatten, r.Under (some schema)) ∧
      rows = results.flatten.flatMap BackendResult.dataRows := by
  obtain ⟨⟨first, all⟩, taken, same⟩ := bind_ok collected
  obtain ⟨results, rfl, gathers⟩ := gathers_scatter taken
  cases first with
  | none => cases same
  | some first =>
    cases same
    exact ⟨results, rfl, gathers.under, gathers.rows⟩

variable {F : Type} [LinearOrder F] [OrderTop F] {parseF64 : String → Option F}

/-- A scatter read that answers has an answer of every shard, all under one schema, and gives back all of their rows: in
the order of the shards, or sorted by the keys of the query. -/
theorem scatter_whole {plan : ScatterPlan} {schema : List FieldInfo} {rows : List DataRow} {tag : Option String}
    (answered : scatter parseF64 plan answers = .ok (.query schema rows tag)) :
    ∃ results : List (List BackendResult), answers = results.map .ok ∧ (∀ r ∈ results.flatten, r.Under (some schema)) ∧
      rows.Perm (results.flatten.flatMap BackendResult.dataRows) ∧
      (plan = .concat → rows = results.flatten.flatMap BackendResult.dataRows) ∧
      ∀ keys, plan = .ordered keys → ∃ resolved, ∃ cells : DataRow → List WireCell, resolveKeys schema keys = .ok resolved ∧
        (∀ row ∈ rows, WellFormed parseF64 resolved row (cells row)) ∧ rows.Pairwise fun a b =>
          (cmpTuples parseF64 resolved (keyCells resolved (cells a)) (keyCells resolved (cells b))).isLE = true := by
  cases plan with
  | unsupported => cases answered
  | concat =>
    obtain ⟨collected, gathered, answered⟩ := bind_ok answered
    split at answered
    · cases answered
      obtain ⟨results, all, under, rfl⟩ := collectScatter_ok gathered
      exact ⟨results, all, under, .refl _, fun _ => rfl, nofun⟩
    · cases answered
  | ordered keys =>
    obtain ⟨collected, gathered, answered⟩ := bind_ok answered
    split at answered
    · obtain ⟨merged, run, answered⟩ := bind_ok answered
      cases answered
      obtain ⟨results, all, under, rfl⟩ := collectScatter_ok gathered
      obtain ⟨resolved, resolves, -⟩ := bind_ok run
      have formed := wellFormed_of_mergeOrdered resolves run
      choose! cells formed using formed
      rw [mergeOrdered_of_wellFormed resolves formed] at run
      cases run
      have sorted := List.mergeSort_perm (results.flatten.flatMap BackendResult.dataRows) fun a b =>
        (cmpTuples parseF64 resolved (keyCells resolved (cells a)) (keyCells resolved (cells b))).isLE
      have lawful := comap_trans (fun row => keyCells resolved (cells row)) (cmpTuples_trans parseF64 resolved)
      refine ⟨results, all, under, sorted, nofun, ?_⟩
      rintro _ ⟨⟩
      exact ⟨resolved, cells, resolves, fun row member => formed row (sorted.mem_iff.mp member),
        pairwise_mergeSort lawful _⟩
    · cases answered

def digitAnswer (digit : UInt8) : Except UserError (List BackendResult) :=
  .ok [.rows digitSchema [digitRow digit] none]

theorem scatter_digits : scatter (fun _ => (none : Option (WithTop Int))) (.ordered [digitKey])
    [digitAnswer 50, digitAnswer 49] = .ok (.query digitSchema [digitRow 49, digitRow 50] none) := by
  show (do
    let merged ← mergeOrdered (fun _ => (none : Option (WithTop Int))) digitSchema [digitRow 50, digitRow 49] [digitKey]
    .ok (Response.query digitSchema merged none)) = _
  rw [mergeOrdered_digits]
  rfl

theorem scatter_whole_pair :
    let parseF64 : String → Option (WithTop Int) := fun _ => none
    let answers := [digitAnswer 50, digitAnswer 49]
    scatter parseF64 .concat answers = .ok (.query digitSchema [digitRow 50, digitRow 49] none) ∧
      scatter parseF64 (.ordered [digitKey]) answers = .ok (.query digitSchema [digitRow 49, digitRow 50] none) ∧
      (∃ results : List (List BackendResult), answers = results.map .ok ∧
        [digitRow 50, digitRow 49] = results.flatten.flatMap BackendResult.dataRows) ∧
      ∃ cells : DataRow → List WireCell, ∀ row ∈ [digitRow 49, digitRow 50],
        WellFormed parseF64 [⟨0, .int, false, false⟩] row (cells row) := by
  intro parseF64 answers
  have answered : scatter parseF64 .concat answers = .ok (.query digitSchema [digitRow 50, digitRow 49] none) := by
    decide +kernel
  obtain ⟨results, all, -, -, whole, -⟩ := scatter_whole answered
  obtain ⟨-, -, -, -, -, sorted⟩ := scatter_whole scatter_digits
  obtain ⟨_, cells, resolves, formed, -⟩ := sorted _ rfl
  cases resolves
  exact ⟨answered, scatter_digits, ⟨results, all, whole rfl⟩, cells, formed⟩

end PgShard.Router
