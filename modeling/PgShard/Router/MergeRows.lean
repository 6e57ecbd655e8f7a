import PgShard.Lib.Checked
import PgShard.Lib.Comparators
import PgShard.Router.Merge

/-! The merge on rows of arbitrary bytes: which rows it takes, and the order it puts them into. -/

namespace PgShard.Router

open Comparators Codec Checked

abbrev WireCell := Option (List UInt8)

def fieldCode : WireCell → List UInt8
  | none => be 4 (2 ^ 32 - 1)
  | some bytes => be 4 bytes.length ++ bytes

/-- The body starts with these cells; a cell's length is an `i32`. -/
structure Parses (data : List UInt8) (cells : List WireCell) : Prop where
  coded : ∃ rest, data = cells.flatMap fieldCode ++ rest
  short : ∀ cell ∈ cells, ∀ bytes ∈ cell, bytes.length < 2 ^ 31

/-! ## The walk over the fields -/

variable {data rest : List UInt8} {cell : WireCell} {cells : List WireCell} {i : Nat}

theorem nextField_iff : nextField data = .ok (cell, rest) ↔
    data = fieldCode cell ++ rest ∧ ∀ bytes ∈ cell, bytes.length < 2 ^ 31 := by
  constructor
  · intro read
    unfold nextField at read
    split_ifs at read with short
    have four : (data.take 4).length = 4 := by rw [List.length_take]; omega
    have small := beValue_lt (data.take 4)
    have code := be_beValue (data.take 4)
    rw [four] at small code
    have split := List.take_append_drop 4 data
    rw [← code] at split
    simp only [i32FromBeBytes_eq _ four] at read
    generalize beValue (data.take 4) = n at read small split
    by_cases positive : n < 2 ^ 31
    · simp only [if_pos positive, Int.toNat_natCast] at read
      rw [if_neg (by omega), if_neg (by omega)] at read
      split_ifs at read with outside
      cases read
      have length : ((data.drop 4).take n).length = n := List.length_take_of_le (not_lt.mp outside)
      refine ⟨?_, fun bytes same => by cases same; omega⟩
      rw [fieldCode, length, List.append_assoc, List.take_append_drop, split]
    · simp only [if_neg positive] at read
      split_ifs at read with null
      · cases read
        obtain rfl : n = 2 ^ 32 - 1 := by omega
        exact ⟨split.symm, nofun⟩
      · omega
  · rintro ⟨rfl, short⟩
    have read : ∀ (v : Nat) (tail : List UInt8), v < 2 ^ 32 → nextField (be 4 v ++ tail) =
        if v < 2 ^ 31 then if tail.length < v then .error malformedRow else .ok (some (tail.take v), tail.drop v)
        else if v = 2 ^ 32 - 1 then .ok (none, tail) else .error malformedRow := by
      intro v tail fits
      have enough : ¬ (be 4 v ++ tail).length < 4 := by simp
      simp only [nextField, if_neg enough, List.take_left' length_be, List.drop_left' length_be,
        i32FromBeBytes_eq _ length_be, beValue_be (show v < 256 ^ 4 by omega)]
      by_cases positive : v < 2 ^ 31
      · simp only [if_pos positive, Int.toNat_natCast]
        rw [if_neg (by omega), if_neg (by omega)]
      · simp only [if_neg positive]
        by_cases null : v = 2 ^ 32 - 1
        · rw [if_pos (by omega), if_pos null]
        · rw [if_neg (by omega), if_pos (by omega), if_neg null]
    cases cell with
    | none =>
      rw [fieldCode, read _ _ (by omega), if_neg (by omega), if_pos rfl]
    | some bytes =>
      have fits := short bytes rfl
      rw [fieldCode, List.append_assoc, read _ _ (by omega), if_pos fits, if_neg (by simp), List.take_left,
        List.drop_left]

theorem fieldBytes_iff : fieldBytes i data = .ok cell ↔
    ∃ cells, Parses data cells ∧ cells.length = i + 1 ∧ cells[i]? = some cell := by
  induction i generalizing data with
  | zero =>
    constructor
    · intro read
      obtain ⟨⟨first, rest⟩, next, same⟩ := bind_ok read
      cases same
      obtain ⟨coded, short⟩ := nextField_iff.mp next
      exact ⟨[cell], ⟨⟨rest, by simpa using coded⟩, by simpa using short⟩, rfl, rfl⟩
    · rintro ⟨cells, ⟨⟨rest, rfl⟩, short⟩, one, found⟩
      obtain ⟨only, rfl⟩ := List.length_eq_one_iff.mp one
      cases found
      have next : nextField (fieldCode cell ++ rest) = .ok (cell, rest) :=
        nextField_iff.mpr ⟨rfl, short cell (by simp)⟩
      simp [fieldBytes, next, bind, Except.bind]
  | succ i ih =>
    constructor
    · intro read
      obtain ⟨⟨first, rest⟩, next, later⟩ := bind_ok read
      obtain ⟨rfl, own⟩ := nextField_iff.mp next
      obtain ⟨cells, ⟨⟨tail, rfl⟩, short⟩, length, found⟩ := ih.mp later
      exact ⟨first :: cells, ⟨⟨tail, by simp⟩, List.forall_mem_cons.mpr ⟨own, short⟩⟩, by simp [length], by simpa using found⟩
    · rintro ⟨cells, ⟨⟨rest, rfl⟩, short⟩, length, found⟩
      cases cells with
      | nil => cases length
      | cons first cells =>
        obtain ⟨own, others⟩ := List.forall_mem_cons.mp short
        have next : nextField (fieldCode first ++ (cells.flatMap fieldCode ++ rest)) = .ok (first, _) :=
          nextField_iff.mpr ⟨rfl, own⟩
        have later := ih.mpr ⟨cells, ⟨⟨rest, rfl⟩, others⟩, by simpa using length, by simpa using found⟩
        simp only [fieldBytes, List.flatMap_cons, List.append_assoc, next, bind, Except.bind]
        exact later

/-! ## The order of the keys -/

section

variable {F : Type} [LinearOrder F] [OrderTop F] {parseF64 : String → Option F} {resolved : List ResolvedKey}

theorem cmpF64_eq (x y : F) : cmpF64 x y = compare x y := by
  unfold cmpF64 isNan
  by_cases nanX : x = ⊤ <;> by_cases nanY : y = ⊤
  · subst nanX nanY
    simp
  · have less : y < x := by rw [nanX]; exact lt_top_iff_ne_top.mpr nanY
    simp [nanX, nanY, compare_gt_iff_gt.mpr (nanX ▸ less)]
  · have less : x < y := by rw [nanY]; exact lt_top_iff_ne_top.mpr nanX
    simp [nanX, nanY, compare_lt_iff_lt.mpr (nanY ▸ less)]
  · simp [nanX, nanY]

def SortValue.asInt : SortValue F → Option Int64
  | .int v => some v
  | _ => none

def SortValue.asFloat : SortValue F → Option F
  | .float v => some v
  | _ => none

def SortValue.asBool : SortValue F → Option Bool
  | .bool v => some v
  | _ => none

def cellValue (parseF64 : String → Option F) (key : ResolvedKey) (cell : WireCell) : SortValue F :=
  (decode parseF64 cell key.kind).toOption.getD .null

omit [LinearOrder F] [OrderTop F] in
theorem cellValue_kind (parseF64 : String → Option F) (key : ResolvedKey) (cell : WireCell) :
    cellValue parseF64 key cell = .null ∨ match key.kind with
      | .int => ∃ v, cellValue parseF64 key cell = .int v
      | .float => ∃ v, cellValue parseF64 key cell = .float v
      | .bool => ∃ v, cellValue parseF64 key cell = .bool v := by
  unfold cellValue
  cases ran : decode parseF64 cell key.kind with
  | error e => exact .inl rfl
  | ok v =>
    unfold decode at ran
    split at ran
    · cases ran
      exact .inl rfl
    split at ran
    · cases ran
    generalize key.kind = kind at ran ⊢
    split at ran
    · split at ran <;> cases ran
      exact .inr ⟨_, rfl⟩
    · split at ran <;> cases ran
      exact .inr ⟨_, rfl⟩
    · split_ifs at ran <;> cases ran <;> exact .inr ⟨_, rfl⟩

def cmpCells (parseF64 : String → Option F) (key : ResolvedKey) (a b : WireCell) : Ordering :=
  cmpValue (cellValue parseF64 key a) (cellValue parseF64 key b) key.descending key.nullsFirst

theorem cmpCells_trans_of {T : Type} [Ord T] [Std.TransOrd T] {key : ResolvedKey} (present : SortValue F → Option T)
    (same : ∀ a b, cmpCells parseF64 key a b = nullable compare key.descending key.nullsFirst
      (present (cellValue parseF64 key a)) (present (cellValue parseF64 key b))) :
    Std.TransCmp (cmpCells parseF64 key) := by
  rw [funext₂ same]
  exact comap_trans _ (nullable_trans inferInstance _ _)

theorem cmpCells_trans (key : ResolvedKey) : Std.TransCmp (cmpCells parseF64 key) := by
  have swap {T : Type} [Ord T] [Std.TransOrd T] (x y : T) : (compare x y).swap = compare y x :=
    Std.OrientedCmp.eq_swap.symm
  have kinds := cellValue_kind parseF64 key
  cases kind : key.kind with
  | int =>
    refine cmpCells_trans_of SortValue.asInt fun a b => ?_
    simp only [kind] at kinds
    rcases kinds a with a' | ⟨_, a'⟩ <;> rcases kinds b with b' | ⟨_, b'⟩ <;>
      simp [cmpCells, a', b', cmpValue, SortValue.asInt, nullable, swap]
  | float =>
    refine cmpCells_trans_of SortValue.asFloat fun a b => ?_
    simp only [kind] at kinds
    rcases kinds a with a' | ⟨_, a'⟩ <;> rcases kinds b with b' | ⟨_, b'⟩ <;>
      simp [cmpCells, a', b', cmpValue, SortValue.asFloat, nullable, cmpF64_eq, swap]
  | bool =>
    refine cmpCells_trans_of SortValue.asBool fun a b => ?_
    simp only [kind] at kinds
    rcases kinds a with a' | ⟨_, a'⟩ <;> rcases kinds b with b' | ⟨_, b'⟩ <;>
      simp [cmpCells, a', b', cmpValue, SortValue.asBool, nullable, swap]

def cmpTuples (parseF64 : String → Option F) (resolved : List ResolvedKey) : List WireCell → List WireCell → Ordering :=
  lexicographic none (resolved.map (cmpCells parseF64))

theorem cmpTuples_trans (parseF64 : String → Option F) (resolved : List ResolvedKey) :
    Std.TransCmp (cmpTuples parseF64 resolved) := by
  refine lexicographic_trans none _ fun cmp member => ?_
  obtain ⟨key, _, rfl⟩ := List.mem_map.mp member
  exact cmpCells_trans key

theorem cmpRows_eq (a b : ResolvedKey → WireCell) :
    cmpRows (resolved.map fun key => cellValue parseF64 key (a key)) (resolved.map fun key => cellValue parseF64 key (b key))
      resolved = cmpTuples parseF64 resolved (resolved.map a) (resolved.map b) := by
  induction resolved with
  | nil => rfl
  | cons key rest ih =>
    simp only [List.map_cons, cmpRows, ih]
    rfl

/-! ## Rows -/

theorem Parses.take (parses : Parses data cells) (n : Nat) : Parses data (cells.take n) := by
  obtain ⟨⟨rest, rfl⟩, short⟩ := parses
  refine ⟨⟨(cells.drop n).flatMap fieldCode ++ rest, ?_⟩, fun cell member => short cell (List.mem_of_mem_take member)⟩
  rw [← List.append_assoc, ← List.flatMap_append, List.take_append_drop]

theorem fieldBytes_of_parses (parses : Parses data cells) (inside : i < cells.length) :
    fieldBytes i data = .ok (cells[i]?.join) := by
  refine fieldBytes_iff.mpr ⟨cells.take (i + 1), parses.take _, by rw [List.length_take]; omega, ?_⟩
  rw [List.getElem?_take_of_lt (Nat.lt_succ_self i), List.getElem?_eq_getElem inside]
  rfl

def keyWidth (resolved : List ResolvedKey) : Nat :=
  resolved.foldr (fun key width => max (key.index + 1) width) 0

theorem index_lt_keyWidth {key : ResolvedKey} (member : key ∈ resolved) : key.index < keyWidth resolved := by
  induction resolved with
  | nil => cases member
  | cons first rest ih =>
    rw [keyWidth, List.foldr_cons, ← keyWidth]
    rcases List.mem_cons.mp member with rfl | later
    · omega
    · exact lt_of_lt_of_le (ih later) (Nat.le_max_right _ _)

/-- The fields of a row up to the largest key column are cells inside its body, and those of the keys decode. -/
structure WellFormed (parseF64 : String → Option F) (resolved : List ResolvedKey) (row : DataRow)
    (cells : List WireCell) : Prop where
  parses : Parses row.data cells
  width : cells.length = keyWidth resolved
  decodes : ∀ key ∈ resolved, ∃ v, decode parseF64 (cells[key.index]?.join) key.kind = .ok v

def keyCells (resolved : List ResolvedKey) (cells : List WireCell) : List WireCell :=
  resolved.map fun key => cells[key.index]?.join

omit [LinearOrder F] [OrderTop F] in
theorem decodeKeys_of_wellFormed {row : DataRow} (formed : WellFormed parseF64 resolved row cells) :
    decodeKeys parseF64 resolved row =
      .ok (resolved.map fun key => cellValue parseF64 key (cells[key.index]?.join)) := by
  refine mapM_ok fun key member => ?_
  obtain ⟨v, decoded⟩ := formed.decodes key member
  rw [fieldBytes_of_parses formed.parses (formed.width ▸ index_lt_keyWidth member)]
  simp only [bind, Except.bind, decoded, cellValue]
  rfl

omit [LinearOrder F] [OrderTop F] in
theorem decodeKeys_iff {row : DataRow} :
    (∃ values, decodeKeys parseF64 resolved row = .ok values) ↔ ∃ cells, WellFormed parseF64 resolved row cells := by
  refine ⟨?_, fun ⟨cells, formed⟩ => ⟨_, decodeKeys_of_wellFormed formed⟩⟩
  rintro ⟨values, decoded⟩
  have each := (mapM_ok_iff.mp decoded).1
  have parsed : ∃ cells, Parses row.data cells ∧ cells.length = keyWidth resolved := by
    clear decoded
    induction resolved with
    | nil => exact ⟨[], ⟨⟨row.data, rfl⟩, nofun⟩, rfl⟩
    | cons key rest ih =>
      obtain ⟨⟨v, own⟩, others⟩ := List.forall_mem_cons.mp each
      obtain ⟨cells, parses, width⟩ := ih others
      obtain ⟨cell, read, _⟩ := bind_ok own
      obtain ⟨cells', parses', width', _⟩ := fieldBytes_iff.mp read
      rw [keyWidth, List.foldr_cons, ← keyWidth]
      rcases le_total (key.index + 1) (keyWidth rest) with more | less
      · exact ⟨cells, parses, by rw [max_eq_right more, width]⟩
      · exact ⟨cells', parses', by rw [max_eq_left less, width']⟩
  obtain ⟨cells, parses, width⟩ := parsed
  refine ⟨cells, parses, width, fun key member => ?_⟩
  obtain ⟨v, own⟩ := each key member
  obtain ⟨cell, read, decoded⟩ := bind_ok own
  rw [fieldBytes_of_parses parses (width ▸ index_lt_keyWidth member)] at read
  cases read
  exact ⟨v, decoded⟩

section

variable {schema : List FieldInfo} {keys : List SortKey} {rows : List DataRow}
  (resolves : resolveKeys schema keys = .ok resolved)
include resolves

theorem wellFormed_of_mergeOrdered {out : List DataRow} (run : mergeOrdered parseF64 schema rows keys = .ok out) :
    ∀ row ∈ rows, ∃ cells, WellFormed parseF64 resolved row cells := by
  intro row member
  obtain ⟨_, same, run⟩ := bind_ok run
  cases resolves.symm.trans same
  obtain ⟨decoded, mapped, _⟩ := bind_ok run
  obtain ⟨_, own⟩ := (mapM_ok_iff.mp mapped).1 row member
  obtain ⟨values, read, _⟩ := bind_ok own
  exact decodeKeys_iff.mp ⟨values, read⟩

theorem mergeOrdered_of_wellFormed {cells : DataRow → List WireCell}
    (formed : ∀ row ∈ rows, WellFormed parseF64 resolved row (cells row)) :
    mergeOrdered parseF64 schema rows keys = .ok (rows.mergeSort fun a b =>
      (cmpTuples parseF64 resolved (keyCells resolved (cells a)) (keyCells resolved (cells b))).isLE) := by
  let prepared (row : DataRow) : List (SortValue F) × DataRow :=
    (resolved.map fun key => cellValue parseF64 key ((cells row)[key.index]?.join), row)
  have decoded : rows.mapM (fun row => do
      let values ← decodeKeys parseF64 resolved row
      (.ok (values, row) : Except UserError _)) = .ok (rows.map prepared) := by
    refine mapM_ok fun row member => ?_
    rw [decodeKeys_of_wellFormed (formed row member)]
    rfl
  have sorted := List.map_mergeSort (l := rows) (f := prepared)
    (r := fun a b => (cmpTuples parseF64 resolved (keyCells resolved (cells a)) (keyCells resolved (cells b))).isLE)
    (s := fun a b => (cmpRows a.1 b.1 resolved).isLE) fun a _ b _ => by rw [cmpRows_eq]; rfl
  simp only [mergeOrdered, resolves, bind, Except.bind] at decoded ⊢
  rw [decoded]
  simp only [← sorted, List.map_map]
  exact congrArg _ (List.map_id _)

end

/-- The merge takes exactly the rows whose fields are cells up to the largest key column and whose keys decode. It then
gives a permutation of them, sorted by the comparison of their key cells, which is a total preorder, and keeps rows in
order which the comparison does not tell apart. -/
theorem merge_fails_closed {schema : List FieldInfo} {keys : List SortKey} (rows : List DataRow)
    (resolves : resolveKeys schema keys = .ok resolved) :
    ((∃ out, mergeOrdered parseF64 schema rows keys = .ok out) ↔
      ∀ row ∈ rows, ∃ cells, WellFormed parseF64 resolved row cells) ∧
    Std.TransCmp (cmpTuples parseF64 resolved) ∧
    ∀ out, mergeOrdered parseF64 schema rows keys = .ok out →
      ∃ cells : DataRow → List WireCell, (∀ row ∈ rows, WellFormed parseF64 resolved row (cells row)) ∧
        let le (a b : DataRow) : Bool :=
          (cmpTuples parseF64 resolved (keyCells resolved (cells a)) (keyCells resolved (cells b))).isLE
        out.Perm rows ∧ (out.Pairwise fun a b => le a b = true) ∧
          ∀ a b, le a b = true → [a, b].Sublist rows → [a, b].Sublist out := by
  refine ⟨⟨fun ⟨out, run⟩ => wellFormed_of_mergeOrdered resolves run, fun formed => ?_⟩,
    cmpTuples_trans parseF64 resolved, fun out run => ?_⟩
  · choose! cells formed using formed
    exact ⟨_, mergeOrdered_of_wellFormed resolves formed⟩
  · have formed := wellFormed_of_mergeOrdered resolves run
    choose! cells formed using formed
    rw [mergeOrdered_of_wellFormed resolves formed] at run
    cases run
    have lawful := comap_trans (fun row => keyCells resolved (cells row)) (cmpTuples_trans parseF64 resolved)
    exact ⟨cells, formed, List.mergeSort_perm _ _, pairwise_mergeSort lawful rows,
      fun a b => stable_mergeSort lawful⟩

def digitRow (digit : UInt8) : DataRow :=
  ⟨[0, 0, 0, 1, digit]⟩

def digitSchema : List FieldInfo :=
  [⟨"n", .int4, .text⟩]

def digitKey : SortKey :=
  ⟨.position 1, false, false⟩

theorem mergeOrdered_digits : mergeOrdered (fun _ => (none : Option (WithTop Int))) digitSchema
    [digitRow 50, digitRow 49] [digitKey] = .ok [digitRow 49, digitRow 50] := by
  show Except.ok ((List.mergeSort [([SortValue.int 2], digitRow 50), ([.int 1], digitRow 49)]
    fun a b => (cmpRows a.1 b.1 [⟨0, .int, false, false⟩]).isLE).map Prod.snd) = _
  rw [List.mergeSort]
  simp only [List.MergeSort.Internal.splitInTwo_fst, List.MergeSort.Internal.splitInTwo_snd, List.length_cons, List.length_nil,
    Nat.reduceAdd, Nat.reduceDiv, List.take_succ_cons, List.take_zero, List.drop_succ_cons, List.drop_zero,
    List.mergeSort_singleton, List.merge]
  decide

/-- Two rows are merged in the order of their digits; a row that ends inside the length of its key cell is refused. -/
theorem merge_fails_closed_digits :
    let parseF64 : String → Option (WithTop Int) := fun _ => none
    let resolved : List ResolvedKey := [⟨0, .int, false, false⟩]
    resolveKeys digitSchema [digitKey] = .ok resolved ∧
      mergeOrdered parseF64 digitSchema [digitRow 50, digitRow 49] [digitKey] = .ok [digitRow 49, digitRow 50] ∧
      (∀ row ∈ [digitRow 50, digitRow 49], ∃ cells, WellFormed parseF64 resolved row cells) ∧
      ¬ ∃ out, mergeOrdered parseF64 digitSchema [⟨[255, 255, 255]⟩] [digitKey] = .ok out := by
  intro parseF64 resolved
  have resolves : resolveKeys digitSchema [digitKey] = .ok resolved := by decide
  refine ⟨resolves, mergeOrdered_digits, (merge_fails_closed _ resolves).1.mp ⟨_, mergeOrdered_digits⟩, fun run => ?_⟩
  obtain ⟨cells, ⟨⟨rest, coded⟩, _⟩, width, _⟩ := (merge_fails_closed _ resolves).1.mp run _ List.mem_cons_self
  obtain ⟨cell, rfl⟩ := List.length_eq_one_iff.mp width
  have length := congrArg List.length coded
  cases cell <;> simp [fieldCode] at length <;> omega

end

end PgShard.Router
