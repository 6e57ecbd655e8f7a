import PgShard.Repl.Filter

namespace PgShard

/-! ### PostgreSQL's COPY text format -/

def copyEscapeByte (b : UInt8) : List UInt8 :=
  if b = 8 then [92, 98]
  else if b = 12 then [92, 102]
  else if b = 10 then [92, 110]
  else if b = 13 then [92, 114]
  else if b = 9 then [92, 116]
  else if b = 11 then [92, 118]
  else if b = 92 then [92, 92]
  else [b]

def copyField : Option (List UInt8) → List UInt8
  | none => [92, 78]
  | some bytes => bytes.flatMap copyEscapeByte

def copyRow (row : Row) : List UInt8 := [9].intercalate (row.map copyField) ++ [10]

/-! ### Reading it back -/

def copyUnescapeByte (b : UInt8) : UInt8 :=
  if b = 98 then 8
  else if b = 102 then 12
  else if b = 110 then 10
  else if b = 114 then 13
  else if b = 116 then 9
  else if b = 118 then 11
  else b

def copyUnescape : List UInt8 → List UInt8
  | [] => []
  | [b] => [b]
  | b :: c :: rest => if b = 92 then copyUnescapeByte c :: copyUnescape rest else b :: copyUnescape (c :: rest)

def copyFieldUnescape (field : List UInt8) : Option (List UInt8) :=
  if field = [92, 78] then none else some (copyUnescape field)

theorem copyUnescape_cons {b : UInt8} (plain : b ≠ 92) (rest : List UInt8) :
    copyUnescape (b :: rest) = b :: copyUnescape rest := by
  cases rest with
  | nil => rfl
  | cons c rest => simp [copyUnescape, plain]

theorem copyUnescape_escapeByte (b : UInt8) (rest : List UInt8) :
    copyUnescape (copyEscapeByte b ++ rest) = b :: copyUnescape rest := by
  unfold copyEscapeByte
  split_ifs with h1 h2 h3 h4 h5 h6 h7 <;> first | (subst_vars; rfl) | exact copyUnescape_cons h7 rest

theorem copyUnescape_escape (bytes : List UInt8) : copyUnescape (bytes.flatMap copyEscapeByte) = bytes := by
  induction bytes with
  | nil => rfl
  | cons b rest ih => rw [List.flatMap_cons, copyUnescape_escapeByte, ih]

theorem copyEscape_ne_null (bytes : List UInt8) : bytes.flatMap copyEscapeByte ≠ [92, 78] := by
  intro same
  have back := congrArg copyUnescape same
  rw [copyUnescape_escape] at back
  subst back
  revert same
  decide

theorem copyFieldUnescape_copyField (value : Option (List UInt8)) :
    copyFieldUnescape (copyField value) = value := by
  cases value with
  | none => rfl
  | some bytes =>
    simp only [copyField, copyFieldUnescape, if_neg (copyEscape_ne_null bytes), copyUnescape_escape]

theorem copyEscapeByte_plain {b c : UInt8} (member : c ∈ copyEscapeByte b) : c ≠ 9 ∧ c ≠ 10 := by
  unfold copyEscapeByte at member
  split_ifs at member with h1 h2 h3 h4 h5 h6 h7
  all_goals simp only [List.mem_cons, List.not_mem_nil, or_false] at member
  all_goals first
    | (rcases member with rfl | rfl <;> decide)
    | (subst member; exact ⟨h5, h3⟩)

theorem copyField_plain {value : Option (List UInt8)} {c : UInt8} (member : c ∈ copyField value) :
    c ≠ 9 ∧ c ≠ 10 := by
  cases value with
  | none =>
    simp only [copyField, List.mem_cons, List.not_mem_nil, or_false] at member
    rcases member with rfl | rfl <;> decide
  | some bytes =>
    obtain ⟨b, _, inside⟩ := List.mem_flatMap.mp member
    exact copyEscapeByte_plain inside

end PgShard
