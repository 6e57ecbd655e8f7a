import Mathlib

/-! A text between quotes, as messages show it. -/

namespace Quote

def escape (control : Char → List Char) (c : Char) : List Char :=
  if c = '"' ∨ c = '\\' then ['\\', c]
  else if c = '\n' then ['\\', 'n']
  else if c = '\r' then ['\\', 'r']
  else if c = '\t' then ['\\', 't']
  else if c.toNat < 32 ∨ c.toNat = 127 then '\\' :: control c
  else [c]

/-- Go's `%q`. -/
def quoted (text : String) : String :=
  let control (c : Char) : List Char :=
    match c.toNat with
    | 7 => ['a']
    | 8 => ['b']
    | 11 => ['v']
    | 12 => ['f']
    | n => ['x', Nat.digitChar (n / 16), Nat.digitChar (n % 16)]
  String.ofList ('"' :: text.toList.flatMap (escape control) ++ ['"'])

/-- Rust's `{:?}`. -/
def debug (text : String) : String :=
  let control (c : Char) : List Char :=
    if c.toNat = 0 then ['0'] else 'u' :: '\x7b' :: Nat.toDigits 16 c.toNat ++ ['\x7d']
  String.ofList ('"' :: text.toList.flatMap (escape control) ++ ['"'])

end Quote
