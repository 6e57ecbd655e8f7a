import Mathlib

/-! SQL text as PostgreSQL reads it: double-quoted identifiers, strings under
`standard_conforming_strings`, bare words and single-character symbols. -/

namespace SqlLex

variable {m : Mode} {a b sep : List Char} {ts us last between : List Token}

inductive Token
  | word (s : String)
  | ident (s : String)
  | literal (s : String)
  | symbol (c : Char)
  deriving DecidableEq

/-- Where in a token the reader stands. `closing` has seen a quote that either
ends the token or is the first half of a doubled one. -/
inductive Mode
  | between
  | word (acc : List Char)
  | quote (q : Char) (acc : List Char)
  | closing (q : Char) (acc : List Char)
  deriving DecidableEq

def isQuote (c : Char) : Bool := c == '"' || c == '\''

def isLetter (c : Char) : Bool := ('a' ≤ c && c ≤ 'z') || ('A' ≤ c && c ≤ 'Z') || c == '_'

def quoted (q : Char) (acc : List Char) : Token :=
  if q = '"' then .ident (String.ofList acc) else .literal (String.ofList acc)

/-- The first character of a token, or a blank. -/
def opening (c : Char) : List Token × Mode :=
  if c = ' ' then ([], .between)
  else if isQuote c then ([], .quote c [])
  else if isLetter c then ([], .word [c])
  else ([.symbol c], .between)

/-- Reads one character. A quote right after a word would be one of the other
string forms (`E'...'`, `U&"..."`), which are not read. -/
def step : Mode → Char → Option (List Token × Mode)
  | .between, c => some (opening c)
  | .word acc, c =>
    if isLetter c then some ([], .word (acc ++ [c]))
    else if isQuote c then none
    else some (.word (String.ofList acc) :: (opening c).1, (opening c).2)
  | .quote q acc, c => some ([], if c = q then .closing q acc else .quote q (acc ++ [c]))
  | .closing q acc, c =>
    if c = q then some ([], .quote q (acc ++ [q]))
    else some (quoted q acc :: (opening c).1, (opening c).2)

/-- The token that the end of the text completes; an open quote is an error. -/
def finish : Mode → Option (List Token)
  | .between => some []
  | .word acc => some [.word (String.ofList acc)]
  | .quote _ _ => none
  | .closing q acc => some [quoted q acc]

def run : Mode → List Char → Option (List Token × Mode)
  | m, [] => some ([], m)
  | m, c :: rest => do
    let (ts, m) ← step m c
    let (us, m) ← run m rest
    some (ts ++ us, m)

def lex (text : List Char) : Option (List Token) := do
  let (ts, m) ← run .between text
  let last ← finish m
  some (ts ++ last)

theorem run_append {n k : Mode} (first : run m a = some (ts, n))
    (second : run n b = some (us, k)) : run m (a ++ b) = some (ts ++ us, k) := by
  induction a generalizing m ts with
  | nil =>
    cases first
    exact second
  | cons c rest ih =>
    simp only [run, Option.bind_eq_bind] at first
    obtain ⟨⟨out, m'⟩, stepped, first⟩ := Option.bind_eq_some_iff.mp first
    obtain ⟨⟨more, n'⟩, tail, first⟩ := Option.bind_eq_some_iff.mp first
    cases first
    simp only [List.cons_append, run, stepped, ih tail, Option.bind_eq_bind, Option.bind_some, List.append_assoc]

theorem lex_of_run {text : List Char} (read : run .between text = some (ts, m))
    (done : finish m = some last) : lex text = some (ts ++ last) := by
  simp only [lex, read, done, Option.bind_eq_bind, Option.bind_some]

theorem run_doubled (q : Char) (acc s : List Char) :
    run (.quote q acc) (s.flatMap fun c => if c = q then [q, q] else [c]) = some ([], .quote q (acc ++ s)) := by
  induction s generalizing acc with
  | nil => simp [run]
  | cons c rest ih =>
    rw [List.flatMap_cons]
    have first : run (.quote q acc) (if c = q then [q, q] else [c]) = some ([], .quote q (acc ++ [c])) := by
      split
      · rename_i same
        subst same
        simp [run, step]
      · rename_i other
        simp [run, step, other]
    have whole := run_append first (ih (acc ++ [c]))
    rw [List.append_assoc] at whole
    exact whole

theorem run_quoted {q : Char} (quote : isQuote q = true) (s : List Char) :
    run .between (q :: s.flatMap (fun c => if c = q then [q, q] else [c]) ++ [q]) = some ([], .closing q s) := by
  have notBlank : q ≠ ' ' := by
    rintro rfl
    simp [isQuote] at quote
  have opened : run .between [q] = some ([], .quote q []) := by
    simp [run, step, opening, notBlank, quote]
  have closed : run (.quote q s) [q] = some ([], .closing q s) := by simp [run, step]
  exact run_append (run_append opened (run_doubled q [] s)) closed

def isDelimiter (c : Char) : Bool := !isLetter c && !isQuote c

def settled : Mode → Bool
  | .between | .word _ => true
  | .quote _ _ => false
  | .closing q _ => isQuote q

/-- The text is a whole number of tokens. -/
def Reads (text : List Char) (ts : List Token) : Prop :=
  ∃ out m last, run .between text = some (out, m) ∧ settled m = true ∧ finish m = some last ∧ ts = out ++ last

theorem Reads.lex_eq {text : List Char} (reads : Reads text ts) : lex text = some ts := by
  obtain ⟨out, m, last, read, _, done, rfl⟩ := reads
  exact lex_of_run read done

theorem step_delimiter {c : Char} (whole : settled m = true)
    (done : finish m = some last) (delimiter : isDelimiter c = true) :
    step m c = some (last ++ (opening c).1, (opening c).2) := by
  simp only [isDelimiter, Bool.and_eq_true, Bool.not_eq_true'] at delimiter
  cases m with
  | between =>
    cases done
    rfl
  | word acc =>
    cases done
    simp [step, delimiter]
  | quote q acc => cases done
  | closing q acc =>
    cases done
    have apart : c ≠ q := by
      rintro rfl
      simp [settled, delimiter.2] at whole
    simp [step, apart]

/-- A text that starts with a delimiter and leaves the reader between tokens. -/
def Separates (sep : List Char) (between : List Token) : Prop :=
  sep.head?.any isDelimiter = true ∧ run .between sep = some (between, .between)

instance (sep : List Char) (between : List Token) : Decidable (Separates sep between) :=
  inferInstanceAs (Decidable (_ ∧ _))

theorem Separates.after (separates : Separates sep between)
    (whole : settled m = true) (done : finish m = some last) :
    run m sep = some (last ++ between, .between) := by
  obtain ⟨delimiter, separator⟩ := separates
  cases sep with
  | nil => cases delimiter
  | cons c rest =>
    simp only [List.head?_cons, Option.any_some] at delimiter
    simp only [run, step, Option.bind_eq_bind, Option.bind_some] at separator
    simp only [run, step_delimiter whole done delimiter, Option.bind_eq_bind, Option.bind_some]
    obtain ⟨⟨more, n⟩, tail, same⟩ := Option.bind_eq_some_iff.mp separator
    cases same
    simp [tail]

theorem Reads.append (first : Reads a ts)
    (separates : Separates sep between) (second : Reads b us) : Reads (a ++ sep ++ b) (ts ++ between ++ us) := by
  obtain ⟨out, m, last, read, whole, done, rfl⟩ := first
  obtain ⟨out', m', last', read', whole', done', rfl⟩ := second
  have crossed := separates.after whole done
  refine ⟨_, m', last', run_append (run_append read crossed) read', whole', done', ?_⟩
  simp [List.append_assoc]

theorem Reads.prepend (first : run .between a = some (ts, .between))
    (second : Reads b us) : Reads (a ++ b) (ts ++ us) := by
  obtain ⟨out, m, last, read, whole, done, rfl⟩ := second
  exact ⟨_, m, last, run_append first read, whole, done, by simp⟩

theorem Reads.close (first : Reads a ts)
    (separates : Separates sep between) : Reads (a ++ sep) (ts ++ between) := by
  have nothing : Reads [] [] := ⟨[], .between, [], rfl, rfl, rfl, rfl⟩
  simpa using first.append separates nothing

theorem Reads.quoted {q : Char} (quote : isQuote q = true) (s : List Char) :
    Reads (q :: s.flatMap (fun c => if c = q then [q, q] else [c]) ++ [q]) [SqlLex.quoted q s] :=
  ⟨[], .closing q s, [SqlLex.quoted q s], run_quoted quote s, quote, rfl, rfl⟩

theorem Reads.intercalate {Item : Type*} {text : Item → List Char} {tokens : Item → List Token}
    (each : ∀ item, Reads (text item) (tokens item)) (separates : Separates sep between)
    (items : List Item) : Reads (sep.intercalate (items.map text)) (between.intercalate (items.map tokens)) := by
  induction items with
  | nil => exact ⟨[], .between, [], rfl, rfl, rfl, rfl⟩
  | cons item rest ih =>
    cases rest with
    | nil => simpa [List.intercalate] using each item
    | cons next rest =>
      simp only [List.map_cons, List.intercalate_cons_cons] at ih ⊢
      exact (each item).append separates ih

end SqlLex
