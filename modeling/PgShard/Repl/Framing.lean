import PgShard.Lib.Codec
import PgShard.Lib.Runs

/-! Reading backend messages off the socket (`client.rs`), by calls of `read_message` that may be dropped. -/

namespace PgShard.Repl

open Codec

inductive ClientError
  | closed
  | malformed (message : String)
  deriving DecidableEq

def maxMessageLen : Nat := 2 ^ 30

abbrev BackendMessage := UInt8 × List UInt8

/-- The await at which a call of `read_message` stands, with the total it has computed. -/
inductive Awaiting
  | header
  | body (total : Nat)
  deriving DecidableEq

/-- What a call comes to with the bytes that are in the buffer. -/
inductive Outcome
  | await (at_ : Awaiting)
  | message (msg : BackendMessage) (rest : List UInt8)
  | fail (e : ClientError)

def messageLen (buf : List UInt8) : Except ClientError Nat :=
  let len := i32FromBeBytes ((buf.drop 1).take 4)
  if 4 ≤ len ∧ len ≤ maxMessageLen then .ok len.toNat
  else .error (.malformed ("bad message length " ++ toString len))

def takeMessage (total : Nat) (buf : List UInt8) : Outcome :=
  if buf.length < total then .await (.body total)
  else .message (buf.headD 0, (buf.take total).drop 5) (buf.drop total)

/-- `read_message` from one of its awaits up to the next, or to its end. -/
def resume (buf : List UInt8) : Awaiting → Outcome
  | .header =>
    if buf.length < 5 then .await .header
    else
      match messageLen buf with
      | .error e => .fail e
      | .ok len => takeMessage (1 + len) buf
  | .body total => takeMessage total buf

/-- The client, with the bytes that the server has sent and nobody has read, and what calls have returned so far. -/
structure Reader where
  incoming : List UInt8
  readBuf : List UInt8 := []
  call : Option Awaiting := none
  returned : List BackendMessage := []
  errors : List ClientError := []
  deriving DecidableEq

inductive ReadEvent
  | call
  /-- The socket read of `fill` ends with `n` bytes. -/
  | read (n : Nat)
  /-- The pending call is dropped at its await. -/
  | abandon
  /-- The server has closed the connection, and all its bytes have been read. -/
  | closed
  deriving DecidableEq

namespace Reader

def proceed (s : Reader) (at_ : Awaiting) : Reader :=
  match resume s.readBuf at_ with
  | .await at_ => { s with call := some at_ }
  | .message msg rest => { s with call := none, readBuf := rest, returned := s.returned ++ [msg] }
  | .fail e => { s with call := none, errors := s.errors ++ [e] }

def step (s : Reader) (event : ReadEvent) : Option Reader :=
  match event, s.call with
  | .call, none => some (s.proceed .header)
  | .read n, some at_ =>
    if 1 ≤ n ∧ n ≤ 16 * 1024 ∧ n ≤ s.incoming.length then
      some ({ s with readBuf := s.readBuf ++ s.incoming.take n, incoming := s.incoming.drop n }.proceed at_)
    else none
  | .abandon, some _ => some { s with call := none }
  | .closed, some _ => if s.incoming = [] then some { s with call := none, errors := s.errors ++ [.closed] } else none
  | _, _ => none

end Reader

def frame (m : BackendMessage) : List UInt8 :=
  m.1 :: be 4 (m.2.length + 4) ++ m.2

/-- A header whose length is below 4, negative or above the limit. -/
def BadHeader (bytes : List UInt8) : Prop :=
  5 ≤ bytes.length ∧ ¬ (4 ≤ i32FromBeBytes ((bytes.drop 1).take 4) ∧
    i32FromBeBytes ((bytes.drop 1).take 4) ≤ maxMessageLen)

/-! ## One call -/

variable {buf rest tail : List UInt8} {m : BackendMessage} {msgs : List BackendMessage} {at_ : Awaiting} {s t : Reader}

theorem length_frame (m : BackendMessage) : (frame m).length = m.2.length + 5 := by
  simp [frame]
  omega

theorem header_append (long : 5 ≤ buf.length) (more : List UInt8) :
    ((buf ++ more).drop 1).take 4 = (buf.drop 1).take 4 := by
  rw [List.drop_append_of_le_length (by omega), List.take_append_of_le_length (by rw [List.length_drop]; omega)]

theorem messageLen_append (long : 5 ≤ buf.length) (more : List UInt8) : messageLen (buf ++ more) = messageLen buf := by
  rw [messageLen, header_append long, messageLen]

theorem messageLen_frame (fits : m.2.length + 4 ≤ maxMessageLen) (rest : List UInt8) :
    messageLen (frame m ++ rest) = .ok (m.2.length + 4) := by
  have header : ((frame m ++ rest).drop 1).take 4 = be 4 (m.2.length + 4) := by
    rw [header_append (by rw [length_frame]; omega), frame, List.cons_append, List.drop_one, List.tail_cons,
      List.take_append_of_le_length (by rw [length_be]), List.take_of_length_le (by rw [length_be])]
  have small : m.2.length + 4 ≤ 2 ^ 30 := fits
  have value : i32FromBeBytes (be 4 (m.2.length + 4)) = (m.2.length + 4 : Nat) := by
    rw [i32FromBeBytes_eq _ length_be, beValue_be (show m.2.length + 4 < 256 ^ 4 by omega), if_pos (by omega)]
  rw [messageLen, header, value, if_pos ⟨by omega, by exact_mod_cast fits⟩, Int.toNat_natCast]

theorem takeMessage_frame {more : List UInt8} (stream : buf ++ more = frame m ++ rest) :
    takeMessage (m.2.length + 5) buf = .await (.body (m.2.length + 5)) ∧ buf.length < m.2.length + 5 ∨
      ∃ left, buf = frame m ++ left ∧ takeMessage (m.2.length + 5) buf = .message m left := by
  have size := length_frame m
  by_cases short : buf.length < m.2.length + 5
  · exact .inl ⟨if_pos short, short⟩
  · have split : buf = frame m ++ buf.drop (m.2.length + 5) := by
      have front : buf.take (m.2.length + 5) = frame m := by
        have taken := congrArg (List.take (m.2.length + 5)) stream
        rwa [List.take_append_of_le_length (by omega), List.take_left' size] at taken
      conv_lhs => rw [← List.take_append_drop (m.2.length + 5) buf, front]
    refine .inr ⟨_, split, ?_⟩
    have body : ((frame m ++ buf.drop (m.2.length + 5)).take (m.2.length + 5)).drop 5 = m.2 := by
      rw [List.take_append_of_le_length (by omega), List.take_of_length_le (by omega), frame, List.cons_append,
        List.drop_succ_cons, List.drop_left' length_be]
    rw [takeMessage, if_neg short, split, body]
    simp [frame]

theorem resume_frame (fits : m.2.length + 4 ≤ maxMessageLen) {more : List UInt8}
    (stream : buf ++ more = frame m ++ rest) :
    (∃ at_, resume buf .header = .await at_ ∧ buf.length < m.2.length + 5) ∨
    ∃ left, buf = frame m ++ left ∧ resume buf .header = .message m left := by
  by_cases short : buf.length < 5
  · exact .inl ⟨.header, if_pos short, by omega⟩
  · have len : messageLen buf = .ok (m.2.length + 4) := by
      rw [← messageLen_append (not_lt.mp short) more, stream, messageLen_frame fits]
    have entered : resume buf .header = takeMessage (m.2.length + 5) buf := by
      rw [resume, if_neg short, len]
      dsimp only
      rw [Nat.add_comm 1]
    rw [entered]
    exact (takeMessage_frame stream).imp_left fun waits => ⟨_, waits⟩

theorem resume_tail (ends : tail = [] ∨ BadHeader tail) {more : List UInt8} (stream : buf ++ more = tail) :
    resume buf .header = .await .header ∧ buf.length < 5 ∨ ∃ e, resume buf .header = .fail e := by
  by_cases short : buf.length < 5
  · exact .inl ⟨if_pos short, short⟩
  rcases ends with rfl | bad
  · rw [List.append_eq_nil_iff] at stream
    simp [stream.1] at short
  · have len : ∃ e, messageLen buf = .error e := by
      refine ⟨_, if_neg ?_⟩
      rw [← header_append (not_lt.mp short) more, stream]
      exact bad.2
    obtain ⟨e, len⟩ := len
    exact .inr ⟨e, by rw [resume, if_neg short, len]⟩

/-- A call that waits for a body has read its header, and would come to the same place again if it were reissued. -/
def Awaiting.Sound (at_ : Awaiting) (buf : List UInt8) : Prop :=
  ∀ total, at_ = .body total → 5 ≤ buf.length ∧ ∃ len, messageLen buf = .ok len ∧ total = 1 + len

theorem resume_eq_header (sound : at_.Sound buf) (more : List UInt8) :
    resume (buf ++ more) at_ = resume (buf ++ more) .header := by
  cases at_ with
  | header => rfl
  | body total =>
    obtain ⟨long, len, read, rfl⟩ := sound total rfl
    have enough : ¬ (buf ++ more).length < 5 := by rw [List.length_append]; omega
    rw [resume, resume, if_neg enough, messageLen_append long, read]

theorem resume_sound (waits : resume buf .header = .await at_) : at_.Sound buf := by
  rintro total rfl
  rw [resume] at waits
  split_ifs at waits with short
  · cases waits
  refine ⟨not_lt.mp short, ?_⟩
  split at waits
  · cases waits
  · rename_i len read
    rw [takeMessage] at waits
    split_ifs at waits
    cases waits
    exact ⟨len, read, rfl⟩

/-! ## Runs -/

/-- The messages that have been returned, and behind them the bytes of the others, in the buffer and on the way. -/
structure Reader.Follows (s : Reader) (msgs : List BackendMessage) (tail : List UInt8) : Prop where
  returned : s.returned = msgs.take s.returned.length
  stream : s.readBuf ++ s.incoming = (msgs.drop s.returned.length).flatMap frame ++ tail
  sound : ∀ at_, s.call = some at_ → at_.Sound s.readBuf
  failed : s.errors ≠ [] → s.returned = msgs
  waiting : s.call ≠ none → s.returned ≠ msgs → s.incoming ≠ []

namespace Reader.Follows

theorem proceed (fits : ∀ m ∈ msgs, m.2.length + 4 ≤ maxMessageLen) (ends : tail = [] ∨ BadHeader tail)
    (returned : s.returned = msgs.take s.returned.length)
    (stream : s.readBuf ++ s.incoming = (msgs.drop s.returned.length).flatMap frame ++ tail)
    (failed : s.errors ≠ [] → s.returned = msgs) : (s.proceed .header).Follows msgs tail := by
  unfold Reader.proceed
  cases left : msgs.drop s.returned.length with
  | nil =>
    -- every message has been returned, and only what follows them is left
    have all : s.returned = msgs := by
      have whole := List.take_append_drop s.returned.length msgs
      rwa [left, List.append_nil, ← returned] at whole
    rw [left, List.flatMap_nil, List.nil_append] at stream
    rcases resume_tail ends stream with ⟨waits, -⟩ | ⟨e, fails⟩
    · rw [waits]
      refine ⟨returned, by simpa [left] using stream, ?_, failed, fun _ other => absurd all other⟩
      rintro _ ⟨⟩
      exact resume_sound waits
    · rw [fails]
      exact ⟨returned, by simpa [left] using stream, nofun, fun _ => all, fun waits => absurd rfl waits⟩
  | cons m others =>
    rw [left, List.flatMap_cons, List.append_assoc] at stream
    have missing : s.returned ≠ msgs := by
      intro all
      rw [all, List.drop_length] at left
      cases left
    have member : m ∈ msgs := List.mem_of_mem_drop (left ▸ List.mem_cons_self)
    have next : msgs[s.returned.length]? = some m := by
      rw [← List.head?_drop, left, List.head?_cons]
    have later : msgs.drop (s.returned.length + 1) = others := by
      rw [← List.tail_drop, left, List.tail_cons]
    rcases resume_frame (fits m member) stream with ⟨at_, waits, short⟩ | ⟨rest, split, whole⟩
    · rw [waits]
      refine ⟨returned, by simpa [left] using stream, ?_, failed, ?_⟩
      · rintro _ ⟨⟩
        exact resume_sound waits
      · intro _ _ nothing
        change s.incoming = [] at nothing
        have size := congrArg List.length stream
        rw [nothing, List.append_nil, List.length_append, length_frame] at size
        omega
    · rw [whole]
      have taken : s.returned ++ [m] = msgs.take (s.returned.length + 1) := by
        rw [List.take_add_one, next, ← returned]
        rfl
      refine ⟨by simpa using taken, ?_, nofun, fun any => absurd (failed any) missing, fun waits => absurd rfl waits⟩
      rw [split, List.append_assoc] at stream
      have rest := List.append_cancel_left stream
      simpa [later] using rest

theorem step_proceed {event : ReadEvent} (follows : s.Follows msgs tail) (goes : event = .call ∨ ∃ n, event = .read n)
    (taken : s.step event = some t) : ∃ u : Reader, t = u.proceed .header ∧ u.returned = s.returned ∧
      u.errors = s.errors ∧ u.readBuf ++ u.incoming = s.readBuf ++ s.incoming := by
  unfold Reader.step at taken
  split at taken
  · cases taken
    exact ⟨s, rfl, rfl, rfl, rfl⟩
  · rename_i n at_ pending
    split_ifs at taken
    cases taken
    refine ⟨{ s with readBuf := s.readBuf ++ s.incoming.take n, incoming := s.incoming.drop n }, ?_, rfl, rfl, by simp⟩
    rw [Reader.proceed, Reader.proceed, resume_eq_header (follows.sound at_ pending)]
  · rcases goes with goes | ⟨n, goes⟩ <;> cases goes
  · rcases goes with goes | ⟨n, goes⟩ <;> cases goes
  · cases taken

theorem step {event : ReadEvent} (fits : ∀ m ∈ msgs, m.2.length + 4 ≤ maxMessageLen) (ends : tail = [] ∨ BadHeader tail)
    (follows : s.Follows msgs tail) (taken : s.step event = some t) : t.Follows msgs tail := by
  have proceeds : (event = .call ∨ ∃ n, event = .read n) → t.Follows msgs tail := by
    intro goes
    obtain ⟨u, rfl, returned, errors, stream⟩ := follows.step_proceed goes taken
    refine proceed fits ends (returned ▸ follows.returned) (by rw [stream, returned, follows.stream]) ?_
    rw [returned, errors]
    exact follows.failed
  cases event with
  | call => exact proceeds (.inl rfl)
  | read n => exact proceeds (.inr ⟨n, rfl⟩)
  | abandon =>
    cases pending : s.call with
    | none => simp [Reader.step, pending] at taken
    | some at_ =>
      simp only [Reader.step, pending, Option.some.injEq] at taken
      subst taken
      exact { follows with sound := nofun, waiting := fun waits => absurd rfl waits }
  | closed =>
    cases pending : s.call with
    | none => simp [Reader.step, pending] at taken
    | some at_ =>
      simp only [Reader.step, pending] at taken
      split_ifs at taken with drained
      cases taken
      have all : s.returned = msgs := by
        by_contra missing
        exact follows.waiting (by simp [pending]) missing drained
      exact ⟨follows.returned, follows.stream, nofun, fun _ => all, fun waits => absurd rfl waits⟩

end Reader.Follows

/-- However the bytes are cut into reads, and wherever calls are dropped and issued again: what has been returned is the
first of the messages, in order. A call fails only behind the last of them, it is not left waiting while messages are
left but no bytes, and once all bytes are there each call returns the next message. Behind the messages, a header with
a length out of bounds fails the call that reads it, and nothing more is returned. -/
theorem framing_exact (msgs : List BackendMessage) (fits : ∀ m ∈ msgs, m.2.length + 4 ≤ maxMessageLen)
    (tail : List UInt8) (ends : tail = [] ∨ BadHeader tail) (s : Reader)
    (reached : Runs.Under Reader.step (fun _ _ => true) { incoming := msgs.flatMap frame ++ tail } s) :
    s.returned = msgs.take s.returned.length ∧
    (s.errors ≠ [] → s.returned = msgs) ∧
    (s.call ≠ none → s.returned ≠ msgs → s.incoming ≠ []) ∧
    (s.call = none → s.incoming = [] → ∀ m, msgs[s.returned.length]? = some m →
      ∃ t, s.step .call = some t ∧ t.returned = s.returned ++ [m]) ∧
    (BadHeader tail → s.returned = msgs → ∀ event t, (event = .call ∨ ∃ n, event = .read n) →
      s.step event = some t → 5 ≤ t.readBuf.length →
        t.call = none ∧ t.returned = msgs ∧ ∃ e, t.errors = s.errors ++ [e]) := by
  have follows : s.Follows msgs tail := by
    induction reached with
    | start => exact ⟨rfl, rfl, nofun, fun any => absurd rfl any, fun waits => absurd rfl waits⟩
    | next _ _ taken ih => exact ih.step fits ends taken
  refine ⟨follows.returned, follows.failed, follows.waiting, fun idle drained m next => ?_,
    fun bad all event t goes taken long => ?_⟩
  · have stream := follows.stream
    have left := List.drop_eq_getElem?_toList_append (l := msgs) (i := s.returned.length)
    rw [next] at left
    rw [left, Option.toList_some, List.cons_append, List.nil_append, List.flatMap_cons, List.append_assoc] at stream
    refine ⟨s.proceed .header, by simp [Reader.step, idle], ?_⟩
    rcases resume_frame (fits m (List.mem_of_getElem? next)) stream with ⟨at_, -, short⟩ | ⟨rest, -, whole⟩
    · have size := congrArg List.length stream
      rw [drained, List.append_nil, List.length_append, length_frame] at size
      omega
    · rw [Reader.proceed, whole]
  · obtain ⟨u, rfl, returned, errors, stream⟩ := follows.step_proceed goes taken
    rw [follows.stream, all, List.drop_length, List.flatMap_nil, List.nil_append] at stream
    rcases resume_tail (.inr bad) stream with ⟨waits, short⟩ | ⟨e, fails⟩
    · rw [Reader.proceed, waits] at long
      exact absurd short (not_lt.mpr long)
    · rw [Reader.proceed, fails]
      exact ⟨rfl, returned.trans all, e, by rw [← errors]⟩

def cutStream : List UInt8 :=
  [(68, [1, 2]), (90, [])].flatMap frame ++ [69, 0, 0, 0, 3]

def cutReader : Reader :=
  { incoming := [3], readBuf := [69, 0, 0, 0], call := some .header, returned := [(68, [1, 2]), (90, [])] }

theorem framing_exact_cut : Runs.Under Reader.step (fun _ _ => true) { incoming := cutStream } cutReader ∧
    ∃ t e, cutReader.step (.read 1) = some t ∧ t.returned = cutReader.returned ∧ t.errors = [e] := by
  have ran : (Runs.exec Reader.step (fun _ _ => true) { incoming := cutStream }
      [.call, .read 3, .abandon, .call, .read 6, .call, .read 7, .call]) = some cutReader := by
    decide +kernel
  have reached : Runs.Under Reader.step (fun _ _ => true) { incoming := cutStream } cutReader := .exec .start ran
  have bad : BadHeader [69, 0, 0, 0, 3] := ⟨by decide, by decide⟩
  have whole : (cutReader.step (.read 1)).any (fun t => decide (5 ≤ t.readBuf.length)) = true := by decide +kernel
  obtain ⟨t, taken, long⟩ := (Option.any_eq_true _ _).mp whole
  obtain ⟨-, returned, e, errors⟩ := (framing_exact _ (by decide) _ (.inr bad) cutReader reached).2.2.2.2 bad rfl
    (.read 1) t (.inr ⟨1, rfl⟩) taken (of_decide_eq_true long)
  exact ⟨reached, t, e, taken, returned, errors⟩

end PgShard.Repl
