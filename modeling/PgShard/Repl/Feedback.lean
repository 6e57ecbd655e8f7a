import PgShard.Lib.Codec
import PgShard.Lib.Runs

/-! What the client of a workflow writes to the source once it streams (`client.rs`, `run_workflow`): standby status
updates, in reply to keepalives and after commits. -/

namespace PgShard.Repl

open Codec

structure StandbyStatusUpdate where
  writeLsn : UInt64
  flushLsn : UInt64
  applyLsn : UInt64
  clientTime : UInt64
  replyRequested : Bool
  deriving DecidableEq

namespace StandbyStatusUpdate

def encode (u : StandbyStatusUpdate) : List UInt8 :=
  114 :: be 8 u.writeLsn.toNat ++ be 8 u.flushLsn.toNat ++ be 8 u.applyLsn.toNat ++ be 8 u.clientTime.toNat ++
    [if u.replyRequested then 1 else 0]

def copyData (u : StandbyStatusUpdate) : List UInt8 :=
  100 :: be 4 (4 + u.encode.length) ++ u.encode

theorem length_copyData (u : StandbyStatusUpdate) : u.copyData.length = 39 := by
  simp [copyData, encode]

end StandbyStatusUpdate

/-- Where the streaming loop stands. A status that is being written comes with the number of bytes the socket has
taken of it. -/
inductive Streaming
  /-- In `next`, which waits for a message. -/
  | reading
  /-- In `next`, which answers a keepalive. -/
  | replying (status : StandbyStatusUpdate) (taken : Nat)
  /-- In the recheck of the publication. -/
  | rechecking
  /-- After a commit, outside of `next`. -/
  | confirming (status : StandbyStatusUpdate) (taken : Nat)
  | ended
  deriving DecidableEq

/-- The client in the loop, with the bytes that the socket has taken since streaming began. -/
structure Feedback where
  lastWalEnd : UInt64 := 0
  confirmedLsn : UInt64 := 0
  sent : List UInt8 := []
  loop : Streaming := .reading
  /-- A reply was dropped after a part of it had been sent. -/
  torn : Bool := false
  deriving DecidableEq

inductive StreamEvent
  | keepalive (walEnd : UInt64) (replyRequested : Bool)
  /-- A data message; with it a transaction may commit, which is durable up to the LSN. -/
  | xlogData (walEnd : UInt64) (committed : Option UInt64)
  /-- The socket takes some more bytes of what is being written. -/
  | accept (bytes : Nat)
  /-- The recheck is due, and `next` is dropped. -/
  | recheck
  | rechecked
  /-- The stop channel has changed, and `next` is dropped. -/
  | stopChanged (stop : Bool)
  /-- An error of the socket, of a message or of a check ends the loop. -/
  | fail
  deriving DecidableEq

namespace Feedback

def status (s : Feedback) : StandbyStatusUpdate :=
  ⟨s.lastWalEnd, s.confirmedLsn, s.confirmedLsn, 0, false⟩

def receive (s : Feedback) (walEnd : UInt64) : Feedback :=
  { s with lastWalEnd := if walEnd > s.lastWalEnd then walEnd else s.lastWalEnd }

def confirm (s : Feedback) (lsn : UInt64) : Feedback :=
  { s with confirmedLsn := if lsn > s.confirmedLsn then lsn else s.confirmedLsn }

/-- A write goes on; `write_all` ends with the last byte, and the loop is back in `next`. -/
def accept (s : Feedback) (status : StandbyStatusUpdate) (taken bytes : Nat) (writing : Nat → Streaming) : Feedback :=
  { s with
    sent := s.sent ++ (status.copyData.drop taken).take bytes
    loop := if taken + bytes = status.copyData.length then .reading else writing (taken + bytes) }

/-- `next` is dropped; the loop goes on elsewhere. -/
def abandon (s : Feedback) (loop : Streaming) : Option Feedback :=
  match s.loop with
  | .reading => some { s with loop }
  | .replying _ taken => some { s with loop, torn := s.torn || taken != 0 }
  | _ => none

def step (s : Feedback) : StreamEvent → Option Feedback
  | .keepalive walEnd replyRequested =>
    match s.loop with
    | .reading =>
      let s := s.receive walEnd
      some { s with loop := if replyRequested then .replying s.status 0 else .reading }
    | _ => none
  | .xlogData walEnd committed =>
    match s.loop with
    | .reading =>
      let s := s.receive walEnd
      match committed with
      | none => some s
      | some lsn => some { s.confirm lsn with loop := .confirming (s.confirm lsn).status 0 }
    | _ => none
  | .accept bytes =>
    match s.loop with
    | .replying status taken =>
      if 0 < bytes ∧ taken + bytes ≤ status.copyData.length then some (s.accept status taken bytes (.replying status))
      else none
    | .confirming status taken =>
      if 0 < bytes ∧ taken + bytes ≤ status.copyData.length then some (s.accept status taken bytes (.confirming status))
      else none
    | _ => none
  | .recheck => s.abandon .rechecking
  | .rechecked => if s.loop = .rechecking then some { s with loop := .reading } else none
  | .stopChanged stop => s.abandon (if stop then .ended else .reading)
  | .fail => some { s with loop := .ended }

def writing (s : Feedback) : Option (StandbyStatusUpdate × Nat) :=
  match s.loop with
  | .replying status taken | .confirming status taken => some (status, taken)
  | _ => none

/-- The bytes that were sent are complete frames and a part of one more: of the one that is being written if there is
one, or of one that was given up. -/
def Framed (s : Feedback) : Prop :=
  ∃ (complete : List StandbyStatusUpdate) (part : List UInt8),
    s.sent = complete.flatMap StandbyStatusUpdate.copyData ++ part ∧
      match s.writing with
      | some (status, taken) => part = status.copyData.take taken
      | none => ∃ status : StandbyStatusUpdate, part <+: status.copyData

/-- The event is not the start of a status after a torn reply. -/
def orderly (s : Feedback) (event : StreamEvent) : Bool :=
  match event with
  | .keepalive _ replyRequested => !(s.torn && replyRequested)
  | .xlogData _ committed => !(s.torn && committed.isSome)
  | _ => true

/-! ## Runs -/

variable {s t : Feedback} {status : StandbyStatusUpdate} {part : List UInt8} {event : StreamEvent} {loop : Streaming}

/-- What follows the complete frames: the part of the frame that is being written, or what is left of a torn one. -/
def Remains (s : Feedback) (part : List UInt8) : Prop :=
  match s.loop with
  | .replying status taken | .confirming status taken => part = status.copyData.take taken ∧ taken < 39 ∧ s.torn = false
  | .reading | .rechecking => (s.torn = false → part = []) ∧ (s.torn = true → 0 < part.length ∧ part.length < 39) ∧
      ∃ status : StandbyStatusUpdate, part <+: status.copyData
  | .ended => ∃ status : StandbyStatusUpdate, part <+: status.copyData

def Tidy (s : Feedback) : Prop :=
  ∃ (complete : List StandbyStatusUpdate) (part : List UInt8),
    s.sent = complete.flatMap StandbyStatusUpdate.copyData ++ part ∧ s.Remains part

theorem Remains.is_part (remains : s.Remains part) : ∃ status : StandbyStatusUpdate, part <+: status.copyData := by
  unfold Remains at remains
  split at remains
  · exact ⟨_, remains.1 ▸ List.take_prefix _ _⟩
  · exact ⟨_, remains.1 ▸ List.take_prefix _ _⟩
  · exact remains.2.2
  · exact remains.2.2
  · exact remains

theorem Tidy.framed (tidy : s.Tidy) : s.Framed := by
  obtain ⟨complete, part, sent, remains⟩ := tidy
  refine ⟨complete, part, sent, ?_⟩
  have given_up := remains.is_part
  unfold Remains at remains
  unfold writing
  split at remains <;> rename_i here <;> rw [here]
  · exact remains.1
  · exact remains.1
  · exact given_up
  · exact given_up
  · exact given_up

theorem Tidy.begin_ (tidy : s.Tidy) (reading : s.loop = .reading) (whole : s.torn = false) :
    ∃ complete : List StandbyStatusUpdate, s.sent = complete.flatMap StandbyStatusUpdate.copyData := by
  obtain ⟨complete, part, sent, remains⟩ := tidy
  rw [Remains, reading] at remains
  rw [remains.1 whole, List.append_nil] at sent
  exact ⟨complete, sent⟩

theorem Tidy.accept {taken bytes : Nat} {writing : Nat → Streaming} {complete : List StandbyStatusUpdate}
    (sent : s.sent = complete.flatMap StandbyStatusUpdate.copyData ++ status.copyData.take taken) (whole : s.torn = false)
    (kind : writing = .replying status ∨ writing = .confirming status) (fits : taken + bytes ≤ status.copyData.length) :
    (s.accept status taken bytes writing).Tidy := by
  have size := status.length_copyData
  have grown : s.sent ++ (status.copyData.drop taken).take bytes =
      complete.flatMap StandbyStatusUpdate.copyData ++ status.copyData.take (taken + bytes) := by
    rw [sent, List.append_assoc, ← List.take_add]
  by_cases last : taken + bytes = status.copyData.length
  · refine ⟨complete ++ [status], [], ?_, ?_⟩
    · change s.sent ++ (status.copyData.drop taken).take bytes = _
      rw [grown, last, List.take_length]
      simp
    · simpa [Remains, Feedback.accept, last, whole] using ⟨status⟩
  · refine ⟨complete, _, grown, ?_⟩
    have more : taken + bytes < 39 := by omega
    rcases kind with rfl | rfl <;> simp [Remains, Feedback.accept, last, whole, more]

theorem Tidy.abandon (tidy : s.Tidy) (later : loop = .reading ∨ loop = .rechecking ∨ loop = .ended)
    (taken : s.abandon loop = some t) : t.Tidy := by
  obtain ⟨complete, part, sent, remains⟩ := tidy
  have given_up := remains.is_part
  unfold Feedback.abandon at taken
  split at taken
  · rename_i here
    cases taken
    rw [Remains, here] at remains
    refine ⟨complete, part, sent, ?_⟩
    rcases later with rfl | rfl | rfl
    · exact remains
    · exact remains
    · exact given_up
  · rename_i status n here
    cases taken
    rw [Remains, here] at remains
    obtain ⟨rfl, short, whole⟩ := remains
    refine ⟨complete, _, sent, ?_⟩
    have size := status.length_copyData
    have left : (n = 0 → status.copyData.take n = []) ∧ (n ≠ 0 → 0 < (status.copyData.take n).length ∧
        (status.copyData.take n).length < 39) := by
      rw [List.length_take]
      exact ⟨fun none => by rw [none, List.take_zero], fun some => by omega⟩
    rcases later with rfl | rfl | rfl
    · exact ⟨by simpa [whole] using left.1, by simpa [whole] using left.2, given_up⟩
    · exact ⟨by simpa [whole] using left.1, by simpa [whole] using left.2, given_up⟩
    · exact given_up
  · cases taken

theorem Tidy.step (tidy : s.Tidy) (allowed : s.orderly event = true) (taken : s.step event = some t) : t.Tidy := by
  cases event with
  | keepalive walEnd replyRequested =>
    simp only [Feedback.step] at taken
    split at taken
    · rename_i here
      cases taken
      cases replyRequested with
      | true =>
        have whole : s.torn = false := by simpa [orderly] using allowed
        obtain ⟨complete, sent⟩ := tidy.begin_ here whole
        exact ⟨complete, [], by simpa [receive] using sent, rfl, by decide, whole⟩
      | false =>
        obtain ⟨complete, part, sent, remains⟩ := tidy
        rw [Remains, here] at remains
        exact ⟨complete, part, sent, remains⟩
    · cases taken
  | xlogData walEnd committed =>
    simp only [Feedback.step] at taken
    split at taken
    · rename_i here
      cases committed with
      | none =>
        cases taken
        exact tidy
      | some lsn =>
        cases taken
        have whole : s.torn = false := by simpa [orderly] using allowed
        obtain ⟨complete, sent⟩ := tidy.begin_ here whole
        exact ⟨complete, [], by simpa [receive, confirm] using sent, rfl, by decide, whole⟩
    · cases taken
  | accept bytes =>
    obtain ⟨complete, part, sent, remains⟩ := tidy
    simp only [Feedback.step] at taken
    split at taken
    · rename_i here
      split_ifs at taken with fits
      cases taken
      rw [Remains, here] at remains
      obtain ⟨rfl, -, whole⟩ := remains
      exact .accept sent whole (.inl rfl) fits.2
    · rename_i here
      split_ifs at taken with fits
      cases taken
      rw [Remains, here] at remains
      obtain ⟨rfl, -, whole⟩ := remains
      exact .accept sent whole (.inr rfl) fits.2
    · cases taken
  | recheck => exact tidy.abandon (.inr (.inl rfl)) taken
  | rechecked =>
    simp only [Feedback.step] at taken
    split_ifs at taken with here
    cases taken
    obtain ⟨complete, part, sent, remains⟩ := tidy
    rw [Remains, here] at remains
    exact ⟨complete, part, sent, remains⟩
  | stopChanged stop =>
    refine tidy.abandon ?_ taken
    cases stop
    · exact .inl rfl
    · exact .inr (.inr rfl)
  | fail =>
    cases taken
    obtain ⟨complete, part, sent, remains⟩ := tidy
    exact ⟨complete, part, sent, remains.is_part⟩

theorem length_complete (complete : List StandbyStatusUpdate) :
    (complete.flatMap StandbyStatusUpdate.copyData).length = 39 * complete.length := by
  induction complete with
  | nil => rfl
  | cons status rest ih =>
    rw [List.flatMap_cons, List.length_append, ih, StandbyStatusUpdate.length_copyData, List.length_cons]
    omega

theorem Tidy.not_framed (tidy : s.Tidy) (reading : s.loop = .reading) (torn : s.torn = true) (sent : t.sent = s.sent)
    (begun : ∃ status, t.writing = some (status, 0)) : ¬ t.Framed := by
  rintro ⟨complete', part', sent', rest⟩
  obtain ⟨status, begun⟩ := begun
  rw [begun] at rest
  obtain ⟨complete, part, sent₀, remains⟩ := tidy
  rw [Remains, reading] at remains
  obtain ⟨some_left, not_all⟩ := remains.2.1 torn
  have lengths := congrArg List.length (sent₀.symm.trans (sent.symm.trans sent'))
  simp only [rest, List.length_append, length_complete, List.take_zero, List.length_nil] at lengths
  omega

end Feedback

open Feedback in
/-- As long as no status is begun after a reply that was dropped with only a part of it sent, what was sent is complete
frames and at most a part of the frame that is being written; the first status that is begun after such a reply starts
in the middle of another frame. -/
theorem feedback_framed_iff {s : Feedback} (reached : Runs.Under Feedback.step Feedback.orderly {} s) :
    s.Framed ∧ ∀ event t, s.step event = some t → (t.Framed ↔ s.orderly event = true) := by
  have start : Tidy {} := ⟨[], [], rfl, fun _ => rfl, nofun, ⟨0, 0, 0, 0, false⟩, List.nil_prefix⟩
  have tidy : s.Tidy := reached.invariant start fun _ _ _ tidy allowed taken => tidy.step allowed taken
  refine ⟨tidy.framed, fun event t taken => ⟨fun framed => ?_, fun allowed => (tidy.step allowed taken).framed⟩⟩
  by_contra refused
  cases event with
  | keepalive walEnd replyRequested =>
    have begins : s.torn = true ∧ replyRequested = true := by simpa [orderly] using refused
    obtain ⟨torn, rfl⟩ := begins
    simp only [Feedback.step] at taken
    split at taken
    · rename_i here
      cases taken
      exact tidy.not_framed here torn (by rfl) ⟨_, rfl⟩ framed
    · cases taken
  | xlogData walEnd committed =>
    cases committed with
    | none => simp [orderly] at refused
    | some lsn =>
      have torn : s.torn = true := by simpa [orderly] using refused
      simp only [Feedback.step] at taken
      split at taken
      · rename_i here
        cases taken
        exact tidy.not_framed here torn (by rfl) ⟨_, rfl⟩ framed
      · cases taken
  | _ => exact refused rfl

def repliedTwice : List StreamEvent :=
  [.keepalive 7 true, .accept 20, .accept 19, .recheck, .rechecked, .keepalive 9 true, .accept 20]

theorem feedback_framed_replies : ∃ s : Feedback, Runs.Under Feedback.step Feedback.orderly {} s ∧
    s.sent.length = 59 ∧ s.Framed := by
  have ran : (Runs.exec Feedback.step Feedback.orderly {} repliedTwice).any (fun s => decide (s.sent.length = 59)) =
      true := by
    decide +kernel
  obtain ⟨s, reached, holds⟩ := Runs.Under.exists_of_exec ran
  exact ⟨s, reached, of_decide_eq_true holds, (feedback_framed_iff reached).1⟩

/-- The recheck comes when one byte of a reply is sent; the next reply starts behind that byte. -/
theorem reply_begun_inside_reply : ∃ s : Feedback, Runs.Under Feedback.step (fun _ _ => true) {} s ∧
    s.sent = [100, 100] ∧ ¬ s.Framed := by
  have ran : (Runs.exec Feedback.step (fun _ _ => true) {}
      [.keepalive 7 true, .accept 1, .recheck, .rechecked, .keepalive 9 true, .accept 1]).any (fun s =>
        decide (s.sent = [100, 100]) && decide (s.writing = some (⟨9, 0, 0, 0, false⟩, 1))) = true := by
    decide +kernel
  obtain ⟨s, reached, holds⟩ := Runs.Under.exists_of_exec ran
  simp only [Bool.and_eq_true, decide_eq_true_eq] at holds
  refine ⟨s, reached, holds.1, ?_⟩
  rintro ⟨complete, part, sent, rest⟩
  rw [holds.2] at rest
  have lengths := congrArg List.length (holds.1.symm.trans sent)
  simp only [rest, List.length_append, Feedback.length_complete, List.length_take,
    StandbyStatusUpdate.length_copyData, List.length_cons, List.length_nil] at lengths
  omega

end PgShard.Repl
