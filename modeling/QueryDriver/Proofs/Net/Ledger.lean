import Mathlib.Data.List.Range
import QueryDriver.Net.Script

/-!
# Ledgers of lines

The driver tells lines apart by their numbers, and a transport is free to number them as
it likes. All that the driver needs is that a new line gets a number that no line had
before. A `Ledger` of a transport says so: it reads the numbers of all lines that were
ever opened off the state of the transport, dialing enters a new number, and nothing else
enters or removes one.

Scripted networks have a ledger: their lines are numbered from one.
-/

namespace QueryDriver.Net

/-- The lines that a transport has ever opened, newest first. -/
structure Ledger {σ τ : Type} (t : Transport σ τ) where
  opened : σ → List Nat
  fresh_dial : ∀ {peer timeout s n s'}, t.dial peer timeout s = (.ok n, s') → n ∉ opened s
  opened_dial_ok : ∀ {peer timeout s n s'}, t.dial peer timeout s = (.ok n, s') →
    opened s' = n :: opened s
  opened_dial_error : ∀ {peer timeout s f s'}, t.dial peer timeout s = (.error f, s') →
    opened s' = opened s
  opened_arm : ∀ n timeout s, opened (t.arm n timeout s).2 = opened s
  opened_send : ∀ n b bs s, opened (t.send n b bs s).2 = opened s
  opened_receive : ∀ n asked s, opened (t.receive n asked s).2 = opened s
  opened_close : ∀ n s, opened (t.close n s).2 = opened s

namespace Script

/-- The numbers of the lines of a script, newest first. -/
def numbers (s : Script) : List Nat := (List.range' 1 s.lines.length).reverse

theorem numbers_of_length_eq {s s' : Script} (h : s'.lines.length = s.lines.length) :
    s'.numbers = s.numbers := by
  rw [numbers, numbers, h]

@[simp] theorem lines_note (e : NetEvent) (s : Script) : (s.note e).lines = s.lines := rfl

@[simp] theorem lines_pass (span : Double) (s : Script) : (s.pass span).lines = s.lines := rfl

@[simp] theorem length_lines_setLine (n : Nat) (l : ScriptLine) (s : Script) :
    (s.setLine n l).lines.length = s.lines.length := by
  simp [setLine]

@[simp] theorem lines_nextReply (s : Script) : s.nextReply.2.lines = s.lines := by
  unfold nextReply
  split <;> rfl

@[simp] theorem length_lines_answer (n : Nat) (payload : Wire.Bytes) (s : Script) :
    (s.answer n payload).lines.length = s.lines.length := by
  unfold answer
  split
  · rfl
  · simp

@[simp] theorem length_lines_readFrames (n fuel : Nat) (s : Script) :
    (s.readFrames n fuel).lines.length = s.lines.length := by
  induction fuel generalizing s with
  | zero => rfl
  | succ fuel ih =>
      simp only [readFrames]
      split
      · rfl
      · rw [ih]
        simp

@[simp] theorem length_lines_readInbox (n : Nat) (s : Script) :
    (s.readInbox n).lines.length = s.lines.length := by
  simp only [readInbox]
  split
  · simp
  · split <;> simp

theorem length_lines_arm (n : Nat) (timeout : Option Double) (s : Script) :
    (s.arm n timeout).2.lines.length = s.lines.length := by
  simp only [arm]
  split <;> simp

theorem length_lines_send (n : Nat) (b : UInt8) (bs : Wire.Bytes) (s : Script) :
    (s.send n b bs).2.lines.length = s.lines.length := by
  simp only [send]
  split <;> simp

theorem length_lines_receiveWithin (n asked : Nat) (arrivals : List Arrival) (s : Script) :
    (s.receiveWithin n asked arrivals).2.lines.length = s.lines.length := by
  induction arrivals generalizing s with
  | nil =>
      simp only [receiveWithin]
      split <;> simp
  | cons a later ih =>
      cases a with
      | ending => simp [receiveWithin]
      | fault f => simp [receiveWithin]
      | delay seconds =>
          simp only [receiveWithin]
          split
          · simp
          · rw [ih, lines_pass]
      | bytes bs =>
          cases bs with
          | nil => rw [receiveWithin, ih]
          | cons b bs => simp [receiveWithin]

theorem lines_close (n : Nat) (s : Script) : (s.close n).2.lines = s.lines := by
  simp only [close]
  split <;> rfl

/-- Scripted networks number their lines from one. -/
def ledger : Ledger transport where
  opened := numbers
  fresh_dial {peer timeout s n s'} h := by
    simp only [transport, dial] at h
    split at h <;> cases h
    simp [numbers, List.mem_range'_1, Nat.add_comm]
  opened_dial_ok {peer timeout s n s'} h := by
    simp only [transport, dial] at h
    split at h <;> cases h
    simp [numbers, List.range'_concat, Nat.add_comm]
  opened_dial_error {peer timeout s f s'} h := by
    simp only [transport, dial] at h
    split at h <;> cases h
    rfl
  opened_arm n timeout s := numbers_of_length_eq (length_lines_arm n timeout s)
  opened_send n b bs s := numbers_of_length_eq (length_lines_send n b bs s)
  opened_receive n asked s :=
    numbers_of_length_eq (length_lines_receiveWithin n asked (s.line n).arrivals s)
  opened_close n s := numbers_of_length_eq (congrArg List.length (lines_close n s))

end Script

end QueryDriver.Net
