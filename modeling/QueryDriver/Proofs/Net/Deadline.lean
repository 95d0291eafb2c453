import Mathlib.Algebra.Order.Group.Defs
import Mathlib.Algebra.Order.Group.Int
import QueryDriver.Proofs.Net.Closing
import QueryDriver.Proofs.Net.Errand

/-!
# The deadline of a round trip

A round trip with a timeout runs under one deadline, the point at which it began and the timeout
after it. It goes in turns. In a turn the line is armed with the time that is left until the
deadline, of which there is some, and then something is sent or received. When an operation is due
and no time is left, the round trip is over, and the line is closed without another operation.

So an operation that takes no longer than the line was armed for ends by the deadline. That is so in
every turn, however little the peer takes in or delivers each time, and whatever stale responses it
sends.
-/

namespace QueryDriver.Net

open Wire

variable {σ τ α : Type}

/-! ### Clocks that are exact -/

/-- A clock whose points and spans are the elements of an ordered group. -/
class ExactClock (τ : Type) [AddCommGroup τ] [LinearOrder τ] [Clock τ] : Prop where
  after_eq (start span : τ) : Clock.after start span = start + span
  left_eq (deadline now : τ) : Clock.left deadline now = deadline - now
  spent_iff (span : τ) : Clock.spent span = true ↔ span ≤ 0

instance : ExactClock Int where
  after_eq _ _ := rfl
  left_eq _ _ := rfl
  spent_iff _ := decide_eq_true_iff

/-! ### What happens on a network -/

/-- What is done to a line. -/
inductive Deed (τ : Type) where
  /-- It is armed with a bound, or with none, and takes it or does not. -/
  | arm (span : Option τ) (taken : Bool)
  | operate (op : Operation)
  | close
deriving DecidableEq

/-- A deed, and the readings of the clock before it and after it. -/
structure Event (τ : Type) where
  line : Nat
  deed : Deed τ
  began : τ
  ended : τ
deriving DecidableEq

/-- The bound that a line has taken last. -/
def Event.bound (n : Nat) (events : List (Event τ)) : Option τ :=
  events.foldl (fun bound e => if e.line = n then
    match e.deed with
    | .arm span true => span
    | _ => bound
  else bound) none

theorem Event.bound_concat_arm (n : Nat) (events : List (Event τ)) (span : Option τ)
    (began ended : τ) : bound n (events ++ [⟨n, .arm span true, began, ended⟩]) = span := by
  rw [bound, List.foldl_concat, if_pos rfl]

namespace Transport

variable (t : Transport σ τ) (n : Nat)

def armEvent (span : Option τ) (s : σ) : Event τ :=
  ⟨n, .arm span (t.arm n span s).1.isOk, t.now s, t.now (t.arm n span s).2⟩

def operateEvent (op : Operation) (s : σ) : Event τ :=
  ⟨n, .operate op, t.now s, t.now (op.run t n s).2⟩

def closeEvent (s : σ) : Event τ :=
  ⟨n, .close, t.now s, t.now (t.close n s).2⟩

end Transport

/-- What has happened on the network can be told from its state. -/
structure Recorder (t : Transport σ τ) where
  events : σ → List (Event τ)
  arm (n : Nat) (span : Option τ) (s : σ) :
    events (t.arm n span s).2 = events s ++ [t.armEvent n span s]
  operate (n : Nat) (op : Operation) (s : σ) :
    events (op.run t n s).2 = events s ++ [t.operateEvent n op s]
  close (n : Nat) (s : σ) : events (t.close n s).2 = events s ++ [t.closeEvent n s]

/-- A transport that keeps a record. -/
def Transport.recorded (t : Transport σ τ) : Transport (σ × List (Event τ)) τ where
  now s := t.now s.1
  dial peer span s := ((t.dial peer span s.1).1, (t.dial peer span s.1).2, s.2)
  arm n span s := ((t.arm n span s.1).1, (t.arm n span s.1).2, s.2 ++ [t.armEvent n span s.1])
  send n b rest s := ((t.send n b rest s.1).1, (t.send n b rest s.1).2,
    s.2 ++ [t.operateEvent n (.send b rest) s.1])
  receive n asked s := ((t.receive n asked s.1).1, (t.receive n asked s.1).2,
    s.2 ++ [t.operateEvent n (.receive asked) s.1])
  close n s := ((t.close n s.1).1, (t.close n s.1).2, s.2 ++ [t.closeEvent n s.1])
  supply s := t.supply s.1

/-- The record that a transport keeps. -/
def Transport.recorder (t : Transport σ τ) : Recorder t.recorded where
  events := Prod.snd
  arm _ _ _ := rfl
  operate _ op _ := by cases op <;> rfl
  close _ _ := rfl

/-! ### Turns -/

/-- A line is armed, and something is asked of it. -/
structure Turn (τ : Type) where
  /-- What the line is armed with. -/
  span : τ
  op : Operation
  /-- The reading of the clock before the line is armed. -/
  began : τ
  armed : τ
  ended : τ

namespace Turn

/-- What happens in a turn. -/
def events (n : Nat) (x : Turn τ) : List (Event τ) :=
  [⟨n, .arm (some x.span) true, x.began, x.armed⟩, ⟨n, .operate x.op, x.armed, x.ended⟩]

variable [AddCommGroup τ] [LinearOrder τ] {d : τ} {x : Turn τ}

/-- The line was armed with what is left until the deadline, which is something. -/
structure Timely (d : τ) (x : Turn τ) : Prop where
  span_eq : x.span = d - x.began
  pos : 0 < x.span

/-- An operation that takes no longer than the line was armed for ends by the deadline. -/
theorem Timely.ended_le (h : x.Timely d) (hended : x.ended ≤ x.began + x.span) : x.ended ≤ d := by
  rwa [h.span_eq, add_sub_cancel] at hended

end Turn

/-- The turn in which `op` is asked of a line that is armed with `span` in `s`. -/
def Transport.turn (t : Transport σ τ) (n : Nat) (span : τ) (op : Operation) (s : σ) : Turn τ where
  span := span
  op := op
  began := t.now s
  armed := t.now (t.arm n (some span) s).2
  ended := t.now (op.run t n (t.arm n (some span) s).2).2

/-- The record of a turn. -/
theorem Recorder.turn {t : Transport σ τ} (R : Recorder t) {n : Nat} {span : τ} {s s' : σ}
    (harm : t.arm n (some span) s = (.ok (), s')) (op : Operation) :
    R.events (op.run t n s').2 = R.events s ++ (t.turn n span op s).events n := by
  have harmed := R.arm n (some span) s
  rw [Transport.armEvent, harm] at harmed
  rw [R.operate, harmed, List.append_assoc, Turn.events, Transport.turn, harm]
  rfl

section Turns

variable [AddCommGroup τ] [LinearOrder τ] (t : Transport σ τ) (c : Connection) (d : τ)

/-- An errand goes on in turns, from one world to another, until `rest` remains of it. -/
inductive Turns : Errand α → World σ → List (Turn τ) → Errand α → World σ → Prop
  | here (p : Errand α) (w : World σ) : Turns p w [] p w
  | due {op : Operation} {next : Except SocketFault op.Result → Errand α} {rest : Errand α}
    {w w' : World σ} {s : σ} {turns : List (Turn τ)} (hahead : t.now w.net < d)
    (harm : t.arm c.line (some (d - t.now w.net)) w.net = (.ok (), s))
    (h : Turns (next (op.run t c.line s).1) { w with net := (op.run t c.line s).2 } turns rest w') :
    Turns (.due op next) w (t.turn c.line (d - t.now w.net) op w.net :: turns) rest w'
  | note {entry : LogEntry} {next rest : Errand α} {w w' : World σ} {turns : List (Turn τ)}
    (h : Turns next { w with journal := w.journal.record entry } turns rest w') :
    Turns (.note entry next) w turns rest w'
  | look {next : Nat → Nat → Errand α} {rest : Errand α} {w w' : World σ} {turns : List (Turn τ)}
    (h : Turns (next (t.supply w.net) w.frameLimit) w turns rest w') :
    Turns (.look next) w turns rest w'

/-- Why an errand does not go on: it is over, or an operation is due and there is no time left, or
the line would not be armed. -/
inductive Halts : Errand α → World σ → Except Failure α → World σ → Prop
  | done (x : α) (w : World σ) : Halts (.done x) w (.ok x) w
  | fail (e : DriverError) (w : World σ) : Halts (.fail e) w (.error (.driver e)) w
  | late {p : Errand α} {w : World σ} (hdue : p.IsDue) (hlate : d ≤ t.now w.net) :
    Halts p w (.error (.ofCause (.deadlinePassed c.peer))) w
  | refused {p : Errand α} {w : World σ} {fault : SocketFault} {s : σ} (hdue : p.IsDue)
    (hahead : t.now w.net < d)
    (harm : t.arm c.line (some (d - t.now w.net)) w.net = (.error fault, s)) :
    Halts p w (.error (.fault (.socket fault.text))) { w with net := s }

end Turns

section Turns

variable [AddCommGroup τ] [LinearOrder τ] {t : Transport σ τ} {c : Connection} {d : τ}
  {p rest : Errand α} {w w' : World σ} {turns : List (Turn τ)}

namespace Turns

theorem timely [IsOrderedAddMonoid τ] (h : Turns t c d p w turns rest w') :
    ∀ x ∈ turns, x.Timely d := by
  induction h with
  | here p w => exact List.forall_mem_nil _
  | due hahead _ _ ih => exact List.forall_mem_cons.2 ⟨⟨rfl, sub_pos.2 hahead⟩, ih⟩
  | note _ ih => exact ih
  | look _ ih => exact ih

theorem closed_eq (h : Turns t c d p w turns rest w') : w'.closed = w.closed := by
  induction h with
  | here p w => rfl
  | due _ _ _ ih => exact ih
  | note _ ih => exact ih
  | look _ ih => exact ih

/-- What is recorded are the turns. -/
theorem events_eq (R : Recorder t) (h : Turns t c d p w turns rest w') :
    R.events w'.net = R.events w.net ++ turns.flatMap (Turn.events c.line) := by
  induction h with
  | here p w => exact (List.append_nil _).symm
  | due _ harm _ ih => rw [ih, R.turn harm, List.flatMap_cons, List.append_assoc]
  | note _ ih => exact ih
  | look _ ih => exact ih

end Turns

variable [IsOrderedAddMonoid τ] [Clock τ] [ExactClock τ]

/-- Where an operation is due, the line is armed with the time that is left and the operation is
carried out, or that is where the errand halts. -/
theorem Errand.perform_due_cases {op : Operation} {next : Except SocketFault op.Result → Errand α}
    {o : Except Failure α} (h : ((due op next).perform t c (some d)).run w = (o, w')) :
    (t.now w.net < d ∧ ∃ s, t.arm c.line (some (d - t.now w.net)) w.net = (.ok (), s) ∧
        ((next (op.run t c.line s).1).perform t c (some d)).run
          { w with net := (op.run t c.line s).2 } = (o, w')) ∨
      Halts t c d (due op next) w o w' := by
  rw [perform, Connection.applyDeadline, bind_assoc, run_bind_of_ok (Action.run_get w),
    ExactClock.left_eq] at h
  by_cases hlate : d ≤ t.now w.net
  · rw [if_pos ((ExactClock.spent_iff _).2 (sub_nonpos.2 hlate))] at h
    cases h
    exact .inr (.late trivial hlate)
  · have hahead := not_le.1 hlate
    rw [if_neg fun hspent => hlate (sub_nonpos.1 ((ExactClock.spent_iff _).1 hspent)),
      Connection.arm, bind_assoc, run_bind_of_ok (Action.run_onNet _ _)] at h
    rcases harm : t.arm c.line (some (d - t.now w.net)) w.net with ⟨fault | u, s⟩
    · rw [harm] at h
      cases h
      exact .inr (.refused trivial hahead harm)
    · rw [harm] at h
      exact .inl ⟨hahead, s, rfl, h⟩

/-- An errand that is carried out goes on in turns until it halts. -/
theorem Errand.perform_cases {o : Except Failure α}
    (h : (p.perform t c (some d)).run w = (o, w')) :
    ∃ turns rest w₁, Turns t c d p w turns rest w₁ ∧ Halts t c d rest w₁ o w' := by
  induction p generalizing w with
  | done x =>
      cases h
      exact ⟨[], _, w', .here _ _, .done _ _⟩
  | fail e =>
      cases h
      exact ⟨[], _, w', .here _ _, .fail _ _⟩
  | due op next ih =>
      obtain ⟨hahead, s, harm, h⟩ | hhalts := perform_due_cases h
      · obtain ⟨turns, rest, w₁, hturns, hhalts⟩ := ih _ h
        exact ⟨_, rest, w₁, .due hahead harm hturns, hhalts⟩
      · exact ⟨[], _, w, .here _ _, hhalts⟩
  | note entry next ih =>
      rw [perform, run_bind_of_ok (Action.run_record _ _)] at h
      obtain ⟨turns, rest, w₁, hturns, hhalts⟩ := ih h
      exact ⟨turns, rest, w₁, .note hturns, hhalts⟩
  | look next ih =>
      rw [perform, run_bind_of_ok (Action.run_get _)] at h
      obtain ⟨turns, rest, w₁, hturns, hhalts⟩ := ih _ _ h
      exact ⟨turns, rest, w₁, .look hturns, hhalts⟩

/-- How a guarded errand ends from what remains of it, and what is recorded of the end. Either it
was over: there is a result, and the line is armed with no bound, or it has failed. Or an operation
is due: there is no time left, or the line would not be armed. -/
inductive Concludes (t : Transport σ τ) (c : Connection) (d : τ) :
    Errand α → World σ → Except Failure α → World σ → List (Event τ) → Prop
  | answered {x : α} {w w' : World σ} :
    Concludes t c d (.done x) w (.ok x) w' [t.armEvent c.line none w.net]
  | failed {e : DriverError} {w w' : World σ} (hclosed : c.line ∈ w'.closed) :
    Concludes t c d (.fail e) w (.error (.driver e)) w' [t.closeEvent c.line w.net]
  | late {p : Errand α} {w w' : World σ} {e : DriverError} (hdue : p.IsDue)
    (hlate : d ≤ t.now w.net) (he : e = .ofCause (.deadlinePassed c.peer))
    (hcategory : e.category = .timeout) (hclosed : c.line ∈ w'.closed) :
    Concludes t c d p w (.error (.driver e)) w' [t.closeEvent c.line w.net]
  | refused {p : Errand α} {w w' : World σ} {fault : SocketFault} {s : σ} (hdue : p.IsDue)
    (hahead : t.now w.net < d)
    (harm : t.arm c.line (some (d - t.now w.net)) w.net = (.error fault, s)) :
    Concludes t c d p w (.error (.fault (.socket fault.text))) w'
      [t.armEvent c.line (some (d - t.now w.net)) w.net, t.armEvent c.line none s]

/-- An errand that is carried out under guard goes on in turns, and then it is concluded. -/
theorem Errand.guarded_cases (R : Recorder t) {o : Except Failure α}
    (h : (c.guarded t (p.perform t c (some d))).run w = (o, w')) (hopen : c.line ∉ w.closed) :
    ∃ turns rest w₁ closing, Turns t c d p w turns rest w₁ ∧
      Concludes t c d rest w₁ o w' closing ∧
      R.events w'.net = R.events w.net ++ turns.flatMap (Turn.events c.line) ++ closing := by
  obtain ⟨w₂, hperform, hguard⟩ := Connection.guarded_net h
  obtain ⟨turns, rest, w₁, hturns, hhalts⟩ := perform_cases hperform
  have hevents := hturns.events_eq R
  rw [← hturns.closed_eq] at hopen
  cases hhalts with
  | done x =>
      obtain ⟨⟨e, he⟩, -⟩ | ⟨-, hnet⟩ := hguard hopen
      · cases he
      · exact ⟨turns, _, w₂, _, hturns, .answered, by rw [hnet, R.arm, hevents]⟩
  | fail e =>
      obtain ⟨-, hclosed, hnet⟩ | ⟨hne, -⟩ := hguard hopen
      · exact ⟨turns, _, w₂, _, hturns, .failed hclosed, by rw [hnet, R.close, hevents]⟩
      · exact absurd rfl (hne e)
  | late hdue hlate =>
      obtain ⟨-, hclosed, hnet⟩ | ⟨hne, -⟩ := hguard hopen
      · exact ⟨turns, _, w₂, _, hturns, .late hdue hlate rfl rfl hclosed,
          by rw [hnet, R.close, hevents]⟩
      · exact absurd rfl (hne _)
  | refused hdue hahead harm =>
      obtain ⟨⟨e, he⟩, -⟩ | ⟨-, hnet⟩ := hguard hopen
      · cases he
      · refine ⟨turns, _, w₁, _, hturns, .refused hdue hahead harm, ?_⟩
        have harmed := R.arm c.line (some (d - t.now w₁.net)) w₁.net
        rw [harm] at harmed
        rw [hnet, R.arm, harmed, hevents, List.append_assoc]
        rfl

/-- A round trip with a timeout fails at once on a closed line. On an open line it goes in turns,
and then it is concluded. In every turn the line is armed with what is left until the deadline,
which is something, and so an operation that takes no longer ends by the deadline. When no time is
left for an operation that is due, that is an error, and nothing happens any more but that the line
is closed. After an answer the line is armed with no bound, and has none if it can always be armed
so. -/
theorem Connection.execute_timely (R : Recorder t) {query : Query} {timeout : τ}
    {o : Except Failure Response} (hrun : (c.execute t query (some timeout)).run w = (o, w')) :
    (c.line ∈ w.closed ∧ o = .error (.ofCause .connectionClosed) ∧ w' = w) ∨
    ∃ turns rest w₁ closing,
      Turns t c (t.now w.net + timeout) (Errand.exchange c.peer query)
        { w with journal := w.journal.record (.sending c.line c.peer query) } turns rest w₁ ∧
      Concludes t c (t.now w.net + timeout) rest w₁ o w' closing ∧
      R.events w'.net = R.events w.net ++ turns.flatMap (Turn.events c.line) ++ closing ∧
      (∀ x ∈ turns, x.Timely (t.now w.net + timeout) ∧
        (x.ended ≤ x.began + x.span → x.ended ≤ t.now w.net + timeout)) ∧
      ((∀ s, (t.arm c.line none s).1 = .ok ()) → ∀ r, o = .ok r →
        Event.bound c.line (R.events w'.net) = none) := by
  by_cases hclosed : c.line ∈ w.closed
  · rw [run_execute_closed hclosed] at hrun
    cases hrun
    exact .inl ⟨hclosed, rfl, rfl⟩
  · obtain ⟨w₂, hguarded, hw'⟩ := execute_parts hclosed hrun
    rw [Option.map_some, ExactClock.after_eq, ← Errand.perform_exchange] at hguarded
    obtain ⟨turns, rest, w₁, closing, hturns, hconcludes, hevents⟩ :=
      Errand.guarded_cases R hguarded hclosed
    have hnet : w'.net = w₂.net := by
      obtain ⟨-, rfl⟩ | ⟨r, -, rfl⟩ := hw' <;> rfl
    rw [← hnet] at hevents
    have hconcludes' : Concludes t c (t.now w.net + timeout) rest w₁ o w' closing := by
      obtain ⟨-, rfl⟩ | ⟨r, rfl, rfl⟩ := hw'
      · exact hconcludes
      · cases hconcludes
        exact .answered
    refine .inr ⟨turns, rest, w₁, closing, hturns, hconcludes', hevents, fun x hx => ?_, ?_⟩
    · have htimely := hturns.timely x hx
      exact ⟨htimely, htimely.ended_le⟩
    · rintro harms r rfl
      cases hconcludes'
      rw [hevents, Transport.armEvent, harms]
      exact Event.bound_concat_arm _ _ _ _ _

end Turns

/-- A clock, and the bytes that the peer has still to deliver. -/
structure Drip where
  clock : Int
  bytes : Bytes

namespace Drip

/-- The peer takes in one byte and delivers one byte at a time, and each takes as long as `pace`
says. -/
def transport (pace : Int) : Transport Drip Int where
  now s := s.clock
  dial _ _ s := (.error .timedOut, s)
  arm _ _ s := (.ok (), s)
  send _ _ _ s := (.ok 0, { s with clock := s.clock + pace })
  receive _ asked s := (.ok ⟨s.bytes.take (min 1 asked),
      Nat.le_trans (List.length_take_le _ _) (Nat.min_le_right _ _)⟩,
    ⟨s.clock + pace, s.bytes.drop (min 1 asked)⟩)
  close _ s := (.ok (), s)
  supply s := s.bytes.length

/-- A stale response and an answer. -/
def world : World (Drip × List (Event Int)) :=
  ⟨(⟨0, [2, 0, 0, 0, 16, 1] ++ [2, 0, 0, 0, 16, 2]⟩, []), [], maxFrame, Journal.fresh⟩

def line : Connection := ⟨0, default⟩

def roundTrip (pace timeout : Int) :
    Except Failure Response × World (Drip × List (Event Int)) :=
  (line.execute (transport pace).recorded (.followUp .continue 2) (some timeout)).run world

theorem run_execute (pace timeout : Int) :
    (line.execute (transport pace).recorded (.followUp .continue 2) (some timeout)).run world =
      ((roundTrip pace timeout).1, (roundTrip pace timeout).2) :=
  rfl

/-- Three bytes of a query are sent, the last of them too slowly. -/
def slowly : List (Event Int) :=
  [⟨0, .arm (some 5) true, 0, 0⟩, ⟨0, .operate (.send 4 [0, 0, 0, 8, 2, 24, 2]), 0, 2⟩,
    ⟨0, .arm (some 3) true, 2, 2⟩, ⟨0, .operate (.send 0 [0, 0, 8, 2, 24, 2]), 2, 4⟩,
    ⟨0, .arm (some 1) true, 4, 4⟩, ⟨0, .operate (.send 0 [0, 8, 2, 24, 2]), 4, 6⟩,
    ⟨0, .close, 6, 6⟩]

end Drip

/-- When no time is left for the fourth byte, the line is closed. Where there is just enough time
for all bytes, there is an answer, and the line is left with no bound. -/
theorem execute_timely_drip :
    (∃ (turns : List (Turn Int)) (rest : Errand Response) (w₁ : World (Drip × List (Event Int)))
        (closing : List (Event Int)),
      Concludes (Drip.transport 2).recorded Drip.line 5 rest w₁ (Drip.roundTrip 2 5).1
        (Drip.roundTrip 2 5).2 closing ∧ (∀ x ∈ turns, x.Timely 5) ∧
      turns.flatMap (Turn.events 0) ++ closing = Drip.slowly) ∧
    ∃ r, (Drip.roundTrip 1 20).1 = .ok r ∧
      Event.bound 0 (Drip.roundTrip 1 20).2.net.2 = none := by
  have hrecord : (Drip.roundTrip 2 5).2.net.2 = Drip.slowly := by decide +kernel
  have hok : (Drip.roundTrip 1 20).1.isOk = true := by decide +kernel
  obtain ⟨hclosed, -⟩ | ⟨turns, rest, w₁, closing, -, hconcludes, hevents, htimely, -⟩ :=
    Connection.execute_timely (Drip.transport 2).recorder (Drip.run_execute 2 5)
  · cases hclosed
  obtain ⟨hclosed, -⟩ | ⟨-, -, -, -, -, -, -, -, hbound⟩ :=
    Connection.execute_timely (Drip.transport 1).recorder (Drip.run_execute 1 20)
  · cases hclosed
  refine ⟨⟨turns, rest, w₁, closing, hconcludes, fun x hx => (htimely x hx).1,
    hevents.symm.trans hrecord⟩, ?_⟩
  rcases hanswer : (Drip.roundTrip 1 20).1 with e | r
  · rw [hanswer] at hok
    cases hok
  · exact ⟨r, rfl, hbound (fun _ => rfl) r hanswer⟩

end QueryDriver.Net
