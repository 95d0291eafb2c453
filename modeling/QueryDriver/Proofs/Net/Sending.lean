import QueryDriver.Proofs.Net.Framing
import QueryDriver.Proofs.Net.RoundTrip

/-!
# What a connection sends

A `Meter` of a transport keeps the bytes that every line has accepted. A network can always be
tapped, which gives it a meter and changes nothing else.

The bytes of a connection are the greeting and then, for each query that is executed, the frame
of the query. A write that fails leaves only the beginning of a frame behind. If an error of the
driver has ended it then the line is closed and nothing follows; if the line would not be armed
then it is still open, and the next query follows the cut frame.
-/

namespace QueryDriver.Net

open Wire

variable {σ τ : Type}

/-- The bytes that the lines of a transport have accepted. -/
structure Meter (t : Transport σ τ) extends Ledger t where
  accepted : σ → Nat → Bytes
  accepted_dial : ∀ {peer timeout s n s'}, t.dial peer timeout s = (.ok n, s') → accepted s' n = []
  accepted_arm : ∀ n span s, accepted (t.arm n span s).2 = accepted s
  accepted_send_ok : ∀ {n b bs s k s'}, t.send n b bs s = (.ok k, s') →
    accepted s' n = accepted s n ++ b :: bs.take k.val
  accepted_send_error : ∀ {n b bs s f s'}, t.send n b bs s = (.error f, s') →
    accepted s' = accepted s
  accepted_receive : ∀ n asked s, accepted (t.receive n asked s).2 = accepted s
  accepted_close : ∀ n s, accepted (t.close n s).2 = accepted s

/-- The transport with a record of what every line has accepted. -/
def Transport.tapped (t : Transport σ τ) : Transport (σ × (Nat → Bytes)) τ where
  now s := t.now s.1
  dial peer timeout s := match t.dial peer timeout s.1 with
    | (.ok n, s₁) => (.ok n, s₁, fun m => if m = n then [] else s.2 m)
    | (.error f, s₁) => (.error f, s₁, s.2)
  arm n span s := ((t.arm n span s.1).1, (t.arm n span s.1).2, s.2)
  send n b bs s := match t.send n b bs s.1 with
    | (.ok k, s₁) =>
      (.ok k, s₁, fun m => if m = n then s.2 m ++ b :: bs.take k.val else s.2 m)
    | (.error f, s₁) => (.error f, s₁, s.2)
  receive n asked s := ((t.receive n asked s.1).1, (t.receive n asked s.1).2, s.2)
  close n s := ((t.close n s.1).1, (t.close n s.1).2, s.2)
  supply s := t.supply s.1

/-- The tap is a meter. -/
def Ledger.tapped {t : Transport σ τ} (L : Ledger t) : Meter t.tapped where
  opened s := L.opened s.1
  fresh_dial {peer timeout s n s'} h := by
    simp only [Transport.tapped] at h
    split at h <;> cases h
    rename_i hdial
    exact L.fresh_dial hdial
  opened_dial_ok {peer timeout s n s'} h := by
    simp only [Transport.tapped] at h
    split at h <;> cases h
    rename_i hdial
    exact L.opened_dial_ok hdial
  opened_dial_error {peer timeout s f s'} h := by
    simp only [Transport.tapped] at h
    split at h <;> cases h
    rename_i hdial
    exact L.opened_dial_error hdial
  opened_arm n span s := L.opened_arm n span s.1
  opened_send n b bs s := by
    have hsend := L.opened_send n b bs s.1
    simp only [Transport.tapped]
    split <;> (rename_i h; rw [h] at hsend; exact hsend)
  opened_receive n asked s := L.opened_receive n asked s.1
  opened_close n s := L.opened_close n s.1
  accepted s := s.2
  accepted_dial {peer timeout s n s'} h := by
    simp only [Transport.tapped] at h
    split at h <;> cases h
    exact if_pos rfl
  accepted_arm n span s := rfl
  accepted_send_ok {n b bs s k s'} h := by
    simp only [Transport.tapped] at h
    split at h <;> cases h
    exact if_pos rfl
  accepted_send_error {n b bs s f s'} h := by
    simp only [Transport.tapped] at h
    split at h <;> cases h
    rfl
  accepted_receive n asked s := rfl
  accepted_close n s := rfl

/-- What a line accepts of a query, given what has become of the query. -/
inductive Sent (limit : Nat) (query : Query) : Except Failure Response → Bytes → Prop
  | whole {frame : Bytes} (o : Except Failure Response)
    (hframe : encodeFrame limit query.encode = .ok frame) : Sent limit query o frame
  /-- The write has failed. -/
  | cut {frame piece : Bytes} (e : Failure) (hframe : encodeFrame limit query.encode = .ok frame)
    (hfront : piece <+: frame) (hne : piece ≠ frame) : Sent limit query (.error e) piece
  | tooLong {cause : Cause} (herror : encodeFrame limit query.encode = .error cause) :
    Sent limit query (.error (.ofCause cause)) []

variable {t : Transport σ τ} {M : Meter t} {c : Connection}

namespace Meter

/-- What the line of a connection has accepted. -/
def bytes (M : Meter t) (c : Connection) (w : World σ) : Bytes := M.accepted w.net c.line

theorem armsFreely : ArmsFreely t c.line (M.bytes c) :=
  fun span w => congrFun (M.accepted_arm c.line span w.net) c.line

theorem awaitsFreely : AwaitsFreely t c.line (M.bytes c) where
  arm := armsFreely
  receive asked w := congrFun (M.accepted_receive c.line asked w.net) c.line
  record _ _ := rfl

theorem closesFreely : ClosesFreely t c.line (M.bytes c) where
  close w := congrFun (M.accepted_close c.line w.net) c.line
  closed _ _ := rfl

end Meter

namespace Connection

variable [Clock τ] {deadline : Option τ}

/-- Writing gets the beginning of the data across, and all of it unless it fails. -/
theorem bytes_writeWithin {fuel : Nat} {data : Bytes} (hfuel : data.length ≤ fuel) {w w' : World σ}
    {o : Except Failure Unit} (h : (c.writeWithin t deadline fuel data).run w = (o, w')) :
    ∃ piece, M.bytes c w' = M.bytes c w ++ piece ∧
      (o = .ok () ∧ piece = data ∨ ∃ e, o = .error e ∧ piece <+: data ∧ piece ≠ data) := by
  induction fuel generalizing data w with
  | zero =>
      obtain rfl := List.length_eq_zero_iff.1 (Nat.le_zero.1 hfuel)
      cases h
      exact ⟨[], (List.append_nil _).symm, .inl ⟨rfl, rfl⟩⟩
  | succ fuel ih =>
      cases data with
      | nil =>
          cases h
          exact ⟨[], (List.append_nil _).symm, .inl ⟨rfl, rfl⟩⟩
      | cons b bs =>
          have hnothing (e : Failure) (hw' : M.bytes c w' = M.bytes c w) (ho : o = .error e) :
              ∃ piece, M.bytes c w' = M.bytes c w ++ piece ∧ (o = .ok () ∧ piece = b :: bs ∨
                ∃ e, o = .error e ∧ piece <+: b :: bs ∧ piece ≠ b :: bs) :=
            ⟨[], by rw [hw', List.append_nil], .inr ⟨e, ho, List.nil_prefix, nofun⟩⟩
          obtain ⟨u, w₁, harm, h⟩ | ⟨e, harm, he⟩ := run_bind_cases h
          · have hw₁ := (preserves_applyDeadline (Meter.armsFreely (M := M))).same harm
            rw [run_bind_of_ok (Action.run_onNet _ _)] at h
            rcases hsend : t.send c.line b bs w₁.net with ⟨fault | k, s₂⟩
            · have hs₂ : M.bytes c { w₁ with net := s₂ } = M.bytes c w :=
                (congrFun (M.accepted_send_error hsend) c.line).trans hw₁
              simp only [hsend] at h
              cases fault <;> cases h <;> exact hnothing _ hs₂ rfl
            · have hs₂ : M.bytes c { w₁ with net := s₂ } = M.bytes c w ++ b :: bs.take k.val := by
                rw [← hw₁]
                exact M.accepted_send_ok hsend
              simp only [hsend] at h
              have hrest : (bs.drop k.val).length ≤ fuel := by
                rw [List.length_cons] at hfuel
                rw [List.length_drop]
                omega
              have hsplit : b :: bs = (b :: bs.take k.val) ++ bs.drop k.val := by simp
              obtain ⟨piece, hpiece, hcases⟩ := ih hrest h
              refine ⟨(b :: bs.take k.val) ++ piece, ?_, ?_⟩
              · rw [hpiece, hs₂, List.append_assoc]
              · rw [hsplit]
                simpa only [List.prefix_append_right_inj, ne_eq, List.append_right_inj] using hcases
          · exact hnothing e ((preserves_applyDeadline (Meter.armsFreely (M := M))).same harm) he

theorem bytes_exchange {query : Query} {w w' : World σ} {o : Except Failure Response}
    (h : (c.exchange t query deadline).run w = (o, w')) :
    ∃ piece, M.bytes c w' = M.bytes c w ++ piece ∧ Sent w.frameLimit query o piece := by
  rw [exchange, run_bind_of_ok (Action.run_get w)] at h
  dsimp only at h
  split at h
  · rename_i cause herror
    cases h
    exact ⟨[], (List.append_nil _).symm, .tooLong herror⟩
  · rename_i frame hframe
    obtain ⟨u, w₁, hwrite, hawait⟩ | ⟨e, hwrite, rfl⟩ := run_bind_cases h
    · have hw' := (preserves_await (Meter.awaitsFreely (M := M)) _).same hawait
      obtain ⟨piece, hpiece, ⟨-, rfl⟩ | ⟨e, he, -⟩⟩ :=
        bytes_writeWithin (M := M) (Nat.le_refl _) hwrite
      · exact ⟨_, hw'.trans hpiece, .whole o hframe⟩
      · cases he
    · obtain ⟨piece, hpiece, ⟨ho, -⟩ | ⟨e', -, hfront, hne⟩⟩ :=
        bytes_writeWithin (M := M) (Nat.le_refl _) hwrite
      · cases ho
      · exact ⟨piece, hpiece, .cut e hframe hfront hne⟩

/-- What a round trip sends on an open line. -/
theorem bytes_execute {query : Query} {timeout : Option τ} {w w' : World σ}
    {o : Except Failure Response} (hopen : c.line ∉ w.closed)
    (h : (c.execute t query timeout).run w = (o, w')) :
    ∃ piece, M.bytes c w' = M.bytes c w ++ piece ∧ Sent w.frameLimit query o piece := by
  obtain ⟨deadline, w₁, hexchange, hw'⟩ :=
    execute_preserves (Meter.awaitsFreely (M := M)) Meter.closesFreely (fun _ _ => rfl) hopen h
  obtain ⟨piece, hpiece, hsent⟩ := bytes_exchange (M := M) hexchange
  exact ⟨piece, hw'.trans hpiece, hsent⟩

/-- A line that was dialed has accepted the greeting. -/
theorem bytes_dial {peer : Endpoint} {timeout : Option τ} {w w' : World σ}
    (h : (dial t peer timeout).run w = (.ok c, w')) :
    M.bytes c w' = handshake := by
  obtain ⟨fault, s, e, -, ho, -⟩ | ⟨n, s₁, deadline, r, w₁, hdial, hguarded, hw'⟩ := dial_parts h
  · cases ho
  · obtain ⟨e, -, ho, -⟩ | ⟨rfl, ho, rfl⟩ := hw'
    · cases ho
    · cases ho
      obtain ⟨w₂, hwrite, hw₁⟩ :=
        guarded_preserves (Meter.awaitsFreely (M := M)) Meter.closesFreely hguarded
      obtain ⟨piece, hpiece, ⟨-, rfl⟩ | ⟨e, he, -⟩⟩ :=
        bytes_writeWithin (M := M) (Nat.le_refl _) hwrite
      · have hnew : M.bytes ⟨n, peer⟩ { w with net := s₁ } = [] := M.accepted_dial hdial
        rw [hnew, List.nil_append] at hpiece
        exact hw₁.trans hpiece
      · cases he

end Connection

/-- A query with what has become of it. -/
abbrev Call := Query × Except Failure Response

/-- The line was closed before the query. -/
def Call.Unsent (x : Call) : Prop := x.2 = .error (.ofCause .connectionClosed)

/-- Queries are executed on a connection one after the other. In between anything may happen
that sends nothing on the line, does not open it again and leaves the limit on frames. -/
inductive Calls [Clock τ] (M : Meter t) (c : Connection) :
    World σ → List Call → World σ → Prop
  | nil (w : World σ) : Calls M c w [] w
  | call {w w₁ w' : World σ} {query : Query} {timeout : Option τ} {o : Except Failure Response}
    {calls : List Call} (hrun : (c.execute t query timeout).run w = (o, w₁))
    (hlater : Calls M c w₁ calls w') : Calls M c w ((query, o) :: calls) w'
  | elsewhere {w w₁ w' : World σ} {calls : List Call} (hbytes : M.bytes c w₁ = M.bytes c w)
    (hclosed : c.line ∈ w.closed → c.line ∈ w₁.closed) (hlimit : w₁.frameLimit = w.frameLimit)
    (hlater : Calls M c w₁ calls w') : Calls M c w calls w'

/-- What the calls have sent, from an open line on. `shut` is that the line is closed behind
them. -/
inductive Spoken (limit : Nat) (shut : Prop) : List Call → Bytes → Prop
  | nil : Spoken limit shut [] []
  | silent {calls : List Call} (hshut : shut) (h : ∀ x ∈ calls, x.Unsent) :
    Spoken limit shut calls []
  | whole {query : Query} {frame bs : Bytes} {calls : List Call} (o : Except Failure Response)
    (hframe : encodeFrame limit query.encode = .ok frame) (hlater : Spoken limit shut calls bs) :
    Spoken limit shut ((query, o) :: calls) (frame ++ bs)
  /-- The write has failed, and the line was closed. -/
  | cut {query : Query} {frame piece : Bytes} {calls : List Call} (e : DriverError)
    (hframe : encodeFrame limit query.encode = .ok frame) (hfront : piece <+: frame)
    (hne : piece ≠ frame) (hshut : shut) (h : ∀ x ∈ calls, x.Unsent) :
    Spoken limit shut ((query, .error (.driver e)) :: calls) piece
  | tooLong {query : Query} {cause : Cause} {calls : List Call}
    (herror : encodeFrame limit query.encode = .error cause) (hshut : shut)
    (h : ∀ x ∈ calls, x.Unsent) :
    Spoken limit shut ((query, .error (.ofCause cause)) :: calls) []
  /-- The line would not be armed for the whole frame, and it stays open. -/
  | refused {query : Query} {frame piece bs : Bytes} {calls : List Call} (f : Fault)
    (hf : f.IsRefusal) (hframe : encodeFrame limit query.encode = .ok frame)
    (hfront : piece <+: frame) (hne : piece ≠ frame) (hlater : Spoken limit shut calls bs) :
    Spoken limit shut ((query, .error (.fault f)) :: calls) (piece ++ bs)

/-- What the calls have sent if no line was unwilling to be armed: the frames of queries, and of
one more query the beginning of its frame if its write has failed. What was not sent as a whole
is the end of it, and the line is closed. -/
def SpokenSmoothly (limit : Nat) (shut : Prop) (calls : List Call) (bs : Bytes) : Prop :=
  ∃ done later frames piece, calls = done ++ later ∧ bs = frames ++ piece ∧
    encodeFrames limit (done.map fun x => x.1.encode) = .ok frames ∧
    match later with
    | [] => piece = []
    | x :: rest => shut ∧ (∀ y ∈ rest, y.Unsent) ∧
      (x.Unsent ∧ piece = [] ∨
        (∃ cause, encodeFrame limit x.1.encode = .error cause ∧ x.2 = .error (.ofCause cause) ∧
          piece = []) ∨
        ∃ frame e, encodeFrame limit x.1.encode = .ok frame ∧ x.2 = .error (.driver e) ∧
          piece <+: frame ∧ piece ≠ frame)

theorem Spoken.smoothly {limit : Nat} {shut : Prop} {calls : List Call} {bs : Bytes}
    (h : Spoken limit shut calls bs) (hsmooth : ∀ x ∈ calls, ¬ Refused x.2) :
    SpokenSmoothly limit shut calls bs := by
  induction h with
  | nil => exact ⟨[], [], [], [], rfl, rfl, rfl, rfl⟩
  | silent hshut h =>
      rename_i calls
      cases calls with
      | nil => exact ⟨[], [], [], [], rfl, rfl, rfl, rfl⟩
      | cons x rest =>
          obtain ⟨hx, hrest⟩ := List.forall_mem_cons.1 h
          exact ⟨[], x :: rest, [], [], rfl, rfl, rfl, hshut, hrest, .inl ⟨hx, rfl⟩⟩
  | whole o hframe hlater ih =>
      rename_i query frame bs calls
      obtain ⟨done, later, frames, piece, rfl, rfl, hframes, hrest⟩ :=
        ih (List.forall_mem_cons.1 hsmooth).2
      exact ⟨(query, o) :: done, later, frame ++ frames, piece, rfl, (List.append_assoc ..).symm,
        encodeFrames_cons.2 ⟨frame, frames, hframe, hframes, rfl⟩, hrest⟩
  | cut e hframe hfront hne hshut h =>
      exact ⟨[], _, [], _, rfl, rfl, rfl, hshut, h, .inr (.inr ⟨_, e, hframe, rfl, hfront, hne⟩)⟩
  | tooLong herror hshut h =>
      exact ⟨[], _, [], _, rfl, rfl, rfl, hshut, h, .inr (.inl ⟨_, herror, rfl, rfl⟩)⟩
  | refused f hf hframe hfront hne hlater ih =>
      exact absurd ((refused_error (.fault f)).2 hf) (hsmooth _ List.mem_cons_self)

/-- Executes queries one after the other, each with its timeout. -/
def Connection.executeAll [Clock τ] (t : Transport σ τ) (c : Connection) :
    List (Query × Option τ) → World σ → List Call × World σ
  | [], w => ([], w)
  | (query, timeout) :: later, w =>
    let (o, w₁) := (c.execute t query timeout).run w
    let (calls, w') := c.executeAll t later w₁
    ((query, o) :: calls, w')

namespace Calls

variable [Clock τ]

theorem executeAll (M : Meter t) (c : Connection) (queries : List (Query × Option τ))
    (w : World σ) : Calls M c w (c.executeAll t queries w).1 (c.executeAll t queries w).2 := by
  induction queries generalizing w with
  | nil => exact .nil w
  | cons x later ih => exact .call rfl (ih _)

/-- Nothing is sent on a closed line. -/
theorem of_closed {w w' : World σ} {calls : List Call} (h : Calls M c w calls w')
    (hclosed : c.line ∈ w.closed) :
    M.bytes c w' = M.bytes c w ∧ c.line ∈ w'.closed ∧ ∀ x ∈ calls, x.Unsent := by
  induction h with
  | nil w => exact ⟨rfl, hclosed, List.forall_mem_nil _⟩
  | call hrun hlater ih =>
      rw [Connection.run_execute_closed hclosed] at hrun
      obtain ⟨rfl, rfl⟩ := Prod.mk.inj hrun
      obtain ⟨hbytes, hclosed', hunsent⟩ := ih hclosed
      exact ⟨hbytes, hclosed', List.forall_mem_cons.2 ⟨rfl, hunsent⟩⟩
  | elsewhere hbytes hkept hlimit hlater ih =>
      obtain ⟨hbytes', hclosed', hunsent⟩ := ih (hkept hclosed)
      exact ⟨hbytes'.trans hbytes, hclosed', hunsent⟩

theorem spoken {w w' : World σ} {calls : List Call} (h : Calls M c w calls w') :
    ∃ bs, M.bytes c w' = M.bytes c w ++ bs ∧
      Spoken w.frameLimit (c.line ∈ w'.closed) calls bs := by
  induction h with
  | nil w => exact ⟨[], (List.append_nil _).symm, .nil⟩
  | call hrun hlater ih =>
      rename_i w w₁ w' query timeout o calls
      obtain ⟨bs, hbs, hspoken⟩ := ih
      rw [Connection.frameLimit_execute hrun] at hspoken
      by_cases hclosed : c.line ∈ w.closed
      · obtain ⟨hbytes, hclosed', hunsent⟩ := of_closed (.call hrun hlater) hclosed
        exact ⟨[], by rw [hbytes, List.append_nil], .silent hclosed' hunsent⟩
      · obtain ⟨piece, hpiece, hsent⟩ := Connection.bytes_execute (M := M) hclosed hrun
        have hend (e : DriverError) (ho : o = .error (.driver e)) :
            M.bytes c w' = M.bytes c w ++ piece ∧ c.line ∈ w'.closed ∧ ∀ x ∈ calls, x.Unsent := by
          subst ho
          have hclosed := (Connection.execute_exchanged (L := M.toLedger) hrun).closed
          obtain ⟨hbytes, hrest⟩ := of_closed hlater hclosed
          exact ⟨hbytes.trans hpiece, hrest⟩
        have hon : M.bytes c w' = M.bytes c w ++ (piece ++ bs) := by
          rw [hbs, hpiece, List.append_assoc]
        cases hsent with
        | whole o hframe => exact ⟨_, hon, .whole o hframe hspoken⟩
        | tooLong herror =>
            obtain ⟨hbytes, hclosed', hunsent⟩ := hend _ rfl
            exact ⟨[], hbytes, .tooLong herror hclosed' hunsent⟩
        | cut e hframe hfront hne =>
            cases e with
            | driver e =>
                obtain ⟨hbytes, hclosed', hunsent⟩ := hend e rfl
                exact ⟨piece, hbytes, .cut e hframe hfront hne hclosed' hunsent⟩
            | fault f =>
                have hrefusal := (Connection.execute_exchanged (L := M.toLedger) hrun).isRefusal
                exact ⟨_, hon, .refused f hrefusal hframe hfront
                  hne hspoken⟩
  | elsewhere hbytes hkept hlimit hlater ih =>
      obtain ⟨bs, hbs, hspoken⟩ := ih
      exact ⟨bs, by rw [hbs, hbytes], hlimit ▸ hspoken⟩

end Calls

/-- A connection sends the greeting and then what its queries are, frame by frame. Without a
refusal that is a sequence of frames, the last of which may be cut where its write has failed,
and then nothing more is sent. -/
theorem stream_of_calls [Clock τ] {peer : Endpoint} {timeout : Option τ} {w w₁ w' : World σ}
    {calls : List Call} (hdial : (Connection.dial t peer timeout).run w = (.ok c, w₁))
    (hcalls : Calls M c w₁ calls w') :
    ∃ bs, M.bytes c w' = handshake ++ bs ∧
      Spoken w₁.frameLimit (c.line ∈ w'.closed) calls bs ∧
      ((∀ x ∈ calls, ¬ Refused x.2) →
        SpokenSmoothly w₁.frameLimit (c.line ∈ w'.closed) calls bs) := by
  obtain ⟨bs, hbs, hspoken⟩ := hcalls.spoken
  rw [Connection.bytes_dial hdial] at hbs
  exact ⟨bs, hbs, hspoken, hspoken.smoothly⟩

/-- A network with a plan of what the sends do: how many bytes more than one they accept, or
what they fail with. -/
structure Throttle where
  lines : Nat
  sends : List (Except SocketFault Nat)
  /-- What the lines deliver. -/
  incoming : Bytes

namespace Throttle

def transport : Transport Throttle Int where
  now _ := 0
  dial _ _ s := (.ok s.lines, { s with lines := s.lines + 1 })
  arm _ _ s := (.ok (), s)
  send _ _ rest s := match s.sends with
    | .error f :: sends => (.error f, { s with sends := sends })
    | .ok k :: sends =>
      (.ok ⟨min k rest.length, Nat.lt_succ_of_le (Nat.min_le_right _ _)⟩, { s with sends := sends })
    | [] => (.ok (Fin.last rest.length), s)
  receive _ asked s :=
    (.ok ⟨s.incoming.take asked, List.length_take_le _ _⟩,
      { s with incoming := s.incoming.drop asked })
  close _ s := (.ok (), s)
  supply s := s.incoming.length

def ledger : Ledger transport where
  opened s := (List.range s.lines).reverse
  fresh_dial h := by
    cases h
    simp
  opened_dial_ok h := by
    cases h
    simp [List.range_succ]
  opened_dial_error h := by cases h
  opened_arm _ _ _ := rfl
  opened_send n b bs s := by
    simp only [transport]
    split <;> rfl
  opened_receive _ _ _ := rfl
  opened_close _ _ := rfl

/-- The line that is dialed first. -/
def line : Connection := ⟨0, default⟩

/-- The greeting is accepted in two pieces, a frame in two, and then three bytes of another
frame before sending fails. One bare response waits. -/
def cutShort : World (Throttle × (Nat → Bytes)) :=
  ⟨(⟨0, [.ok 1, .ok 1, .ok 4, .ok 2, .ok 2, .error (.failed "reset")], [2, 0, 0, 0, 16, 2]⟩,
    fun _ => []), [], maxFrame, Journal.fresh⟩

/-- The network once the line was dialed. -/
def dialed : World (Throttle × (Nat → Bytes)) :=
  ((Connection.dial transport.tapped default none).run cutShort).2

/-- What becomes of three queries. -/
def threeCalls : List Call × World (Throttle × (Nat → Bytes)) :=
  line.executeAll transport.tapped
    [(.followUp .continue 2, none), (.followUp .continue 3, none), (.followUp .continue 4, none)]
    dialed

end Throttle

/-- One query is answered, the write of the next one fails, and the third is not sent. -/
theorem stream_of_calls_cutShort :
    (Connection.dial Throttle.transport.tapped default none).run Throttle.cutShort =
        (.ok Throttle.line, Throttle.dialed) ∧
      Calls Throttle.ledger.tapped Throttle.line Throttle.dialed Throttle.threeCalls.1
        Throttle.threeCalls.2 ∧
      (∀ x ∈ Throttle.threeCalls.1, ¬ Refused x.2) ∧
      Throttle.threeCalls.1.map (fun x => x.2.isOk) = [true, false, false] ∧
      SpokenSmoothly maxFrame (Throttle.line.line ∈ Throttle.threeCalls.2.closed)
        Throttle.threeCalls.1 ([4, 0, 0, 0, 8, 2, 24, 2] ++ [4, 0, 0]) := by
  have hdial : (Connection.dial Throttle.transport.tapped default none).run Throttle.cutShort =
      (.ok Throttle.line, Throttle.dialed) := rfl
  have hcalls := Calls.executeAll Throttle.ledger.tapped Throttle.line
    [(.followUp .continue 2, none), (.followUp .continue 3, none), (.followUp .continue 4, none)]
    Throttle.dialed
  have hsmooth : ∀ x ∈ Throttle.threeCalls.1, ¬ Refused x.2 := by decide +kernel
  obtain ⟨bs, hbs, -, hsmoothly⟩ := stream_of_calls hdial hcalls
  have hbytes : Throttle.ledger.tapped.bytes Throttle.line Throttle.threeCalls.2 =
      handshake ++ ([4, 0, 0, 0, 8, 2, 24, 2] ++ [4, 0, 0]) := by decide +kernel
  have hsame : bs = [4, 0, 0, 0, 8, 2, 24, 2] ++ [4, 0, 0] :=
    List.append_cancel_left (hbs.symm.trans hbytes)
  have hlimit : Throttle.dialed.frameLimit = maxFrame := by decide +kernel
  rw [hsame, hlimit] at hsmoothly
  exact ⟨hdial, hcalls, hsmooth, by decide +kernel, hsmoothly hsmooth⟩

end QueryDriver.Net
