import QueryDriver.Proofs.Net.Ledger

/-!
# The supply of a transport

Every loop of the driver that waits for the peer is bounded by the supply of the
transport, the bytes that can still arrive. The bound is never reached when the supply is
what it is called: `Metered` says that what is received is taken from the supply, and that
nothing else which is done on a line adds to it.

The supply of a script is made of the answers to come and of what waits on its lines. An
answer moves from the first part to the second one when its query comes in, and what the
token of the query adds to its bytes was counted from the start.
-/

namespace QueryDriver.Net

/-- How many bytes a receive has brought. -/
def brought {asked : Nat} : Except SocketFault { bs : Wire.Bytes // bs.length ≤ asked } → Nat
  | .ok bs => bs.val.length
  | .error _ => 0

/-- What is received is taken from the supply, and nothing is added to it. -/
structure Metered {σ τ : Type} (t : Transport σ τ) : Prop where
  arm : ∀ n timeout s, t.supply (t.arm n timeout s).2 ≤ t.supply s
  send : ∀ n b bs s, t.supply (t.send n b bs s).2 ≤ t.supply s
  close : ∀ n s, t.supply (t.close n s).2 ≤ t.supply s
  receive : ∀ n asked s,
    t.supply (t.receive n asked s).2 + brought (t.receive n asked s).1 ≤ t.supply s

namespace Script

open Wire

theorem total_append (sizes later : List Nat) :
    total (sizes ++ later) = total sizes + total later := by
  induction sizes with
  | nil => rw [List.nil_append, total_nil, Nat.zero_add]
  | cons n sizes ih => rw [List.cons_append, total_cons, total_cons, ih, Nat.add_assoc]

/-- A number below a power of the group size is written in as many groups. -/
theorem length_varint_le {n count : Nat} (h : n < Nat.pow 128 (count + 1)) :
    (varint n).length ≤ count + 1 := by
  induction count generalizing n with
  | zero =>
      have hn : n < 128 := h
      simp [varint_of_lt hn]
  | succ count ih =>
      by_cases hn : n < 128
      · simp [varint_of_lt hn]
      · have hdiv : n / 128 < Nat.pow 128 (count + 1) :=
          (Nat.div_lt_iff_lt_mul (by decide)).2 h
        rw [varint_of_le (by omega), List.length_cons]
        exact Nat.succ_le_succ (ih hdiv)

theorem length_int64Field_le (number : Nat) (x y : Int64) :
    (int64Field number (some x)).length ≤ (int64Field number (some y)).length + 16 := by
  have hx : (varint x.toUInt64.toNat).length ≤ 10 :=
    length_varint_le (Nat.lt_of_lt_of_le (UInt64.toNat_lt _) (by decide))
  simp only [int64Field, Wire.optional, integerField, List.length_append]
  omega

/-- The token adds little to the bytes of an answer. -/
theorem length_replyBytes_le (r : Response) (offset token : Int64) :
    (replyBytes r offset token).length ≤ (replyBytes r offset 0).length + 16 := by
  cases htoken : r.token with
  | some x => simp [replyBytes, htoken]
  | none =>
      have hfield := length_int64Field_le 2 (token + offset) (0 + offset)
      simp only [replyBytes, htoken, Response.encode, List.length_append, length_littleEndian]
      omega

theorem size_arrivalOf_le (token : Int64) (item : ReplyItem) :
    (arrivalOf token item).size ≤ replySize item := by
  cases item with
  | response r offset => exact length_replyBytes_le r offset token
  | raw bs => exact le_rfl
  | delay seconds => exact le_rfl
  | fault f => exact le_rfl
  | ending => exact le_rfl

theorem total_size_arrivalOf_le (token : Int64) (reply : List ReplyItem) :
    total ((reply.map (arrivalOf token)).map Arrival.size) ≤ total (reply.map replySize) := by
  induction reply with
  | nil => exact le_rfl
  | cons item reply ih => exact Nat.add_le_add (size_arrivalOf_le token item) ih

@[simp] theorem supply_note (e : NetEvent) (s : Script) : (s.note e).supply = s.supply := rfl

@[simp] theorem supply_pass (span : Double) (s : Script) : (s.pass span).supply = s.supply := rfl

@[simp] theorem line_pass (n : Nat) (span : Double) (s : Script) :
    (s.pass span).line n = s.line n :=
  rfl

/-- Changing a line changes what waits by as much as waits on that line. -/
theorem total_waiting_set_le (lines : List ScriptLine) (i : Nat) (l blank : ScriptLine)
    (hblank : waiting blank = 0) :
    total ((lines.set i l).map waiting) + waiting ((lines[i]?).getD blank) ≤
      total (lines.map waiting) + waiting l := by
  induction lines generalizing i with
  | nil => simp [hblank]
  | cons x lines ih =>
      cases i with
      | zero =>
          simp only [List.set_cons_zero, List.map_cons, total_cons, List.getElem?_cons_zero,
            Option.getD_some]
          omega
      | succ i =>
          have hlines := ih i
          simp only [List.set_cons_succ, List.map_cons, total_cons, List.getElem?_cons_succ]
          omega

theorem supply_setLine (n : Nat) (l : ScriptLine) (s : Script) :
    (s.setLine n l).supply + waiting (s.line n) ≤ s.supply + waiting l := by
  have hset := total_waiting_set_le s.lines (n - 1) l ⟨.plain, none, false, 0, [], []⟩ rfl
  simp only [supply, setLine, line]
  omega

/-- A line may change in what does not wait on it. -/
theorem supply_setLine_le {n : Nat} {l : ScriptLine} {s : Script}
    (h : l.arrivals = (s.line n).arrivals) : (s.setLine n l).supply ≤ s.supply := by
  have hwaiting : waiting l = waiting (s.line n) := by rw [waiting, h, waiting]
  have hset := supply_setLine n l s
  omega

theorem supply_nextReply (s : Script) :
    s.nextReply.2.supply + total (s.nextReply.1.map replySize) ≤ s.supply := by
  unfold nextReply
  split
  · exact le_rfl
  · rename_i r rs hreplies
    simp only [supply, hreplies, List.map_cons, total_cons]
    omega

theorem supply_answer_le (n : Nat) (payload : Bytes) (s : Script) :
    (s.answer n payload).supply ≤ s.supply := by
  unfold answer
  split
  · exact le_rfl
  · rename_i q hq
    have hreply := supply_nextReply (s.note (.asked n q))
    rcases hnext : (s.note (.asked n q)).nextReply with ⟨reply, s₁⟩
    have hset := supply_setLine n
      { s₁.line n with arrivals := (s₁.line n).arrivals ++ reply.map (arrivalOf q.tokenValue) } s₁
    have hsize := total_size_arrivalOf_le q.tokenValue reply
    simp only [hnext, supply_note] at hreply ⊢
    simp only [waiting, List.map_append, total_append] at hset
    omega

theorem supply_readFrames_le (n fuel : Nat) (s : Script) :
    (s.readFrames n fuel).supply ≤ s.supply := by
  induction fuel generalizing s with
  | zero => exact le_rfl
  | succ fuel ih =>
      simp only [readFrames]
      split
      · exact le_rfl
      · exact (ih _).trans ((supply_answer_le n _ _).trans (supply_setLine_le rfl))

theorem supply_readInbox_le (n : Nat) (s : Script) : (s.readInbox n).supply ≤ s.supply := by
  simp only [readInbox]
  split
  · exact supply_readFrames_le n _ s
  · split
    · exact le_rfl
    · refine (supply_readFrames_le n _ _).trans ?_
      rw [supply_note]
      exact supply_setLine_le rfl

theorem supply_arm_le (n : Nat) (timeout : Option Double) (s : Script) :
    (s.arm n timeout).2.supply ≤ s.supply := by
  simp only [arm]
  split
  · exact le_rfl
  · exact supply_setLine_le rfl

theorem supply_send_le (n : Nat) (b : UInt8) (bs : Bytes) (s : Script) :
    (s.send n b bs).2.supply ≤ s.supply := by
  simp only [send]
  split
  · exact le_rfl
  · exact (supply_readInbox_le n _).trans (supply_setLine_le rfl)

theorem length_cut (chunk : Option Nat) (asked : Nat) (bs : Bytes) :
    (cut chunk asked bs).1.val.length + (cut chunk asked bs).2.length = bs.length := by
  simp only [cut, List.length_take, List.length_drop]
  omega

/-- What is taken from the front of a line no longer waits there. -/
theorem supply_receiveWithin_le (n asked : Nat) (arrivals : List Arrival) (s : Script) :
    (s.receiveWithin n asked arrivals).2.supply + brought (s.receiveWithin n asked arrivals).1 +
      waiting (s.line n) ≤ s.supply + total (arrivals.map Arrival.size) := by
  induction arrivals generalizing s with
  | nil =>
      have hset := supply_setLine n { s.line n with arrivals := [] } s
      simp only [receiveWithin]
      split
      · exact hset
      · exact hset
  | cons a later ih =>
      cases a with
      | ending => exact supply_setLine n { s.line n with arrivals := .ending :: later } s
      | fault f =>
          have hset := supply_setLine n { s.line n with arrivals := later } s
          simp only [receiveWithin, brought, waiting, List.map_cons, total_cons,
            Arrival.size] at hset ⊢
          omega
      | delay seconds =>
          have hlater := ih (s.pass seconds)
          simp only [receiveWithin]
          split
          · exact supply_setLine n { s.line n with arrivals := .delay _ :: later } s
          · simpa [Arrival.size] using hlater
      | bytes bs =>
          cases bs with
          | nil => simpa [receiveWithin, Arrival.size] using ih s
          | cons b bs =>
              have hlength := length_cut (s.line n).plan.receiveChunk asked (b :: bs)
              rcases hcut : cut (s.line n).plan.receiveChunk asked (b :: bs) with ⟨got, rest⟩
              have hset := supply_setLine n
                { s.line n with
                  arrivals := if rest.isEmpty then later else .bytes rest :: later } s
              have hsize : total ((if rest.isEmpty then later else .bytes rest :: later).map
                  Arrival.size) = rest.length + total (later.map Arrival.size) := by
                cases rest <;> simp [Arrival.size]
              simp only [hcut] at hlength
              simp only [waiting, hsize] at hset
              simp only [receiveWithin, hcut, supply_note, brought, waiting, List.map_cons,
                total_cons, Arrival.size]
              omega

theorem supply_receive_le (n asked : Nat) (s : Script) :
    (s.receive n asked).2.supply + brought (s.receive n asked).1 ≤ s.supply := by
  have hreceive := supply_receiveWithin_le n asked (s.line n).arrivals s
  rw [← waiting] at hreceive
  exact Nat.le_of_add_le_add_right hreceive

theorem supply_close_le (n : Nat) (s : Script) : (s.close n).2.supply ≤ s.supply := by
  simp only [close]
  split <;> exact le_rfl

theorem metered : Metered transport where
  arm := supply_arm_le
  send := supply_send_le
  close := supply_close_le
  receive := supply_receive_le

end Script

end QueryDriver.Net
