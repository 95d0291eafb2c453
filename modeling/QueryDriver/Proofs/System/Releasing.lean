import QueryDriver.Proofs.System.Orderly
import QueryDriver.Proofs.System.Traffic

/-!
# Operations that close the cursor

One value, all of them, none of them, an iteration: each of these operations closes the cursor
whatever comes of it, and the connection that the cursor held is in the pool then, or it was closed.
A line that would not be armed for the query to stop is the exception. It is lost, and the outcome
of the operation shows the refusal.
-/

namespace QueryDriver

open Net Wire

variable {σ τ α β : Type} {t : Transport σ τ} {L : Ledger t}

namespace Reader.Closes

variable {r r₁ r' : Reader σ} {rough rough' : Prop}

theorem mono (h : r.Closes L rough r') (hrough : rough → rough') : r.Closes L rough' r' :=
  { h with cared := h.cared.imp_right fun hlost => hlost.imp_left hrough }

/-- What was read in front of it. -/
theorem of_tends (hfirst : r.Moves L r₁ ∧ r.Cares L r₁) (h : r₁.Closes L rough r') :
    r.Closes L rough r' where
  moves := hfirst.1.trans h.moves
  spent := h.spent
  cared := by
    obtain hcares | ⟨hrough, conn, hconn, hlost⟩ := h.cared
    · exact .inl (hfirst.2.trans hcares)
    · cases hfirst.2 with
      | kept hsame hclosed hsession =>
          exact .inr ⟨hrough, conn, hsame.symm.trans hconn, hlost.open_,
            hlost.closed.trans hclosed, hlost.session.trans hsession⟩
      | letGo _ hnone _ => cases hnone.symm.trans hconn

/-- What was read behind it. -/
theorem tends (h : r.Closes L rough r₁) (hlater : r₁.Tends L r') : r.Closes L rough r' := by
  obtain ⟨hmoves, hcares⟩ := hlater h.moves.apt
  refine ⟨h.moves.trans hmoves, (hmoves.spent h.spent).1, ?_⟩
  obtain hcared | ⟨hrough, conn, hconn, hlost⟩ := h.cared
  · exact .inl (hcared.trans hcares)
  · cases hcares with
    | kept hsame hclosed hsession =>
        exact .inr ⟨hrough, conn, hconn, by rw [hclosed]; exact hlost.open_,
          hclosed.trans hlost.closed, hsession.trans hlost.session⟩
    | letGo hheld _ _ => cases (h.moves.apt.open_ h.spent.1).symm.trans hheld

end Reader.Closes

namespace Reading

/-- The first part of an iteration always ends with the rows that it has taken. -/
theorem takeWithin_ok [Clock τ] (fuel : Nat) (r : Reader σ) :
    ∃ x, ((takeWithin t fuel).run r).1 = .ok x := by
  induction fuel generalizing r with
  | zero => exact ⟨_, rfl⟩
  | succ fuel ih =>
      rcases hnext : (next t).run r with ⟨f | _ | _, r₁⟩ <;>
        rw [takeWithin, run_bind_of_ok (run_observe hnext)]
      · exact ⟨_, rfl⟩
      · exact ⟨_, rfl⟩
      · rcases hscan : (scan : Reading σ Value).run r₁ with ⟨f | v, r₂⟩ <;> dsimp only <;>
          rw [run_bind_of_ok (run_observe hscan)]
        · exact ⟨_, rfl⟩
        · rcases hlater : (takeWithin t fuel).run r₂ with ⟨o, r₃⟩
          obtain ⟨x, hx⟩ := ih r₂
          rw [hlater] at hx
          cases hx
          dsimp only
          rw [run_bind_of_ok hlater]
          exact ⟨_, rfl⟩

/-- The action closes the cursor, and it loses the connection only when the outcome is rough. -/
def Closing (L : Ledger t) (rough : Except Failure α → Prop) (a : Reading σ α) : Prop :=
  ∀ ⦃r : Reader σ⦄ ⦃o : Except Failure α⦄ ⦃r' : Reader σ⦄, a.run r = (o, r') → r.cursor.Apt →
    r.Closes L (rough o) r'

namespace Closing

/-- What is done when the cursor has been closed. -/
protected theorem bind {rough : Except Failure β → Prop} {a : Reading σ α} {f : α → Reading σ β}
    (ha : Closing L Refused a) (hf : ∀ x, Within (Reader.Tends L) (f x))
    (herror : ∀ e, e.IsRefusal → rough (.error e)) : Closing L rough (a >>= f) := by
  intro r o r' hrun hr
  obtain ⟨x, r₁, h₁, h₂⟩ | ⟨e, h₁, rfl⟩ := run_bind_cases hrun
  · refine ((ha h₁ hr).mono fun hrefused => ?_).tends ((hf x).run h₂)
    exact absurd hrefused (not_refused_ok x)
  · exact (ha h₁ hr).mono fun hrefused => herror e ((refused_error e).1 hrefused)

theorem andThen {a : Reading σ α} {f : α → Reading σ β} (ha : Closing L Refused a)
    (hf : ∀ x, Within (Reader.Tends L) (f x)) : Closing L Refused (a >>= f) :=
  ha.bind hf fun e he => (refused_error e).2 he

/-- What is done before the cursor is closed. -/
theorem after {rough : Except Failure β → Prop} {a : Reading σ α} {f : α → Reading σ β}
    (ha : Within (Reader.Tends L) a) (hok : ∀ r, ∃ x, (a.run r).1 = .ok x)
    (hf : ∀ x, Closing L rough (f x)) : Closing L rough (a >>= f) := by
  intro r o r' hrun hr
  rcases hfirst : a.run r with ⟨oa, r₁⟩
  obtain ⟨x, hx⟩ := hok r
  rw [hfirst] at hx
  cases hx
  have htends := ha.run hfirst hr
  rw [run_bind_of_ok hfirst] at hrun
  exact (hf x hrun htends.1.apt).of_tends htends

variable [Clock τ]

protected theorem close : Closing L Refused (close t) := fun _ _ _ hrun hr =>
  closes_of_close hr hrun

theorem closingAfter {a : Reading σ α} (ha : Within (Reader.Tends L) a) :
    Closing L Refused (closingAfter t a) := by
  refine after ha.observe (fun r => ⟨_, rfl⟩) fun o => ?_
  exact Closing.close.andThen fun _ => .settle o

protected theorem one : Closing L Refused (one t) := by
  refine (closingAfter (tends_next.reading tends_renderedQuery)).andThen fun v => ?_
  dsimp only
  split
  · exact (tends_renderedQuery.failHere _).bind fun _ => .pure _
  · exact .pure _

protected theorem all : Closing L Refused (all t) :=
  closingAfter (tends_next.remaining tends_renderedQuery)

protected theorem exhaust : Closing L Refused (exhaust t) := closingAfter tends_next.passing

/-- A refusal that the cursor was closed with is part of the answer. -/
protected theorem endIteration (rows : List Value) (ended : Except Failure Bool) :
    Closing L (fun o => Refused o ∨ ∃ vs f, o = .ok (vs, some f) ∧ f.IsRefusal)
      (endIteration t rows ended) := by
  intro r o r' hrun hr
  rcases hclosing : (Reading.closingAfter t (Reading.settle ended)).run r with ⟨oc, r₁⟩
  have hcloses := closingAfter (L := L) (Within.settle ended) hclosing hr
  rw [Reading.endIteration, run_bind_of_ok (run_observe hclosing)] at hrun
  have hraise : Within (Reader.Tends L) (do
      if ← Reading.settle oc then Reading.raiseError : Reading σ Unit) := by
    refine Within.bind (.settle oc) fun ended => ?_
    split
    · exact .raiseError
    · exact .pure _
  rcases hend : (do if ← Reading.settle oc then Reading.raiseError : Reading σ Unit).run r₁ with
    ⟨oe, r₂⟩
  rw [run_bind_of_ok (run_observe hend)] at hrun
  cases hrun
  refine (hcloses.tends (hraise.run hend)).mono fun hrefused => ?_
  obtain ⟨e, rfl, he⟩ := hrefused
  have hsettle : (Reading.settle (.error e) : Reading σ Bool).run r₁ = (.error e, r₁) := rfl
  rw [run_bind_of_error hsettle] at hend
  cases hend
  exact .inr ⟨rows, e, rfl, he⟩

protected theorem iterate {limit : Option Nat} (hlimit : limit ≠ some 0) :
    Closing L (fun o => Refused o ∨ ∃ vs f, o = .ok (vs, some f) ∧ f.IsRefusal)
      (iterate t limit) := by
  rw [Reading.iterate, if_neg hlimit]
  refine after .rowBound (fun r => ⟨_, rfl⟩) fun bound => ?_
  exact after (tends_next.takeWithin _) (takeWithin_ok _) fun x => .endIteration _ _

protected theorem visit (count : Nat) : Closing L Refused (visit t count) :=
  closingAfter (tends_next.steps count)

end Closing

end Reading

/-- The operation closes the cursor, in the end if not at once. -/
def CursorOperation.Closes : CursorOperation → Prop
  | .one | .all | .exhaust | .close | .visit _ => True
  | .iterate limit => limit ≠ some 0
  | .look | .next | .scan => False

variable [Clock τ]

theorem CursorOperation.closing {op : CursorOperation} (hop : op.Closes) :
    Reading.Closing L (fun o => ShowsRefusal (some o)) (op.perform t) := by
  cases op with
  | look => exact hop.elim
  | next => exact hop.elim
  | scan => exact hop.elim
  | one => exact Reading.Closing.one.bind (fun _ => .pure _) fun _ => id
  | all => exact Reading.Closing.all.bind (fun _ => .pure _) fun _ => id
  | exhaust => exact Reading.Closing.exhaust.bind (fun _ => .pure _) fun _ => id
  | close => exact Reading.Closing.close.bind (fun _ => .pure _) fun _ => id
  | visit count => exact (Reading.Closing.visit count).bind (fun _ => .pure _) fun _ => id
  | iterate limit =>
      intro r o r' hrun hr
      obtain ⟨oa, hiterate, rfl⟩ := run_bind_pure
        (f := fun x : List Value × Option Failure => Answer.rows x.1 x.2) hrun
      refine (Reading.Closing.iterate hop hiterate hr).mono ?_
      rintro (⟨e, rfl, he⟩ | ⟨vs, f, rfl, hf⟩)
      · exact he
      · exact hf

namespace System

/-- What has become of the connection that a cursor held when it was closed. -/
inductive Relinquished (L : Ledger t) (s s' : System σ) (o : Option (Except Failure Answer)) :
    Option Connection → Prop
  /-- There was none, and nothing was done with the others. -/
  | bare (hclosed : (s'.account L).closed = (s.account L).closed)
      (hsession : s'.client.session = s.client.session) : Relinquished L s s' o none
  | disposed {conn : Connection} (hdisposed : Client.Disposed conn (s.account L)
      s.client.session (s'.account L) s'.client.session) : Relinquished L s s' o (some conn)
  /-- The line would not be armed for the query to stop, which the outcome shows. -/
  | lost {conn : Connection} (hlost : Client.Lost conn (s.account L) s.client.session
      (s'.account L) s'.client.session) (hshown : ShowsRefusal o) :
    Relinquished L s s' o (some conn)

/-- In every history, an operation that closes a cursor leaves it closed, without rows and without
a connection. The connection that it held is in the pool or closed, unless the outcome shows a
refusal. -/
theorem release_of_perform {s s' : System σ} {ops : List Operation} (hs : s.Begins L)
    (hops : ∀ op ∈ ops, op.Managed) {i : Nat} {c : Cursor}
    (hc : (s.play t ops).2.cursors[i]? = some c) {op : CursorOperation} (hop : op.Closes)
    {o : Option (Except Failure Answer)}
    (hrun : (s.play t ops).2.perform t (.cursor i op) = (o, s')) :
    ∃ c', s'.cursors[i]? = some c' ∧ c'.closed = true ∧ c'.buffer = [] ∧ c'.connection = none ∧
      Relinquished L (s.play t ops).2 s' o c.connection := by
  have horderly := hs.orderly.play hs.sound hops
  obtain ⟨oc, r, hr, rfl, hclient, -, hget⟩ := perform_cursor hc hrun
  have hcloses := op.closing (L := L) hop hr (horderly.apt i c hc)
  obtain ⟨hclosed, hbuffer⟩ := hcloses.spent
  refine ⟨r.cursor, hget, hclosed, hbuffer, hcloses.moves.apt.open_ hclosed, ?_⟩
  have haccount : s'.account L = r.client.account L := by rw [account, hclient]
  obtain hcares | ⟨hshown, conn, hconn, hlost⟩ := hcloses.cared
  · cases hcares with
    | kept hsame hlines hsession =>
        have hnone : c.connection = none :=
          hsame.symm.trans (hcloses.moves.apt.open_ hclosed)
        rw [hnone]
        exact .bare (by rw [haccount]; exact hlines) (by rw [hclient]; exact hsession)
    | letGo hconn hnone hdisposed =>
        change c.connection = some _ at hconn
        rw [hconn]
        refine .disposed ?_
        rw [haccount, hclient]
        exact hdisposed
  · change c.connection = some conn at hconn
    rw [hconn]
    refine .lost ?_ hshown
    rw [haccount, hclient]
    exact hlost

/-- A system with a cursor on a part of the rows, over a script that has another part. -/
def partRead : System Script :=
  ((scripted [.plain] [[.response partOfMore 0], [.response partOfMore 0]]).play Script.transport
    [.run .null]).2

/-- There is no one value of a cursor on rows, and asking for it closes the cursor all the same. -/
theorem release_of_run_one :
    (∀ op ∈ [.run .null], Operation.Managed op) ∧ CursorOperation.one.Closes ∧
      ∃ c', (partRead.perform Script.transport (.cursor 0 .one)).2.cursors[0]? = some c' ∧
        c'.closed = true ∧ c'.buffer = [] ∧ c'.connection = none ∧
        Relinquished Script.ledger partRead
          (partRead.perform Script.transport (.cursor 0 .one)).2
          (partRead.perform Script.transport (.cursor 0 .one)).1
          (some ⟨1, ⟨"localhost", 28015⟩⟩) := by
  have hops : ∀ op ∈ [.run .null], Operation.Managed op := by simp [Operation.Managed]
  have hview : partRead.cursors.map Cursor.connection = [some ⟨1, ⟨"localhost", 28015⟩⟩] := by
    decide +kernel
  obtain ⟨c, _, hcursors, hconn, -⟩ := List.map_eq_cons_iff.1 hview
  have hc : partRead.cursors[0]? = some c := by rw [hcursors]; rfl
  rw [← hconn]
  have hcloses : CursorOperation.one.Closes := trivial
  exact ⟨hops, hcloses, release_of_perform (begins_scripted _ _) hops hc hcloses rfl⟩

end System

end QueryDriver
