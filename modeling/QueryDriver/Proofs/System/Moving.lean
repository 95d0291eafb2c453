import QueryDriver.Proofs.System.Course

/-!
# Where reading leads

Two relations between where an operation on a cursor begins and where it ends. Every operation
stays within the first one, `Leads`: the cursor is the same one, every query that was begun has its
token, and a cursor that was spent is as it was. As long as the cursor is not closed by the caller
an action stays within the second one too, `Tends`: the connection is kept, or it is let go of by
giving it to the pool or closing it.
-/

namespace QueryDriver

open Net Wire

variable {σ τ α : Type} {t : Transport σ τ} {L : Ledger t}

/-- What has become of a connection that was let go of: it is in the pool, or it was closed. -/
inductive Client.Disposed (conn : Connection) (a : Account) (s : Session) (a' : Account)
    (s' : Session) : Prop
  | pooled (hopen : conn.line ∉ a'.closed) (hclosed : a'.closed = a.closed)
      (hsession : s' = s.push conn)
  | closed (hclosed : a'.closed = (a.shut conn.line).closed) (hsession : s' = s)

/-- What has become of a connection that was lost: it is open, and the pool does not have it. -/
structure Client.Lost (conn : Connection) (a : Account) (s : Session) (a' : Account)
    (s' : Session) : Prop where
  open_ : conn.line ∉ a'.closed
  closed : a'.closed = a.closed
  session : s' = s

theorem Client.Released.disposed {conn : Connection} {a a' : Account} {s s' : Session}
    (h : Client.Released conn a s a' s') : Client.Disposed conn a s a' s' := by
  cases h with
  | already hclosed => exact .closed (by rw [Account.shut, if_pos hclosed]) rfl
  | pooled hopen hroom => exact .pooled hopen rfl rfl
  | surplus hopen hroom => exact .closed rfl rfl

/-- What happened in front of it was nothing to the lines and the session. -/
theorem Client.Disposed.of_closed_eq {conn : Connection} {a₀ a a' : Account} {s s' : Session}
    (h : Client.Disposed conn a s a' s') (hclosed : a.closed = a₀.closed) :
    Client.Disposed conn a₀ s a' s' := by
  have hshut : (a.shut conn.line).closed = (a₀.shut conn.line).closed := by
    unfold Account.shut
    rw [hclosed]
    split <;> simp [hclosed]
  cases h with
  | pooled hopen hsame hsession => exact .pooled hopen (hsame.trans hclosed) hsession
  | closed hsame hsession => exact .closed (hsame.trans hshut) hsession

namespace Net.Connection.Exchanged

variable {n : Nat} {query : Query} {a a' : Account} {o : Except Failure Response}

theorem asked (h : Exchanged n query a o a') :
    ∃ new, a'.rounds = new ++ a.rounds ∧ ∀ x ∈ new, x.token = query.tokenValue := by
  obtain ⟨new, hnew, hall⟩ := h.exists_rounds
  exact ⟨new, hnew, fun x hx => (hall x hx).2⟩

/-- An answer leaves all lines as they are. -/
theorem closed_eq {r : Response} (h : Exchanged n query a (.ok r) a') : a'.closed = a.closed := by
  cases h with
  | answered r hopen htoken => rfl

/-- So does a refusal. -/
theorem closed_eq_of_fault {f : Fault} (h : Exchanged n query a (.error (.fault f)) a') :
    a'.closed = a.closed := by
  cases h with
  | refused f hopen hf => rfl

theorem lost {conn : Connection} {f : Fault} {s : Session}
    (h : Exchanged conn.line query a (.error (.fault f)) a') : Client.Lost conn a s a' s := by
  cases h with
  | refused f hopen hf => exact ⟨hopen, rfl, rfl⟩

/-- An error of the driver closes the line. -/
theorem closed_eq_of_driver {e : DriverError} (h : Exchanged n query a (.error (.driver e)) a') :
    a'.closed = (a.shut n).closed := by
  cases h with
  | unbegun e hclosed => rw [Account.shut, if_pos hclosed]
  | failed e hopen => simp [Account.shut, Account.begin, hopen]

end Net.Connection.Exchanged

namespace Reader

/-- What every operation on a cursor has done. -/
structure Moves (L : Ledger t) (r r' : Reader σ) : Prop where
  apt : r'.cursor.Apt
  same : r.cursor.Same r'.cursor
  expression : r'.cursor.expression = r.cursor.expression
  asked : ∃ new, r'.rounds L = new ++ r.rounds L ∧ (∀ x ∈ new, x.token = r.cursor.token) ∧
    (r.cursor.connection = none → new = [])
  counted : r'.client.session.token = r.client.session.token
  freed : r.cursor.connection = none → r'.cursor.connection = none
  spent : r.cursor.Spent → r'.cursor.Spent ∧ r'.cursor.error = r.cursor.error

/-- The connection of the cursor was kept, or it was let go of. -/
inductive Cares (L : Ledger t) (r r' : Reader σ) : Prop
  | kept (hconn : r'.cursor.connection = r.cursor.connection)
      (hclosed : (r'.client.account L).closed = (r.client.account L).closed)
      (hsession : r'.client.session = r.client.session)
  | letGo {conn : Connection} (hconn : r.cursor.connection = some conn)
      (hnone : r'.cursor.connection = none)
      (hdisposed : Client.Disposed conn (r.client.account L) r.client.session
        (r'.client.account L) r'.client.session)

/-- Where operations lead. -/
def Leads (L : Ledger t) (r r' : Reader σ) : Prop := r.cursor.Apt → r.Moves L r'

/-- Where reading leads as long as the cursor is not closed by the caller. -/
def Tends (L : Ledger t) (r r' : Reader σ) : Prop :=
  r.cursor.Apt → r.Moves L r' ∧ r.Cares L r'

variable {r r₁ r' : Reader σ}

theorem Moves.trans (h : r.Moves L r₁) (h' : r₁.Moves L r') : r.Moves L r' where
  apt := h'.apt
  same := h.same.trans h'.same
  expression := h'.expression.trans h.expression
  asked := by
    obtain ⟨new, hnew, htoken, hnone⟩ := h.asked
    obtain ⟨later, hlater, htoken', hnone'⟩ := h'.asked
    refine ⟨later ++ new, by rw [hlater, hnew, List.append_assoc], fun x hx => ?_, fun hc => ?_⟩
    · obtain hx | hx := List.mem_append.1 hx
      · exact (htoken' x hx).trans h.same.token
      · exact htoken x hx
    · rw [hnone hc, hnone' (h.freed hc), List.append_nil]
  counted := h'.counted.trans h.counted
  freed hc := h'.freed (h.freed hc)
  spent hs := by
    obtain ⟨hs₁, he₁⟩ := h.spent hs
    exact (h'.spent hs₁).imp_right fun he => he.trans he₁

theorem Cares.trans (h : r.Cares L r₁) (h' : r₁.Cares L r') : r.Cares L r' := by
  cases h with
  | kept hconn hclosed hsession =>
      cases h' with
      | kept hconn' hclosed' hsession' =>
          exact .kept (hconn'.trans hconn) (hclosed'.trans hclosed) (hsession'.trans hsession)
      | letGo hconn' hnone hdisposed =>
          rw [hsession] at hdisposed
          exact .letGo (hconn.symm.trans hconn') hnone (hdisposed.of_closed_eq hclosed)
  | letGo hconn hnone hdisposed =>
      cases h' with
      | kept hconn' hclosed' hsession' =>
          refine .letGo hconn (hconn'.trans hnone) ?_
          cases hdisposed with
          | pooled hopen hsame hs =>
              exact .pooled (hclosed' ▸ hopen) (hclosed'.trans hsame) (hsession'.trans hs)
          | closed hsame hs => exact .closed (hclosed'.trans hsame) (hsession'.trans hs)
      | letGo hconn' _ _ => cases hnone.symm.trans hconn'

/-- A connection that the cursor holds is the one that it held. -/
theorem Cares.held (h : r.Cares L r') {conn : Connection}
    (hconn : r'.cursor.connection = some conn) : r.cursor.connection = some conn := by
  cases h with
  | kept hsame hclosed hsession => exact hsame.symm.trans hconn
  | letGo _ hnone _ => cases hnone.symm.trans hconn

/-- The cursor has changed, and nothing was done with the client but on the side. -/
theorem moves_of_aside (hcursor : r'.cursor.Apt) (hsame : r.cursor.Same r'.cursor)
    (hexpression : r'.cursor.expression = r.cursor.expression)
    (haccount : r'.client.account L = r.client.account L)
    (hsession : r'.client.session = r.client.session)
    (hconn : r'.cursor.connection = r.cursor.connection)
    (hspent : r.cursor.Spent → r'.cursor.Spent ∧ r'.cursor.error = r.cursor.error) :
    r.Moves L r' ∧ r.Cares L r' := by
  refine ⟨⟨hcursor, hsame, hexpression, ⟨[], ?_, List.forall_mem_nil _, fun _ => rfl⟩, ?_,
    hconn.trans, hspent⟩, .kept hconn (by rw [haccount]) hsession⟩
  · rw [rounds, haccount]
    rfl
  · rw [hsession]

theorem Moves.refl (h : r.cursor.Apt) : r.Moves L r ∧ r.Cares L r :=
  moves_of_aside h (.refl _) rfl rfl rfl rfl fun hs => ⟨hs, rfl⟩

instance : IsPreorder (Reader σ) (Leads L) where
  refl _ h := (Moves.refl h).1
  trans _ _ _ h h' hr := (h hr).trans (h' (h hr).apt)

instance : IsPreorder (Reader σ) (Tends L) where
  refl _ h := Moves.refl h
  trans _ _ _ h h' hr :=
    ⟨(h hr).1.trans (h' (h hr).1.apt).1, (h hr).2.trans (h' (h hr).1.apt).2⟩

/-- What was asked over the connection of a cursor that holds one. -/
theorem moves_of_asked {conn : Connection} (hconn : r.cursor.connection = some conn)
    (hr : r.cursor.Apt) (hcursor : r'.cursor.Apt) (hsame : r.cursor.Same r'.cursor)
    (hexpression : r'.cursor.expression = r.cursor.expression)
    (hrounds : ∃ new, r'.rounds L = new ++ r.rounds L ∧ ∀ x ∈ new, x.token = r.cursor.token)
    (hcounted : r'.client.session.token = r.client.session.token) : r.Moves L r' := by
  obtain ⟨new, hnew, htoken⟩ := hrounds
  have hnone : r.cursor.connection ≠ none := by simp [hconn]
  refine ⟨hcursor, hsame, hexpression, ⟨new, hnew, htoken, fun hc => absurd hc hnone⟩, hcounted,
    fun hc => absurd hc hnone, fun hspent => absurd (hr.open_ hspent.1) hnone⟩

/-- What an operation that closes the cursor has done: the cursor is spent, and its connection was
let go of. Only a `rough` operation may have lost it. -/
structure Closes (L : Ledger t) (r : Reader σ) (rough : Prop) (r' : Reader σ) : Prop where
  moves : r.Moves L r'
  spent : r'.cursor.Spent
  cared : r.Cares L r' ∨ rough ∧ ∃ conn, r.cursor.connection = some conn ∧
    Client.Lost conn (r.client.account L) r.client.session (r'.client.account L) r'.client.session

end Reader

/-- Giving back a connection begins no query and counts no token. -/
theorem Client.Released.counted {conn : Connection} {a a' : Account} {s s' : Session}
    (h : Client.Released conn a s a' s') : s'.token = s.token := by
  cases h <;> rfl

namespace Reading

open Reader Course

variable {r r' : Reader σ}

theorem tends_renderedQuery :
    Within (Tends L) (renderedQuery : Reading σ (Option String)) := fun r hr => by
  obtain ⟨k, query, hrun, haccount, hsession, hquery⟩ := run_renderedQuery (L := L) r
  have htold := Cursor.told_of_query hr.told hquery
  have hapt : ({ r.cursor with query := query } : Cursor).Apt :=
    hr.of_same rfl rfl rfl rfl rfl rfl id (fun hc _ => hc) htold
  rw [hrun]
  exact moves_of_aside hapt ⟨rfl, rfl, rfl⟩ rfl haccount hsession rfl fun hs => ⟨hs, rfl⟩

variable [Clock τ]

namespace Course

/-- What a fetch has done to the account, the session and the cursor. -/
theorem Fetch.moves {conn : Connection} {o : Except Failure Unit} (hr : r.cursor.Apt)
    (hconn : r.cursor.connection = some conn) (h : Fetch t L conn r o r') :
    r.Moves L r' ∧ r.Cares L r' := by
  obtain ⟨-, hclosed, herror⟩ := hr.incomplete hconn
  have hasked {k : Client σ} {oa : Except Failure Response}
      (hround : (Client.roundTrip t conn (.followUp .continue r.cursor.token)).run r.client =
        (oa, k)) : (∃ new, (k.account L).rounds = new ++ r.rounds L ∧
          ∀ x ∈ new, x.token = r.cursor.token) ∧ k.session = r.client.session := by
    obtain ⟨hexchanged, hsession⟩ := Client.roundTrip_exchanged (L := L) hround
    exact ⟨hexchanged.asked, hsession⟩
  have hreleased {a : Response} {k k' : Client σ}
      (hround : (Client.roundTrip t conn (.followUp .continue r.cursor.token)).run r.client =
        (.ok a, k)) (hrelease : (Client.release t conn).run k = (.ok (), k')) :
      (k'.account L).rounds = (k.account L).rounds ∧
        k'.session.token = r.client.session.token ∧
        Client.Disposed conn (r.client.account L) r.client.session (k'.account L) k'.session := by
    obtain ⟨hexchanged, hsession⟩ := Client.roundTrip_exchanged (L := L) hround
    obtain ⟨-, hreleased⟩ := Client.release_released (L := L) hrelease
    rw [hsession] at hreleased
    exact ⟨hreleased.rounds, hreleased.counted,
      hreleased.disposed.of_closed_eq hexchanged.closed_eq⟩
  cases h with
  | more hround hshape =>
      obtain ⟨hexchanged, hsession⟩ := Client.roundTrip_exchanged (L := L) hround
      exact ⟨moves_of_asked hconn hr (hr.fed hclosed herror _) ⟨rfl, rfl, rfl⟩ rfl
        (hasked hround).1 (by rw [hsession]), .kept rfl hexchanged.closed_eq hsession⟩
  | last hround hshape hrelease =>
      obtain ⟨hrounds, hcounted, hdisposed⟩ := hreleased hround hrelease
      exact ⟨moves_of_asked hconn hr (hr.finished.fed hclosed herror _) ⟨rfl, rfl, rfl⟩ rfl
        (by rw [Reader.rounds, hrounds]; exact (hasked hround).1) hcounted,
        .letGo hconn rfl hdisposed⟩
  | unanswered hround =>
      obtain ⟨hexchanged, hsession⟩ := Client.roundTrip_exchanged (L := L) hround
      exact ⟨moves_of_asked hconn hr hr.finished ⟨rfl, rfl, rfl⟩ rfl (hasked hround).1
        (by rw [hsession]),
        .letGo hconn rfl (.closed hexchanged.closed_eq_of_driver hsession)⟩
  | @reported a k k₁ k' query hround hfailure hrelease haccount hsession htold =>
      obtain ⟨hrounds, hcounted, hdisposed⟩ := hreleased hround hrelease
      have hapt : ({ r.cursor.finished with query := query } : Cursor).Apt :=
        hr.finished.of_same rfl rfl rfl rfl rfl rfl id (fun hc _ => hc) htold
      rw [← haccount, ← hsession] at hdisposed
      exact ⟨moves_of_asked hconn hr hapt ⟨rfl, rfl, rfl⟩ rfl
        (by rw [Reader.rounds, haccount, hrounds]; exact (hasked hround).1)
        ((congrArg Session.token hsession).trans hcounted), .letGo hconn rfl hdisposed⟩
  | unexpected hround hshape hfailure hdiscard =>
      obtain ⟨hexchanged, hsession⟩ := Client.roundTrip_exchanged (L := L) hround
      obtain ⟨-, haccount, hs⟩ := Client.discard_cases (L := L) hdiscard
      have hdisposed : Client.Disposed conn _ _ _ _ :=
        .closed (congrArg Account.closed haccount) (hs.trans hsession)
      exact ⟨moves_of_asked hconn hr hr.finished ⟨rfl, rfl, rfl⟩ rfl
        (by rw [Reader.rounds, haccount, Account.rounds_shut]; exact (hasked hround).1)
        (congrArg Session.token (hs.trans hsession)),
        .letGo hconn rfl (hdisposed.of_closed_eq hexchanged.closed_eq)⟩
  | refused hround =>
      obtain ⟨hexchanged, hsession⟩ := Client.roundTrip_exchanged (L := L) hround
      exact ⟨moves_of_asked hconn hr hr ⟨rfl, rfl, rfl⟩ rfl (hasked hround).1 (by rw [hsession]),
        .kept rfl hexchanged.closed_eq_of_fault hsession⟩

theorem Step.moves {o : Except Failure (Option Bool)} (hr : r.cursor.Apt) (h : Step t L r o r') :
    r.Moves L r' ∧ r.Cares L r' := by
  cases h with
  | @found d ds hbuffer =>
      have hne : r.cursor.buffer ≠ [] := by simp [hbuffer]
      refine moves_of_aside ?_ ⟨rfl, rfl, rfl⟩ rfl rfl rfl rfl fun hs => absurd hs.2 hne
      exact hr.of_same rfl rfl rfl rfl rfl rfl (fun hb => absurd hb hne)
        (fun _ hb => absurd hb hne) hr.told
  | ended hbuffer hconn =>
      exact moves_of_aside (hr.ended hconn) ⟨rfl, rfl, rfl⟩ rfl rfl rfl rfl
        fun hs => ⟨⟨rfl, rfl⟩, rfl⟩
  | fetched hbuffer hconn hrun hfetch => exact hfetch.moves hr hconn
  | @failed conn e r₁ k query hbuffer hconn hfetch haccount hsession htold =>
      obtain ⟨hmoves, hcares⟩ := hfetch.moves hr hconn
      obtain ⟨query₁, hcursor, -⟩ := hfetch.of_error hr
      have hnone : r₁.cursor.connection = none := by rw [hcursor]; rfl
      have hrendering : r₁.cursor.rendering = r.cursor.rendering := by rw [hcursor]; rfl
      have hquery : ({ r₁.cursor with query := query } : Cursor).Apt :=
        hmoves.apt.of_same rfl rfl rfl rfl rfl rfl id (fun hc _ => hc)
          fun q hq => hrendering.trans (htold q hq)
      have hopen : ¬ r₁.cursor.Spent := by
        intro hs
        have hclosed : r₁.cursor.closed = r.cursor.closed := by rw [hcursor]; rfl
        exact Bool.false_ne_true
          ((hr.incomplete hconn).2.1.symm.trans (hclosed.symm.trans hs.1))
      have hlater : r₁.Moves L ⟨k, (({ r₁.cursor with query := query } : Cursor).latch
          (e.withQuery r.cursor.rendering)).ended⟩ ∧ r₁.Cares L ⟨k, (({ r₁.cursor with
            query := query } : Cursor).latch (e.withQuery r.cursor.rendering)).ended⟩ :=
        moves_of_aside (hquery.latch_ended hnone _) ⟨rfl, rfl, rfl⟩ rfl haccount hsession rfl
          fun hs => absurd hs hopen
      exact ⟨hmoves.trans hlater.1, hcares.trans hlater.2⟩
  | refused hbuffer hconn hfetch => exact hfetch.moves hr hconn

end Course

theorem tends_step : Within (Tends L) (step t) := .of_run fun _ _ _ hrun hr =>
  (step_of_run hr hrun).moves hr

theorem tends_nextWithin (fuel : Nat) : Within (Tends L) (nextWithin t fuel) := by
  induction fuel with
  | zero => exact .pure _
  | succ fuel ih =>
      refine tends_step.bind fun found => ?_
      cases found with
      | some b => exact .pure _
      | none => exact ih

omit [Clock τ] in
theorem tends_forget : Within (Tends L)
    (update fun c => { c with current := none } : Reading σ Unit) := fun _ hr =>
  moves_of_aside (hr.of_same rfl rfl rfl rfl rfl rfl id (fun _ _ => rfl) hr.told) ⟨rfl, rfl, rfl⟩
    rfl rfl rfl rfl fun hs => ⟨hs, rfl⟩

theorem tends_next : Within (Tends L) (next t) := by
  refine tends_forget.bind fun _ => Within.cursor.bind fun c => ?_
  split
  · exact .pure _
  · exact Within.supply.bind fun n => tends_nextWithin _

theorem closes_of_close {o : Except Failure Unit} (hr : r.cursor.Apt)
    (hrun : (close t).run r = (o, r')) : r.Closes L (Refused o) r' := by
  have hclosing := close_closing (L := L) hr.attached hrun
  cases hconn : r.cursor.connection with
  | none =>
      cases (run_close hconn).symm.trans hrun
      obtain ⟨hmoves, hcares⟩ : r.Moves L { r with cursor := r.cursor.ended } ∧
          r.Cares L { r with cursor := r.cursor.ended } :=
        moves_of_aside (hr.ended hconn) ⟨rfl, rfl, rfl⟩ rfl rfl rfl rfl fun _ => ⟨⟨rfl, rfl⟩, rfl⟩
      exact ⟨hmoves, ⟨rfl, rfl⟩, .inl hcares⟩
  | some conn =>
      obtain ⟨hcomplete, hopen, -⟩ := hr.incomplete hconn
      have hdropped : ({ r.cursor.dropped with complete := true } : Cursor).Apt :=
        hr.dropped true (.inl rfl)
      generalize ha : r'.client.account L = a' at hclosing
      generalize hs : r'.client.session = s' at hclosing
      generalize hc : r'.cursor = c' at hclosing
      have hmoves {a : Account} {oa : Except Failure Response}
          (hexchanged : Connection.Exchanged conn.line (.followUp .stop r.cursor.token)
            (r.client.account L) oa a) (hrounds : a'.rounds = a.rounds)
          (hcounted : s'.token = r.client.session.token)
          (hdone : c' = { r.cursor.dropped with complete := true }) : r.Moves L r' := by
        rw [hdone] at hc
        refine moves_of_asked hconn hr (hc ▸ hdropped) (hc ▸ ⟨rfl, rfl, rfl⟩) (hc ▸ rfl) ?_
          (hs ▸ hcounted)
        rw [Reader.rounds, ha, hrounds]
        exact hexchanged.asked
      cases hclosing with
      | already hclosed => exact absurd (hopen.symm.trans hclosed) Bool.false_ne_true
      | bare _ hnone => cases hconn.symm.trans hnone
      | complete conn' a' s' _ _ hdone _ =>
          exact absurd (hcomplete.symm.trans hdone) Bool.false_ne_true
      | stopped conn' a a₁ a' s' _ hconn' hexchanged hreleased =>
          cases hconn.symm.trans hconn'
          refine ⟨hmoves hexchanged hreleased.rounds hreleased.counted rfl, hc ▸ ⟨rfl, rfl⟩,
            .inl (.letGo hconn (hc ▸ rfl) ?_)⟩
          rw [ha, hs]
          exact hreleased.disposed.of_closed_eq hexchanged.closed_eq
      | failed conn' e a' _ hconn' hexchanged =>
          cases hconn.symm.trans hconn'
          refine ⟨hmoves hexchanged rfl rfl rfl, hc ▸ ⟨rfl, rfl⟩,
            .inl (.letGo hconn (hc ▸ rfl) ?_)⟩
          rw [ha, hs]
          exact .closed hexchanged.closed_eq_of_driver rfl
      | refused conn' f a' _ hconn' hexchanged =>
          cases hconn.symm.trans hconn'
          refine ⟨hmoves hexchanged rfl rfl rfl, hc ▸ ⟨rfl, rfl⟩,
            .inr ⟨(refused_error _).2 hexchanged.isRefusal, conn, hconn, ?_⟩⟩
          rw [ha, hs]
          exact hexchanged.lost

/-- Closing a cursor leads on, whatever the server says to that. -/
theorem leads_close : Within (Leads L) (close t) :=
  .of_run fun _ _ _ hrun hr => (closes_of_close hr hrun).moves

theorem leads_next : Within (Leads L) (next t) :=
  tends_next.mono fun _ _ h hr => (h hr).1

/-- Every operation on a cursor leads on. -/
theorem leads_perform (op : CursorOperation) : Within (Leads L) (op.perform t) :=
  leads_next.perform (tends_renderedQuery.mono fun _ _ h hr => (h hr).1) leads_close op

end Reading

end QueryDriver
