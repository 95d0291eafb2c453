import QueryDriver.Cursor.Reading
import QueryDriver.Proofs.Session.Pool

/-!
# What cursors do with connections

A cursor uses its connection in two ways only: it asks for more rows, and it is closed.
`Accepted`, `Fetched` and `Stepping` list what is done when it asks for more, action after
action. `Fetching` and `Closing` list the ways in which the two can go as far as the account, the
session and the cursor tell. All of them are about cursors of a session, which all cursors are
that a run hands out.
-/

namespace QueryDriver

open Net Wire

variable {σ τ α β : Type} {t : Transport σ τ} {L : Ledger t}

namespace Reading

@[simp] theorem run_cursor (r : Reader σ) : (cursor : Reading σ Cursor).run r = (.ok r.cursor, r) :=
  rfl

@[simp] theorem run_update (f : Cursor → Cursor) (r : Reader σ) :
    (update f : Reading σ Unit).run r = (.ok (), { r with cursor := f r.cursor }) := rfl

@[simp] theorem run_settle (o : Except Failure α) (r : Reader σ) :
    (settle o : Reading σ α).run r = (o, r) := by
  cases o <;> rfl

theorem run_observe {action : Reading σ α} {r r' : Reader σ} {o : Except Failure α}
    (h : action.run r = (o, r')) : (observe action).run r = (.ok o, r') := by
  have hrun : (observe action).run r = (.ok (action.run r).1, (action.run r).2) := rfl
  rw [hrun, h]

theorem run_onClient {action : Client.Action σ α} {k k' : Client σ} {c : Cursor}
    {o : Except Failure α} (h : action.run k = (o, k')) :
    (onClient action).run ⟨k, c⟩ = (o, ⟨k', c⟩) := by
  have hrun : (onClient action).run ⟨k, c⟩ = ((action.run k).1, ⟨(action.run k).2, c⟩) := rfl
  rw [hrun, h]

theorem run_requireSession {r : Reader σ} (h : r.cursor.attached = true) :
    (requireSession : Reading σ Unit).run r = (.ok (), r) := by
  rw [requireSession, run_bind_of_ok (run_cursor r), if_pos h]
  rfl

theorem run_followUp [Clock τ] {r : Reader σ} {c : Connection} {type : QueryType} {k : Client σ}
    {o : Except Failure Response} (h : r.cursor.attached = true)
    (hround : (Client.roundTrip t c (.followUp type r.cursor.token)).run r.client = (o, k)) :
    (followUp t c type).run r = (o, { r with client := k }) := by
  rw [followUp, run_bind_of_ok (run_requireSession h), run_bind_of_ok (run_cursor r)]
  exact run_onClient hround

end Reading

/-- The expression of a cursor as a text, for the errors that reading meets. -/
def Cursor.rendering (c : Cursor) : Option String :=
  if c.expression.isNull then none else c.expression.describe.1

namespace Reading

/-- Asking for the rendered expression comes to what the cursor tells of it, or to its rendering,
and changes nothing but what the cursor tells. -/
theorem run_renderedQuery (r : Reader σ) : ∃ k query,
    (renderedQuery : Reading σ (Option String)).run r =
      (.ok (r.cursor.query.or r.cursor.rendering), ⟨k, { r.cursor with query := query }⟩) ∧
    k.account L = r.client.account L ∧ k.session = r.client.session ∧
    (query = r.cursor.query ∨ query = r.cursor.rendering) := by
  rw [renderedQuery, run_bind_of_ok (run_cursor r)]
  cases hquery : r.cursor.query with
  | some q =>
      refine ⟨r.client, r.cursor.query, ?_, rfl, rfl, .inl hquery⟩
      rfl
  | none =>
      dsimp only
      rw [Option.none_or]
      by_cases hnull : r.cursor.expression.isNull = true
      · refine ⟨r.client, r.cursor.query, ?_, rfl, rfl, .inl hquery⟩
        rw [if_pos hnull, Cursor.rendering, if_pos hnull]
        rfl
      · have hrendering : r.cursor.rendering = r.cursor.expression.describe.1 := if_neg hnull
        rcases hrun : (Client.Action.compiling (describing r.cursor.expression)).run r.client with
          ⟨od, k⟩
        obtain ⟨rfl, haccount, hsession⟩ := Client.describing_cases (L := L) hrun
        rw [if_neg hnull, run_bind_of_ok (run_onClient hrun), run_bind_of_ok (run_update _ _)]
        refine ⟨k, r.cursor.rendering, ?_, haccount, hsession, .inr rfl⟩
        rw [hrendering]
        rfl

end Reading

namespace Cursor

/-- The cursor has let go of its connection, and nothing more will arrive. -/
def finished (c : Cursor) : Cursor := { c with connection := none, complete := true }

/-- The cursor has more rows. -/
def fed (rows : List Datum) (c : Cursor) : Cursor := { c with buffer := c.buffer ++ rows }

/-- The cursor is closed and has no rows. -/
def ended (c : Cursor) : Cursor := { c with buffer := [], closed := true }

/-- The cursor keeps an error. -/
def latch (e : DriverError) (c : Cursor) : Cursor := { c with error := some e }

/-- How asking for more rows can go. -/
inductive Fetching (c : Cursor) (a : Account) (s : Session) :
    Except Failure Unit → Account → Session → Cursor → Prop
  | lost (e : DriverError) (hconn : c.connection = none) :
    Fetching c a s (.error (.driver e)) a s c
  | failed (conn : Connection) (e : DriverError) (a' : Account)
      (hconn : c.connection = some conn)
      (hexchanged : Connection.Exchanged conn.line (.followUp .continue c.token) a
        (.error (.driver e)) a') : Fetching c a s (.error (.driver e)) a' s c.finished
  /-- The line would not be armed. -/
  | refused (conn : Connection) (f : Fault) (a' : Account) (hconn : c.connection = some conn)
      (hexchanged : Connection.Exchanged conn.line (.followUp .continue c.token) a
        (.error (.fault f)) a') : Fetching c a s (.error (.fault f)) a' s c
  | more (conn : Connection) (r : Response) (a' : Account) (hconn : c.connection = some conn)
      (hexchanged : Connection.Exchanged conn.line (.followUp .continue c.token) a (.ok r) a')
      (hshape : Shape.ofResponse? r = some .partialSequence) :
    Fetching c a s (.ok ()) a' s (c.fed r.values)
  | last (conn : Connection) (r : Response) (a₁ a' : Account) (s' : Session)
      (hconn : c.connection = some conn)
      (hexchanged : Connection.Exchanged conn.line (.followUp .continue c.token) a (.ok r) a₁)
      (hshape : Shape.ofResponse? r = some .sequence)
      (hrelease : Client.Released conn a₁ s a' s') :
    Fetching c a s (.ok ()) a' s' (c.finished.fed r.values)
  /-- The server reports an error. -/
  | reported (conn : Connection) (r : Response) (e : DriverError) (query : Option String)
      (a₁ a' : Account) (s' : Session) (hconn : c.connection = some conn)
      (hexchanged : Connection.Exchanged conn.line (.followUp .continue c.token) a (.ok r) a₁)
      (hshape : Shape.ofResponse? r = none ∨ Shape.ofResponse? r = some .atom)
      (hrelease : Client.Released conn a₁ s a' s') :
    Fetching c a s (.error (.driver e)) a' s' { c.finished with query := query }
  | unexpected (conn : Connection) (r : Response) (e : DriverError) (a₁ : Account)
      (hconn : c.connection = some conn)
      (hexchanged : Connection.Exchanged conn.line (.followUp .continue c.token) a (.ok r) a₁)
      (hshape : Shape.ofResponse? r = none ∨ Shape.ofResponse? r = some .atom) :
    Fetching c a s (.error (.driver e)) (a₁.shut conn.line) s c.finished

/-- What the cursor is of, which no reading changes. -/
structure Same (c c' : Cursor) : Prop where
  token : c'.token = c.token
  shape : c'.shape = c.shape
  timeFormat : c'.timeFormat = c.timeFormat

theorem Same.refl (c : Cursor) : c.Same c := ⟨rfl, rfl, rfl⟩

theorem Same.trans {c c₁ c' : Cursor} (h : c.Same c₁) (h' : c₁.Same c') : c.Same c' :=
  ⟨h'.token.trans h.token, h'.shape.trans h.shape, h'.timeFormat.trans h.timeFormat⟩

theorem Fetching.same {c c' : Cursor} {a a' : Account} {s s' : Session}
    {o : Except Failure Unit} (h : Fetching c a s o a' s' c') : c.Same c' := by
  cases h <;> exact ⟨rfl, rfl, rfl⟩

theorem Fetching.suffix {c c' : Cursor} {a a' : Account} {s s' : Session}
    {o : Except Failure Unit} (h : Fetching c a s o a' s' c') : a.rounds <:+ a'.rounds := by
  cases h with
  | lost e hconn => exact List.suffix_rfl
  | failed conn e a' hconn hexchanged => exact hexchanged.suffix
  | refused conn f a' hconn hexchanged => exact hexchanged.suffix
  | more conn r a' hconn hexchanged hshape => exact hexchanged.suffix
  | last conn r a₁ a' s' hconn hexchanged hshape hrelease =>
      rw [hrelease.rounds]
      exact hexchanged.suffix
  | reported conn r e query a₁ a' s' hconn hexchanged hshape hrelease =>
      rw [hrelease.rounds]
      exact hexchanged.suffix
  | unexpected conn r e a₁ hconn hexchanged hshape =>
      rw [Account.rounds_shut]
      exact hexchanged.suffix

/-- The cursor is done with its connection and has no rows. -/
def dropped (c : Cursor) : Cursor := { c with buffer := [], closed := true, connection := none }

/-- How closing a cursor can go. -/
inductive Closing (c : Cursor) (a : Account) (s : Session) :
    Except Failure Unit → Account → Session → Cursor → Prop
  | already (hclosed : c.closed = true) : Closing c a s (.ok ()) a s { c with buffer := [] }
  | bare (hopen : c.closed = false) (hconn : c.connection = none) :
    Closing c a s (.ok ()) a s c.dropped
  | complete (conn : Connection) (a' : Account) (s' : Session) (hopen : c.closed = false)
      (hconn : c.connection = some conn) (hcomplete : c.complete = true)
      (hrelease : Client.Released conn a s a' s') : Closing c a s (.ok ()) a' s' c.dropped
  | stopped (conn : Connection) (r : Response) (a₁ a' : Account) (s' : Session)
      (hopen : c.closed = false) (hconn : c.connection = some conn)
      (hexchanged : Connection.Exchanged conn.line (.followUp .stop c.token) a (.ok r) a₁)
      (hrelease : Client.Released conn a₁ s a' s') :
    Closing c a s (.ok ()) a' s' { c.dropped with complete := true }
  | failed (conn : Connection) (e : DriverError) (a' : Account) (hopen : c.closed = false)
      (hconn : c.connection = some conn)
      (hexchanged : Connection.Exchanged conn.line (.followUp .stop c.token) a
        (.error (.driver e)) a') :
    Closing c a s (.ok ()) a' s { c.dropped with complete := true }
  /-- The line would not be armed. -/
  | refused (conn : Connection) (f : Fault) (a' : Account) (hopen : c.closed = false)
      (hconn : c.connection = some conn)
      (hexchanged : Connection.Exchanged conn.line (.followUp .stop c.token) a
        (.error (.fault f)) a') :
    Closing c a s (.error (.fault f)) a' s { c.dropped with complete := true }

theorem Closing.same {c c' : Cursor} {a a' : Account} {s s' : Session}
    {o : Except Failure Unit} (h : Closing c a s o a' s' c') : c.Same c' := by
  cases h <;> exact ⟨rfl, rfl, rfl⟩

theorem Closing.suffix {c c' : Cursor} {a a' : Account} {s s' : Session}
    {o : Except Failure Unit} (h : Closing c a s o a' s' c') : a.rounds <:+ a'.rounds := by
  cases h with
  | already hclosed => exact List.suffix_rfl
  | bare hopen hconn => exact List.suffix_rfl
  | complete conn a' s' hopen hconn hcomplete hrelease =>
      simp [hrelease.rounds]
  | stopped conn r a₁ a' s' hopen hconn hexchanged hrelease =>
      rw [hrelease.rounds]
      exact hexchanged.suffix
  | failed conn e a' hopen hconn hexchanged => exact hexchanged.suffix
  | refused conn f a' hopen hconn hexchanged => exact hexchanged.suffix

end Cursor

namespace Reading

open Cursor

/-- What is done with an answer to a query for more, which has come over a connection. -/
inductive Accepted (t : Transport σ τ) (L : Ledger t) (conn : Connection) (a : Response)
    (r : Reader σ) : Except Failure Unit → Reader σ → Prop
  | more (hshape : Shape.ofResponse? a = some .partialSequence) :
    Accepted t L conn a r (.ok ()) { r with cursor := r.cursor.fed a.values }
  | last {k : Client σ} (hshape : Shape.ofResponse? a = some .sequence)
      (hrelease : (Client.release t conn).run r.client = (.ok (), k)) :
    Accepted t L conn a r (.ok ()) ⟨k, r.cursor.finished.fed a.values⟩
  /-- The server reports an error. -/
  | reported {k k' : Client σ} {query : Option String}
      (hshape : Shape.ofResponse? a = none ∨ Shape.ofResponse? a = some .atom)
      (hfailure : a.failure?.isSome = true)
      (hrelease : (Client.release t conn).run r.client = (.ok (), k))
      (haccount : k'.account L = k.account L) (hsession : k'.session = k.session)
      (hquery : query = r.cursor.query ∨ query = r.cursor.rendering) :
    Accepted t L conn a r
      (.error (.driver (DriverError.ofResponse a (r.cursor.query.or r.cursor.rendering))))
      ⟨k', { r.cursor.finished with query := query }⟩
  | unexpected {k : Client σ}
      (hshape : Shape.ofResponse? a = none ∨ Shape.ofResponse? a = some .atom)
      (hfailure : a.failure?.isSome = false)
      (hdiscard : (Client.discard t conn).run r.client = (.ok (), k)) :
    Accepted t L conn a r
      (.error (.driver { DriverError.ofCause (.unexpectedContinuation a.kind.toInt) with
        response := some a })) ⟨k, r.cursor.finished⟩

theorem accepted_of_accept {conn : Connection} {a : Response} {r r' : Reader σ}
    {o : Except Failure Unit} (h : (accept t conn a).run r = (o, r')) :
    Accepted t L conn a r o r' := by
  have hrejected (hshape : Shape.ofResponse? a = none ∨ Shape.ofResponse? a = some .atom)
      (h : (do
      finish
      if a.failure?.isSome then
        onClient (Client.release t conn)
        let query ← renderedQuery
        throw (.driver (DriverError.ofResponse a query))
      else
        onClient (Client.discard t conn)
        throw (.driver { DriverError.ofCause (.unexpectedContinuation a.kind.toInt) with
          response := some a }) : Reading σ Unit).run r = (o, r')) :
      Accepted t L conn a r o r' := by
    rw [finish, run_bind_of_ok (run_update _ _)] at h
    by_cases hfailure : a.failure?.isSome = true
    · rw [if_pos hfailure] at h
      rcases hrelease : (Client.release t conn).run r.client with ⟨or, k⟩
      obtain ⟨rfl, -⟩ := Client.release_released (L := L) hrelease
      rw [run_bind_of_ok (run_onClient hrelease)] at h
      obtain ⟨k', query, hrun, haccount, hsession, hquery⟩ :=
        run_renderedQuery (L := L) ⟨k, r.cursor.finished⟩
      rw [Cursor.finished] at hrun
      rw [run_bind_of_ok hrun] at h
      cases h
      exact .reported hshape hfailure hrelease haccount hsession hquery
    · rw [if_neg hfailure] at h
      rcases hdiscard : (Client.discard t conn).run r.client with ⟨od, k⟩
      obtain ⟨rfl, -⟩ := Client.discard_cases (L := L) hdiscard
      rw [run_bind_of_ok (run_onClient hdiscard)] at h
      cases h
      exact .unexpected hshape (Bool.eq_false_iff.2 hfailure) hdiscard
  rw [accept] at h
  rcases hshape : Shape.ofResponse? a with _ | _ | _ | _ <;> rw [hshape] at h
  · exact hrejected (.inl hshape) h
  · exact hrejected (.inr hshape) h
  · dsimp only at h
    rw [finish, run_bind_of_ok (run_update _ _), feed, run_bind_of_ok (run_update _ _)] at h
    rcases hrelease : (Client.release t conn).run r.client with ⟨or, k⟩
    obtain ⟨rfl, -⟩ := Client.release_released (L := L) hrelease
    rw [run_onClient hrelease] at h
    cases h
    exact .last hshape hrelease
  · cases h
    exact .more hshape

theorem Accepted.fetching {conn : Connection} {a : Response} {b : Account} {r r' : Reader σ}
    {o : Except Failure Unit} (h : Accepted t L conn a r o r')
    (hconn : r.cursor.connection = some conn)
    (hexchanged : Connection.Exchanged conn.line (.followUp .continue r.cursor.token) b (.ok a)
      (r.client.account L)) :
    Fetching r.cursor b r.client.session o (r'.client.account L) r'.client.session r'.cursor := by
  cases h with
  | more hshape => exact .more conn a _ hconn hexchanged hshape
  | last hshape hrelease =>
      obtain ⟨-, hreleased⟩ := Client.release_released (L := L) hrelease
      exact .last conn a _ _ _ hconn hexchanged hshape hreleased
  | reported hshape hfailure hrelease haccount hsession hquery =>
      obtain ⟨-, hreleased⟩ := Client.release_released (L := L) hrelease
      rw [haccount, hsession]
      exact .reported conn a _ _ _ _ _ hconn hexchanged hshape hreleased
  | unexpected hshape hfailure hdiscard =>
      obtain ⟨-, haccount, hsession⟩ := Client.discard_cases (L := L) hdiscard
      rw [haccount, hsession]
      exact .unexpected conn a _ _ hconn hexchanged hshape

theorem handBack_released {conn : Connection} {r r' : Reader σ} {o : Except Failure Unit}
    (h : (handBack t conn).run r = (o, r')) (hattached : r.cursor.attached = true) :
    o = .ok () ∧ r'.cursor = r.cursor ∧ Client.Released conn (r.client.account L)
      r.client.session (r'.client.account L) r'.client.session := by
  rw [handBack, run_bind_of_ok (run_requireSession hattached)] at h
  rcases hrelease : (Client.release t conn).run r.client with ⟨or, k⟩
  rw [run_onClient hrelease] at h
  cases h
  obtain ⟨ho, hreleased⟩ := Client.release_released (L := L) hrelease
  exact ⟨ho, rfl, hreleased⟩

variable [Clock τ]

/-- What is done when a cursor asks for more rows. -/
inductive Fetched (t : Transport σ τ) (L : Ledger t) (r : Reader σ) :
    Except Failure Unit → Reader σ → Prop
  | lost (hconn : r.cursor.connection = none) :
    Fetched t L r (.error (.ofCause .connectionLost)) r
  | unanswered {conn : Connection} {e : DriverError} {k : Client σ}
      (hconn : r.cursor.connection = some conn)
      (hround : (Client.roundTrip t conn (.followUp .continue r.cursor.token)).run r.client =
        (.error (.driver e), k)) : Fetched t L r (.error (.driver e)) ⟨k, r.cursor.finished⟩
  /-- The line would not be armed. -/
  | refused {conn : Connection} {f : Fault} {k : Client σ}
      (hconn : r.cursor.connection = some conn)
      (hround : (Client.roundTrip t conn (.followUp .continue r.cursor.token)).run r.client =
        (.error (.fault f), k)) : Fetched t L r (.error (.fault f)) ⟨k, r.cursor⟩
  | answered {conn : Connection} {a : Response} {k : Client σ} {o : Except Failure Unit}
      {r' : Reader σ} (hconn : r.cursor.connection = some conn)
      (hround : (Client.roundTrip t conn (.followUp .continue r.cursor.token)).run r.client =
        (.ok a, k)) (haccepted : Accepted t L conn a ⟨k, r.cursor⟩ o r') : Fetched t L r o r'

theorem fetched_of_fetchMore {r r' : Reader σ} {o : Except Failure Unit}
    (hattached : r.cursor.attached = true) (h : (fetchMore t).run r = (o, r')) :
    Fetched t L r o r' := by
  rw [fetchMore, run_bind_of_ok (run_cursor r)] at h
  cases hconn : r.cursor.connection with
  | none =>
      rw [hconn] at h
      cases h
      exact .lost hconn
  | some conn =>
      rw [hconn] at h
      dsimp only at h
      rw [fetchOver, run_bind_of_ok (run_requireSession hattached)] at h
      rcases hround : (Client.roundTrip t conn (.followUp .continue r.cursor.token)).run r.client
        with ⟨or, k⟩
      rw [run_bind_of_ok (run_observe (run_followUp hattached hround))] at h
      rcases or with (e | f) | a
      · cases h
        exact .unanswered hconn hround
      · cases h
        exact .refused hconn hround
      · exact .answered hconn hround (accepted_of_accept h)

theorem fetchMore_fetching {r r' : Reader σ} {o : Except Failure Unit}
    (hattached : r.cursor.attached = true) (h : (fetchMore t).run r = (o, r')) :
    Fetching r.cursor (r.client.account L) r.client.session o (r'.client.account L)
      r'.client.session r'.cursor := by
  cases fetched_of_fetchMore (L := L) hattached h with
  | lost hconn => exact .lost _ hconn
  | unanswered hconn hround =>
      obtain ⟨hexchanged, hsession⟩ := Client.roundTrip_exchanged (L := L) hround
      rw [hsession]
      exact .failed _ _ _ hconn hexchanged
  | refused hconn hround =>
      obtain ⟨hexchanged, hsession⟩ := Client.roundTrip_exchanged (L := L) hround
      rw [hsession]
      exact .refused _ _ _ hconn hexchanged
  | answered hconn hround haccepted =>
      obtain ⟨hexchanged, hsession⟩ := Client.roundTrip_exchanged (L := L) hround
      rw [← hsession]
      exact haccepted.fetching hconn hexchanged

theorem run_close {r : Reader σ} (h : r.cursor.connection = none) :
    (close t).run r = (.ok (), { r with cursor := r.cursor.ended }) := by
  obtain ⟨k, c⟩ := r
  rw [close, run_bind_of_ok (run_update _ _), run_bind_of_ok (run_cursor _)]
  cases hclosed : c.closed with
  | true =>
      obtain ⟨attached, connection, token, shape, buffer, current, complete, closed, error,
        expression, query, timeFormat⟩ := c
      cases hclosed
      rfl
  | false =>
      obtain ⟨attached, connection, token, shape, buffer, current, complete, closed, error,
        expression, query, timeFormat⟩ := c
      cases hclosed
      cases h
      rfl

theorem close_closing {r r' : Reader σ} {o : Except Failure Unit}
    (hattached : r.cursor.attached = true) (h : (close t).run r = (o, r')) :
    Closing r.cursor (r.client.account L) r.client.session o (r'.client.account L)
      r'.client.session r'.cursor := by
  rw [close, run_bind_of_ok (run_update _ _), run_bind_of_ok (run_cursor _)] at h
  split at h
  · rename_i hclosed
    cases h
    exact .already hclosed
  rename_i hopen
  replace hopen : r.cursor.closed = false := by simpa using hopen
  rw [run_bind_of_ok (run_update _ _)] at h
  dsimp only at h
  cases hconn : r.cursor.connection with
  | none =>
      rw [hconn] at h
      cases h
      exact .bare hopen hconn
  | some conn =>
      rw [hconn] at h
      dsimp only at h
      split at h
      · rename_i hcomplete
        obtain ⟨rfl, hcursor, hreleased⟩ := handBack_released (L := L) h hattached
        rw [hcursor]
        exact .complete conn _ _ hopen hconn hcomplete hreleased
      · rw [stop, run_bind_of_ok (run_update _ _)] at h
        rcases hround : (Client.roundTrip t conn (.followUp .stop r.cursor.token)).run r.client
          with ⟨or, k⟩
        obtain ⟨hexchanged, hsession⟩ := Client.roundTrip_exchanged (L := L) hround
        have hfollowUp : (followUp t conn .stop).run
            ⟨r.client, { r.cursor.dropped with complete := true }⟩ =
              (or, ⟨k, { r.cursor.dropped with complete := true }⟩) :=
          run_followUp hattached hround
        rw [Cursor.dropped] at hfollowUp
        rw [run_bind_of_ok (run_observe hfollowUp)] at h
        rcases or with (e | f) | a
        · rcases hrecord : (Client.Action.record (.stopFailed r.cursor.token.toInt) :
            Client.Action σ Unit).run k with ⟨or, k₁⟩
          obtain ⟨rfl, haccount, hs⟩ :=
            Client.record_cases (L := L) (e := .stopFailed _) trivial hrecord
          dsimp only at h
          rw [run_bind_of_ok (run_cursor _), record, run_onClient hrecord] at h
          cases h
          rw [haccount, hs, hsession]
          exact .failed conn e _ hopen hconn hexchanged
        · cases h
          rw [hsession]
          exact .refused conn f _ hopen hconn hexchanged
        · obtain ⟨rfl, hcursor, hreleased⟩ := handBack_released (L := L) h hattached
          rw [hsession] at hreleased
          rw [hcursor]
          exact .stopped conn a _ _ _ hopen hconn hexchanged hreleased

theorem Fetched.connection_of_error {r r' : Reader σ} {e : DriverError}
    (h : Fetched t L r (.error (.driver e)) r') : r'.cursor.connection = none := by
  cases h with
  | lost hconn => exact hconn
  | unanswered hconn hround => rfl
  | answered hconn hround haccepted => cases haccepted <;> rfl

/-- What is done in a step toward the next row. -/
inductive Stepping (t : Transport σ τ) (L : Ledger t) (r : Reader σ) :
    Except Failure (Option Bool) → Reader σ → Prop
  | found {d : Datum} {ds : List Datum} (hbuffer : r.cursor.buffer = d :: ds) :
    Stepping t L r (.ok (some true))
      { r with cursor := { r.cursor with buffer := ds, current := some d } }
  | ended (hbuffer : r.cursor.buffer = []) (hconn : r.cursor.connection = none) :
    Stepping t L r (.ok (some false)) { r with cursor := r.cursor.ended }
  | fetched {conn : Connection} {r' : Reader σ} (hbuffer : r.cursor.buffer = [])
      (hconn : r.cursor.connection = some conn) (hfetch : (fetchMore t).run r = (.ok (), r')) :
    Stepping t L r (.ok none) r'
  /-- The error stays with the cursor. -/
  | failed {conn : Connection} {e : DriverError} {r₁ : Reader σ} {k : Client σ}
      {query : Option String} (hbuffer : r.cursor.buffer = [])
      (hconn : r.cursor.connection = some conn)
      (hfetch : (fetchMore t).run r = (.error (.driver e), r₁))
      (haccount : k.account L = r₁.client.account L) (hsession : k.session = r₁.client.session)
      (hquery : query = r₁.cursor.query ∨ query = r₁.cursor.rendering) :
    Stepping t L r (.ok (some false)) ⟨k, (({ r₁.cursor with query := query } : Cursor).latch
      (e.withQuery (r₁.cursor.query.or r₁.cursor.rendering))).ended⟩
  | refused {conn : Connection} {f : Fault} {r' : Reader σ} (hbuffer : r.cursor.buffer = [])
      (hconn : r.cursor.connection = some conn)
      (hfetch : (fetchMore t).run r = (.error (.fault f), r')) :
    Stepping t L r (.error (.fault f)) r'

/-- A cursor asks for more as long as it holds a connection. -/
theorem stepping_of_step {r r' : Reader σ} {o : Except Failure (Option Bool)}
    (hattached : r.cursor.attached = true)
    (hheld : r.cursor.complete = true ↔ r.cursor.connection = none)
    (h : (step t).run r = (o, r')) : Stepping t L r o r' := by
  rw [step, run_bind_of_ok (run_cursor r)] at h
  cases hbuffer : r.cursor.buffer with
  | cons d ds =>
      rw [hbuffer] at h
      dsimp only at h
      rw [run_bind_of_ok (run_update _ _)] at h
      cases h
      exact .found hbuffer
  | nil =>
      rw [hbuffer] at h
      dsimp only at h
      split at h
      · rename_i hcomplete
        have hconn := hheld.1 hcomplete
        rw [run_bind_of_ok (run_close hconn)] at h
        cases h
        exact .ended hbuffer hconn
      · rename_i hmore
        obtain ⟨conn, hconn⟩ : ∃ conn, r.cursor.connection = some conn :=
          Option.ne_none_iff_exists'.1 fun hnone => hmore (hheld.2 hnone)
        rcases hfetch : (fetchMore t).run r with ⟨of, r₁⟩
        have hfetched := fetched_of_fetchMore (L := L) hattached hfetch
        rw [run_bind_of_ok (run_observe hfetch)] at h
        rcases of with (e | f) | u
        · obtain ⟨k, query, hrun, haccount, hsession, hquery⟩ := run_renderedQuery (L := L) r₁
          dsimp only at h
          rw [run_bind_of_ok hrun, run_bind_of_ok (run_update _ _),
            run_bind_of_ok (run_close (by exact hfetched.connection_of_error))] at h
          cases h
          exact .failed hbuffer hconn hfetch haccount hsession hquery
        · cases h
          exact .refused hbuffer hconn hfetch
        · cases h
          exact .fetched hbuffer hconn hfetch

end Reading

end QueryDriver
