import QueryDriver.Proofs.Session.Pool

/-!
# What a run does

A run counts a token, takes a connection, sends a query to start over it, and makes a
cursor of the answer. `Launching`, `Sending` and `Received` list what is done, action after
action. `Ran` lists the ways in which that can go, as far as the account and the session
tell. Before the query is sent a run may fail, or end with a cursor that reports what the
compiler has found. When it was sent, and there is no answer, the connection is thrown away;
and when there is one, `Answered` says what becomes of it.
-/

namespace QueryDriver

open Net Wire

variable {σ τ α : Type} {t : Transport σ τ} {L : Ledger t}

/-- The query that is compiled is one to start. -/
theorem tag_compile {v : Value} {scope : Scope} {token : Int64} {q : Query} {j j' : Journal}
    (h : (compile v scope token).run j = (.ok q, j')) : q.tag = some QueryType.start.code := by
  rw [compile] at h
  obtain ⟨⟨root, timeFormat⟩, j₁, -, h⟩ | ⟨e, -, he⟩ := run_bind_cases h
  · obtain ⟨options, j₂, -, h⟩ | ⟨e, -, he⟩ := run_bind_cases h
    · cases h
      rfl
    · cases he
  · cases he

/-- The session has counted one more token. -/
def Session.counted (s : Session) : Session := { s with token := s.token + 1 }

namespace Client

theorem toInt_tokenOf {n : Nat} {token : Int64} (h : tokenOf n = .ok token) :
    token.toInt = n := by
  unfold tokenOf at h
  split at h
  · cases h
    rw [Int64.toInt_ofNat_of_lt ‹_›]
  · cases h

/-- What is done with an answer that has come over a connection. -/
inductive Received (t : Transport σ τ) (L : Ledger t) (c : Connection) (v : Value)
    (token : Int64) (timeFormat : TimeFormat) (r : Response) (k : Client σ) :
    Cursor → Client σ → Prop
  | kept (hshape : Shape.ofResponse? r = some .partialSequence) :
    Received t L c v token timeFormat r k (Cursor.start true (some c) token
      (some .partialSequence) r.values false v timeFormat) k
  | whole {shape : Shape} {k' : Client σ} (hshape : Shape.ofResponse? r = some shape)
      (hwhole : shape ≠ .partialSequence) (hrelease : (release t c).run k = (.ok (), k')) :
    Received t L c v token timeFormat r k (Cursor.start true none token (some shape) r.values true
      v timeFormat) k'
  /-- The server reports an error. -/
  | reported {k₁ k' : Client σ} (hshape : Shape.ofResponse? r = none)
      (hfailure : r.failure?.isSome = true) (hrelease : (release t c).run k = (.ok (), k₁))
      (haccount : k'.account L = k₁.account L) (hsession : k'.session = k₁.session) :
    Received t L c v token timeFormat r k
      (Cursor.failed true (DriverError.ofResponse r v.describe.1)) k'
  | unexpected {k₁ k' : Client σ} (hshape : Shape.ofResponse? r = none)
      (hfailure : r.failure?.isSome = false) (hdiscard : (discard t c).run k = (.ok (), k₁))
      (haccount : k'.account L = k₁.account L) (hsession : k'.session = k₁.session) :
    Received t L c v token timeFormat r k
      (Cursor.failed true (DriverError.ofResponse r v.describe.1)) k'

/-- Every answer makes a cursor. -/
theorem received_of_run {c : Connection} {v : Value} {token : Int64} {timeFormat : TimeFormat}
    {r : Response} {k k' : Client σ} {o : Except Failure Cursor}
    (h : (received t c v token timeFormat r).run k = (o, k')) :
    ∃ cur, o = .ok cur ∧ Received t L c v token timeFormat r k cur k' := by
  have hwhole {shape : Shape} (hshape : Shape.ofResponse? r = some shape)
      (hne : shape ≠ .partialSequence) (h : (do
        release t c
        return Cursor.start true none token (some shape) r.values true v timeFormat).run k =
          (o, k')) : ∃ cur, o = .ok cur ∧ Received t L c v token timeFormat r k cur k' := by
    rcases hrelease : (release t c).run k with ⟨or, k₁⟩
    obtain ⟨rfl, -⟩ := release_released (L := L) hrelease
    rw [run_bind_of_ok hrelease] at h
    cases h
    exact ⟨_, rfl, .whole hshape hne hrelease⟩
  have hfailed {k₁ : Client σ} (h : (do
      let query ← Action.compiling (describing v)
      return Cursor.failed true (DriverError.ofResponse r query)).run k₁ = (o, k')) :
      o = .ok (Cursor.failed true (DriverError.ofResponse r v.describe.1)) ∧
        k'.account L = k₁.account L ∧ k'.session = k₁.session := by
    rcases hdescribing : (Action.compiling (describing v)).run k₁ with ⟨od, k₂⟩
    obtain ⟨rfl, haccount, hsession⟩ := describing_cases (L := L) hdescribing
    rw [run_bind_of_ok hdescribing] at h
    cases h
    exact ⟨rfl, haccount, hsession⟩
  unfold received at h
  rcases hshape : Shape.ofResponse? r with _ | _ | _ | _ <;> rw [hshape] at h
  · dsimp only at h
    split at h
    · rename_i hfailure
      rcases hrelease : (release t c).run k with ⟨or, k₁⟩
      obtain ⟨rfl, -⟩ := release_released (L := L) hrelease
      rw [run_bind_of_ok hrelease] at h
      obtain ⟨rfl, haccount, hsession⟩ := hfailed h
      exact ⟨_, rfl, .reported hshape hfailure hrelease haccount hsession⟩
    · rename_i hfailure
      rcases hdiscard : (discard t c).run k with ⟨od, k₁⟩
      obtain ⟨rfl, -⟩ := discard_cases (L := L) hdiscard
      rw [run_bind_of_ok hdiscard] at h
      obtain ⟨rfl, haccount, hsession⟩ := hfailed h
      exact ⟨_, rfl, .unexpected hshape (Bool.eq_false_iff.2 hfailure) hdiscard haccount hsession⟩
  · exact hwhole hshape nofun h
  · exact hwhole hshape nofun h
  · cases h
    exact ⟨_, rfl, .kept hshape⟩

/-- What becomes of an answer that has come over a connection. -/
inductive Answered (c : Connection) (token : Int64) (r : Response) (a : Account) (s : Session) :
    Cursor → Account → Session → Prop
  /-- There are more rows, and the cursor keeps the connection. -/
  | kept (v : Value) (timeFormat : TimeFormat)
      (hshape : Shape.ofResponse? r = some .partialSequence) :
    Answered c token r a s (Cursor.start true (some c) token (some .partialSequence) r.values
      false v timeFormat) a s
  | whole (v : Value) (timeFormat : TimeFormat) (shape : Shape) (a' : Account) (s' : Session)
      (hshape : Shape.ofResponse? r = some shape) (hwhole : shape ≠ .partialSequence)
      (hrelease : Released c a s a' s') :
    Answered c token r a s (Cursor.start true none token (some shape) r.values true v timeFormat)
      a' s'
  /-- The server reports an error. -/
  | reported (e : DriverError) (a' : Account) (s' : Session)
      (hshape : Shape.ofResponse? r = none) (hrelease : Released c a s a' s') :
    Answered c token r a s (Cursor.failed true e) a' s'
  | unexpected (e : DriverError) (hshape : Shape.ofResponse? r = none) :
    Answered c token r a s (Cursor.failed true e) (a.shut c.line) s

theorem Received.answered {c : Connection} {v : Value} {token : Int64} {timeFormat : TimeFormat}
    {r : Response} {k k' : Client σ} {cur : Cursor}
    (h : Received t L c v token timeFormat r k cur k') :
    Answered c token r (k.account L) k.session cur (k'.account L) k'.session := by
  cases h with
  | kept hshape => exact .kept v timeFormat hshape
  | whole hshape hwhole hrelease =>
      obtain ⟨-, hreleased⟩ := release_released (L := L) hrelease
      exact .whole v timeFormat _ _ _ hshape hwhole hreleased
  | reported hshape hfailure hrelease haccount hsession =>
      obtain ⟨-, hreleased⟩ := release_released (L := L) hrelease
      rw [haccount, hsession]
      exact .reported _ _ _ hshape hreleased
  | unexpected hshape hfailure hdiscard haccount hsession =>
      obtain ⟨-, hk₁, hs₁⟩ := discard_cases (L := L) hdiscard
      rw [haccount, hsession, hk₁, hs₁]
      exact .unexpected _ hshape

theorem discardOnFailure_ok {c : Connection} {action : Action σ α} {x : α}
    {k k' : Client σ} (h : action.run k = (.ok x, k')) :
    (discardOnFailure t c action).run k = (.ok x, k') := by
  rw [discardOnFailure, run_bind_of_ok (Action.run_observe h)]
  rfl

theorem discardOnFailure_error {c : Connection} {action : Action σ α} {e : Failure}
    {k k₁ k' : Client σ} (h : action.run k = (.error e, k₁))
    (hdiscard : (discard t c).run k₁ = (.ok (), k')) :
    (discardOnFailure t c action).run k = (.error e, k') := by
  rw [discardOnFailure, run_bind_of_ok (Action.run_observe h)]
  dsimp only
  rw [run_bind_of_ok hdiscard]
  rfl

/-- How a run can go. -/
inductive Ran (a : Account) (s : Session) :
    Except Failure Cursor → Account → Session → Prop
  | uncompiled (e : DriverError) : Ran a s (.ok (Cursor.failed true e)) a s
  | uncounted (e : Failure) : Ran a s (.error e) a s
  | unsent (e : Failure) : Ran a s (.error e) a s.counted
  | unconnected (e : Failure) (a' : Account) (s' : Session)
      (hacquired : Acquired a s.counted (.error e) a' s') : Ran a s (.error e) a' s'
  | unanswered (c : Connection) (query : Query) (e : Failure) (a₁ a' : Account) (s' : Session)
      (hacquired : Acquired a s.counted (.ok c) a₁ s')
      (hstart : query.tag = some QueryType.start.code)
      (htoken : query.tokenValue.toInt = s.token + 1)
      (hexchanged : Connection.Exchanged c.line query a₁ (.error e) a') :
    Ran a s (.error e) (a'.shut c.line) s'
  | answered (c : Connection) (query : Query) (r : Response) (cur : Cursor)
      (a₁ a₂ a' : Account) (s₁ s' : Session) (hacquired : Acquired a s.counted (.ok c) a₁ s₁)
      (hstart : query.tag = some QueryType.start.code)
      (htoken : query.tokenValue.toInt = s.token + 1)
      (hexchanged : Connection.Exchanged c.line query a₁ (.ok r) a₂)
      (hanswered : Answered c query.tokenValue r a₂ s₁ cur a' s') : Ran a s (.ok cur) a' s'

variable [Clock τ]

/-- What is done to send a query that starts a value. -/
inductive Sending (t : Transport σ τ) (v : Value) (query : Query) (k : Client σ) :
    Except Failure Cursor → Client σ → Prop
  /-- There is no token left. -/
  | uncounted {f : Failure} (htoken : tokenOf (k.session.token + 1) = .error f) :
    Sending t v query k (.error f) (k.resumed k.session.counted)
  | unformatted {token : Int64} {f : Failure}
      (htoken : tokenOf (k.session.token + 1) = .ok token)
      (hformat : timeFormatOf { query with token := some token } = .error f) :
    Sending t v query k (.error f) (k.resumed k.session.counted)
  | unconnected {token : Int64} {f : Failure} {k' : Client σ}
      (htoken : tokenOf (k.session.token + 1) = .ok token)
      (htaking : Taking t (k.resumed k.session.counted) (.error f) k') :
    Sending t v query k (.error f) k'
  | unanswered {token : Int64} {c : Connection} {f : Failure} {k₁ k₂ k' : Client σ}
      (htoken : tokenOf (k.session.token + 1) = .ok token)
      (htaking : Taking t (k.resumed k.session.counted) (.ok c) k₁)
      (hround : (roundTrip t c { query with token := some token }).run k₁ = (.error f, k₂))
      (hdiscard : (discard t c).run k₂ = (.ok (), k')) : Sending t v query k (.error f) k'
  | answered {token : Int64} {format : Value} {c : Connection} {r : Response}
      {o : Except Failure Cursor} {k₁ k₂ k' : Client σ}
      (htoken : tokenOf (k.session.token + 1) = .ok token)
      (hformat : timeFormatOf { query with token := some token } = .ok format)
      (htaking : Taking t (k.resumed k.session.counted) (.ok c) k₁)
      (hround : (roundTrip t c { query with token := some token }).run k₁ = (.ok r, k₂))
      (hreceived : (received t c v token (TimeFormat.ofValue format) r).run k₂ = (o, k')) :
    Sending t v query k o k'

theorem sending_of_send (L : Ledger t) {v : Value} {query : Query} {k k' : Client σ}
    {o : Except Failure Cursor} (h : (send t v query).run k = (o, k')) : Sending t v query k o k' := by
  have hcounted : (nextToken : Action σ Nat).run k =
      (.ok (k.session.token + 1), k.resumed k.session.counted) := rfl
  rw [send, run_bind_of_ok hcounted] at h
  cases htoken : tokenOf (k.session.token + 1) with
  | error f =>
      rw [htoken] at h
      cases h
      exact .uncounted htoken
  | ok token =>
      rw [htoken, run_bind_of_ok (Action.run_settle _ _)] at h
      dsimp only at h
      cases hformat : timeFormatOf { query with token := some token } with
      | error f =>
          rw [hformat] at h
          cases h
          exact .unformatted htoken hformat
      | ok format =>
          rw [hformat, run_bind_of_ok (Action.run_settle _ _)] at h
          obtain ⟨c, k₁, hacquire, h⟩ | ⟨f, hacquire, rfl⟩ := run_bind_cases h <;>
            have htaking := taking_of_acquire hacquire
          · rcases hround : (roundTrip t c { query with token := some token }).run k₁ with
              ⟨f | r, k₂⟩
            · rcases hdiscard : (discard t c).run k₂ with ⟨od, k₃⟩
              obtain ⟨rfl, -⟩ := discard_cases (L := L) hdiscard
              rw [run_bind_of_error (discardOnFailure_error hround hdiscard)] at h
              cases h
              exact .unanswered htoken htaking hround hdiscard
            · rw [run_bind_of_ok (discardOnFailure_ok hround)] at h
              exact .answered htoken hformat htaking hround h
          · exact .unconnected htoken htaking

/-- What is done to run a value. -/
inductive Launching (t : Transport σ τ) (v : Value) (k : Client σ) :
    Except Failure Cursor → Client σ → Prop
  | closed (hclosed : k.session.closed = true) :
    Launching t v k (.error (.ofCause .sessionClosed)) k
  /-- The compiler finds something wrong with the value. -/
  | uncompiled {e : DriverError} {j : Journal}
      (hcompile : (compile v k.session.scope 0).run k.world.journal = (.error (.driver e), j)) :
    Launching t v k (.ok (Cursor.failed true e)) (k.journaled j)
  | faulted {f : Fault} {j : Journal}
      (hcompile : (compile v k.session.scope 0).run k.world.journal = (.error (.fault f), j)) :
    Launching t v k (.error (.fault f)) (k.journaled j)
  | sent {query : Query} {j : Journal} {o : Except Failure Cursor} {k' : Client σ}
      (hcompile : (compile v k.session.scope 0).run k.world.journal = (.ok query, j))
      (hsending : Sending t v query (k.journaled j) o k') : Launching t v k o k'

theorem launching_of_run (L : Ledger t) {v : Value} {k k' : Client σ} {o : Except Failure Cursor}
    (h : (run t v).run k = (o, k')) : Launching t v k o k' := by
  rw [run, run_bind_of_ok (Action.run_session k)] at h
  dsimp only at h
  split at h
  · rename_i hclosed
    cases h
    exact .closed hclosed
  · rcases hcompile : (compile v k.session.scope 0).run k.world.journal with
      ⟨(e | f) | query, j⟩ <;>
      rw [run_bind_of_ok (Action.run_observe (run_compiling hcompile))] at h
    · cases h
      exact .uncompiled hcompile
    · cases h
      exact .faulted hcompile
    · exact .sent hcompile (sending_of_send L h)

theorem Sending.ran {v : Value} {query : Query} {k k' : Client σ} {o : Except Failure Cursor}
    (hstart : query.tag = some QueryType.start.code) (h : Sending t v query k o k') :
    Ran (k.account L) k.session o (k'.account L) k'.session := by
  cases h with
  | uncounted htoken => exact .unsent _
  | unformatted htoken hformat => exact .unsent _
  | unconnected htoken htaking => exact .unconnected _ _ _ (htaking.acquired (L := L))
  | unanswered htoken htaking hround hdiscard =>
      obtain ⟨hexchanged, hsession⟩ := roundTrip_exchanged (L := L) hround
      obtain ⟨-, hk', hs'⟩ := discard_cases (L := L) hdiscard
      rw [hk', hs', hsession]
      refine .unanswered _ _ _ _ _ _ (htaking.acquired (L := L)) ?_ ?_ hexchanged
      · exact hstart
      · exact toInt_tokenOf htoken
  | answered htoken hformat htaking hround hrun =>
      obtain ⟨hexchanged, hsession⟩ := roundTrip_exchanged (L := L) hround
      obtain ⟨cur, rfl, hreceived⟩ := received_of_run (L := L) hrun
      have hanswered := hreceived.answered
      rw [hsession] at hanswered
      refine .answered _ _ _ _ _ _ _ _ _ (htaking.acquired (L := L)) ?_ ?_ hexchanged hanswered
      · exact hstart
      · exact toInt_tokenOf htoken

theorem run_ran {v : Value} {k k' : Client σ} {o : Except Failure Cursor}
    (h : (run t v).run k = (o, k')) :
    Ran (k.account L) k.session o (k'.account L) k'.session := by
  have hcompiled {oc : Except Failure Query} {j : Journal}
      (hcompile : (compile v k.session.scope 0).run k.world.journal = (oc, j)) :
      (k.journaled j).account L = k.account L :=
    (compiling_cases (Compiling.Aside.compile v _ _) (run_compiling hcompile)).1
  cases launching_of_run L h with
  | closed hclosed => exact .uncounted _
  | uncompiled hcompile =>
      rw [hcompiled hcompile]
      exact .uncompiled _
  | faulted hcompile =>
      rw [hcompiled hcompile]
      exact .uncounted _
  | sent hcompile hsending =>
      rw [← hcompiled hcompile]
      exact hsending.ran (tag_compile hcompile)

end Client

end QueryDriver
