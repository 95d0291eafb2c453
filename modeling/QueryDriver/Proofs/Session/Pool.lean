import QueryDriver.Proofs.Compilation.Boundary
import QueryDriver.Proofs.Net.RoundTrip
import QueryDriver.Session.Run

/-!
# What actions on a session do

What an action of a client does to the network is told by the account, and what it does
to the pool by the session. Compiling and rendering do nothing to either. The other
actions go in a few ways each, which `Released` and `Acquired` list for the two actions
by which connections leave and enter the pool.
-/

namespace QueryDriver

open Net

variable {σ τ α β : Type} {t : Transport σ τ}

/-- The action leaves the rounds and the greeted lines of the log as they are. -/
def Compiling.Aside (action : Compiling α) : Prop :=
  ∀ j, roundsOf (action.run j).2.log = roundsOf j.log ∧
    greetedOf (action.run j).2.log = greetedOf j.log

namespace Compiling.Aside

theorem of_log {action : Compiling α} (h : ∀ j, (action.run j).2.log = j.log) : Aside action :=
  fun j => by rw [h j]; exact ⟨rfl, rfl⟩

protected theorem pure (x : α) : Aside (pure x) := of_log fun _ => rfl

protected theorem throw (f : Failure) : Aside (throw f : Compiling α) := of_log fun _ => rfl

theorem settle (o : Except Failure α) : Aside (liftM o : Compiling α) :=
  of_log fun _ => by cases o <;> rfl

protected theorem bind {a : Compiling α} {f : α → Compiling β} (ha : Aside a)
    (hf : ∀ x, Aside (f x)) : Aside (a >>= f) := by
  intro j
  rcases h : a.run j with ⟨x | e, j₁⟩ <;> have hj := ha j <;> rw [h] at hj
  · rw [run_bind_of_error h]
    exact hj
  · rw [run_bind_of_ok h]
    exact ⟨((hf _) j₁).1.trans hj.1, ((hf _) j₁).2.trans hj.2⟩

protected theorem tryCatch {a : Compiling α} {f : Failure → Compiling α} (ha : Aside a)
    (hf : ∀ e, Aside (f e)) : Aside (tryCatch a f) := by
  intro j
  rcases h : a.run j with ⟨x | e, j₁⟩ <;> have hj := ha j <;> rw [h] at hj <;>
    rw [run_tryCatch, h]
  · exact ⟨((hf x) j₁).1.trans hj.1, ((hf x) j₁).2.trans hj.2⟩
  · exact hj

theorem describing (v : Value) : Aside (describing v) := by
  intro j
  have hrun : ((QueryDriver.describing v).run j).2 = (j.describe v).2 := rfl
  rw [hrun, Journal.describe]
  dsimp only
  split
  · exact ⟨rfl, rfl⟩
  · exact ⟨roundsOf_aside (e := .notRendered) trivial _,
      greetedOf_aside (e := .notRendered) trivial _⟩

theorem reported (v : Value) (f : Failure) : Aside (reported v f) := by
  cases f with
  | driver e => exact (describing v).bind fun _ => .pure _
  | fault f =>
      have hrecord : Aside (modify (·.record .compileFault) : Compiling Unit) :=
        fun j => ⟨roundsOf_aside (e := .compileFault) trivial _,
          greetedOf_aside (e := .compileFault) trivial _⟩
      exact hrecord.bind fun _ => (describing v).bind fun _ => .pure _

theorem lowerShared (v : Value) (scope : Scope) : Aside (lowerShared v scope) :=
  of_log fun _ => rfl

theorem compile (v : Value) (scope : Scope) (token : Int64) :
    Aside (compile v scope token) := by
  refine .bind (.tryCatch (lowerShared v scope) fun f => ?_) fun x => ?_
  · exact (reported v f).bind fun e => .throw _
  · exact (settle _).bind fun _ => .pure _

end Compiling.Aside

namespace Client

/-- What has become of the lines and queries of a client's network. -/
def account (L : Ledger t) (k : Client σ) : Account := k.world.account L

/-- The client with another journal. -/
def journaled (j : Journal) (k : Client σ) : Client σ :=
  { k with world := { k.world with journal := j } }

/-- The client with another session. -/
def resumed (s : Session) (k : Client σ) : Client σ := { k with session := s }

namespace Action

@[simp] theorem run_session (k : Client σ) :
    (session : Action σ Session).run k = (.ok k.session, k) := rfl

@[simp] theorem run_modifySession (f : Session → Session) (k : Client σ) :
    (modifySession f : Action σ Unit).run k = (.ok (), { k with session := f k.session }) := rfl

@[simp] theorem run_settle (o : Except Failure α) (k : Client σ) :
    (settle o : Action σ α).run k = (o, k) := by
  cases o <;> rfl

theorem run_observe {action : Action σ α} {k k' : Client σ} {o : Except Failure α}
    (h : action.run k = (o, k')) : (observe action).run k = (.ok o, k') := by
  have hrun : (observe action).run k = (.ok (action.run k).1, (action.run k).2) := rfl
  rw [hrun, h]

theorem run_onWorld {action : Net.Action σ α} {k : Client σ} {w : World σ}
    {o : Except Failure α} (h : action.run k.world = (o, w)) :
    (onWorld action).run k = (o, { k with world := w }) := by
  have hrun : (onWorld action).run k =
      ((action.run k.world).1, { k with world := (action.run k.world).2 }) := rfl
  rw [hrun, h]

end Action

variable {L : Ledger t}

theorem run_compiling {action : Compiling α} {k : Client σ} {o : Except Failure α} {j : Journal}
    (h : action.run k.world.journal = (o, j)) :
    (Action.compiling action).run k = (o, k.journaled j) := by
  have hrun : (Action.compiling action).run k =
      ((action.run k.world.journal).1, k.journaled (action.run k.world.journal).2) := rfl
  rw [hrun, h]

/-- An aside of the compiler changes neither the account nor the session. -/
theorem compiling_cases {action : Compiling α} (ha : action.Aside) {k k' : Client σ}
    {o : Except Failure α} (h : (Action.compiling action).run k = (o, k')) :
    k'.account L = k.account L ∧ k'.session = k.session := by
  rcases hrun : action.run k.world.journal with ⟨o₁, j⟩
  have hj := ha k.world.journal
  rw [hrun] at hj
  cases (run_compiling hrun).symm.trans h
  exact ⟨by simp only [account, World.account, journaled, hj.1, hj.2], rfl⟩

/-- Rendering a value for an error always comes to something. -/
theorem describing_cases {v : Value} {k k' : Client σ} {o : Except Failure (Option String)}
    (h : (Action.compiling (describing v)).run k = (o, k')) :
    o = .ok v.describe.1 ∧ k'.account L = k.account L ∧ k'.session = k.session := by
  obtain ⟨rfl, -⟩ := Prod.ext_iff.1
    ((run_compiling (run_describing v k.world.journal)).symm.trans h)
  exact ⟨rfl, compiling_cases (Compiling.Aside.describing v) h⟩

theorem record_cases {e : LogEntry} (he : e.IsAside) {k k' : Client σ}
    {o : Except Failure Unit} (h : (Action.record e).run k = (o, k')) :
    o = .ok () ∧ k'.account L = k.account L ∧ k'.session = k.session := by
  have hplain : Plain L (Net.Action.record e : Net.Action σ Unit) := .record he
  rw [Action.record, Action.run_onWorld (Net.Action.run_record e k.world)] at h
  cases h
  exact ⟨rfl, hplain.account (Net.Action.run_record e k.world), rfl⟩

theorem discard_cases {c : Connection} {k k' : Client σ} {o : Except Failure Unit}
    (h : (discard t c).run k = (o, k')) :
    o = .ok () ∧ k'.account L = (k.account L).shut c.line ∧ k'.session = k.session := by
  rcases hclose : (c.close t).run k.world with ⟨oc, w⟩
  obtain ⟨haccount, hoc⟩ := Connection.close_cases (L := L) hclose
  rw [discard, run_bind_of_ok (Action.run_observe (Action.run_onWorld hclose))] at h
  split at h
  · cases h
    exact ⟨rfl, haccount, rfl⟩
  · obtain ⟨ho, hrecord, hsession⟩ := record_cases (L := L) (e := .discardFailed) trivial h
    exact ⟨ho, hrecord.trans haccount, hsession⟩

/-- How giving back a connection can go. -/
inductive Released (c : Connection) (a : Account) (s : Session) : Account → Session → Prop
  | already (hclosed : c.line ∈ a.closed) : Released c a s a s
  | pooled (hopen : c.line ∉ a.closed) (hroom : s.hasRoom = true) : Released c a s a (s.push c)
  | surplus (hopen : c.line ∉ a.closed) (hroom : s.hasRoom = false) :
    Released c a s (a.shut c.line) s

theorem Released.rounds {c : Connection} {a a' : Account} {s s' : Session}
    (h : Released c a s a' s') : a'.rounds = a.rounds := by
  cases h with
  | already hclosed => rfl
  | pooled hopen hroom => rfl
  | surplus hopen hroom => exact Account.rounds_shut c.line a

theorem release_released {c : Connection} {k k' : Client σ} {o : Except Failure Unit}
    (h : (release t c).run k = (o, k')) :
    o = .ok () ∧ Released c (k.account L) k.session (k'.account L) k'.session := by
  rw [release, run_bind_of_ok (Action.run_onWorld (Connection.run_isClosed c k.world))] at h
  split at h
  · rename_i hclosed
    cases h
    exact ⟨rfl, .already (by simpa [account, World.account] using hclosed)⟩
  · rename_i hopen
    replace hopen : c.line ∉ (k.account L).closed := by
      simpa [account, World.account] using hopen
    rw [run_bind_of_ok (Action.run_session _)] at h
    split at h
    · rename_i hroom
      cases h
      exact ⟨rfl, .pooled hopen hroom⟩
    · rename_i hroom
      rcases hrecord : (Action.record (.surplus k.session.address) : Action σ Unit).run k with
        ⟨or, k₁⟩
      obtain ⟨rfl, hk₁, hs₁⟩ := record_cases (L := L) (e := .surplus _) trivial hrecord
      rw [run_bind_of_ok hrecord] at h
      obtain ⟨ho, hk', hs'⟩ := discard_cases (L := L) h
      rw [hk', hs', hk₁, hs₁]
      exact ⟨ho, .surplus hopen (by simpa using hroom)⟩

theorem closeEach_cases {cs : List Connection} {w w' : World σ}
    {o : Except Failure (Option Failure)} (h : (closeEach t cs).run w = (o, w')) :
    w'.account L = (w.account L).shutAll (cs.map Connection.line) ∧
      ∃ r, o = .ok r ∧ ∀ f, r = some f → ∃ e, f = .driver e := by
  induction cs generalizing w w' o with
  | nil =>
      cases h
      exact ⟨rfl, none, rfl, by simp⟩
  | cons c cs ih =>
      rcases hclose : (c.close t).run w with ⟨oc, w₁⟩
      obtain ⟨hw₁, hoc⟩ := Connection.close_cases (L := L) hclose
      rcases hlater : (closeEach t cs).run w₁ with ⟨ol, w₂⟩
      obtain ⟨hw₂, later, rfl, hlaterDriver⟩ := ih hlater
      rw [closeEach, run_bind_of_ok (Net.Action.run_observe hclose), run_bind_of_ok hlater] at h
      cases h
      refine ⟨by rw [hw₂, hw₁]; rfl, _, rfl, fun f hf => ?_⟩
      cases hl : later with
      | some g => exact hlaterDriver f (by simpa [hl] using hf)
      | none =>
          obtain rfl | ⟨e, rfl⟩ := hoc
          · simp [hl, Failure.of?] at hf
          · exact ⟨e, by simpa [hl, Failure.of?] using hf.symm⟩

/-- What closing a session does: every idle line is closed and the pool is empty, unless the
session was closed already. -/
inductive Shut (a : Account) (s : Session) : Account → Session → Prop
  | already (hclosed : s.closed = true) : Shut a s a s
  | done (hopen : s.closed = false) : Shut a s (a.shutAll (s.idle.reverse.map Connection.line))
      { s with closed := true, idle := [] }

theorem close_of_closed {k : Client σ} (hclosed : k.session.closed = true) :
    (close t).run k = (.ok (), k) := by
  rw [close, run_bind_of_ok (Action.run_session k), if_pos hclosed]
  rfl

/-- An open session is marked as closed before its connections are, and what closing them came to
is told in the end. -/
theorem close_of_closeEach {k : Client σ} (hopen : k.session.closed = false)
    {failure : Option Failure} {w : World σ}
    (heach : (closeEach t k.session.idle.reverse).run k.world = (.ok failure, w)) :
    (close t).run k = (failure.elim (.ok ()) .error,
      { k with world := w, session := { k.session with closed := true, idle := [] } }) := by
  have honWorld := Action.run_onWorld
    (k := { k with session := { k.session with closed := true, idle := [] } }) heach
  rw [close, run_bind_of_ok (Action.run_session k), if_neg (by simp [hopen]),
    run_bind_of_ok (Action.run_modifySession _ _), run_bind_of_ok honWorld]
  cases failure <;> rfl

/-- Closing a session fails only by an error of the driver. -/
theorem close_shut {k k' : Client σ} {o : Except Failure Unit}
    (h : (close t).run k = (o, k')) :
    (o = .ok () ∨ ∃ e, o = .error (.driver e)) ∧
      Shut (k.account L) k.session (k'.account L) k'.session := by
  cases hclosed : k.session.closed with
  | true =>
      cases (close_of_closed hclosed).symm.trans h
      exact ⟨.inl rfl, .already hclosed⟩
  | false =>
      rcases heach : (closeEach t k.session.idle.reverse).run k.world with ⟨oe, w⟩
      obtain ⟨hw, failure, rfl, hdriver⟩ := closeEach_cases (L := L) heach
      cases (close_of_closeEach hclosed heach).symm.trans h
      have hshut : Shut (k.account L) k.session (w.account L)
          { k.session with closed := true, idle := [] } := hw ▸ .done hclosed
      cases failure with
      | none => exact ⟨.inl rfl, hshut⟩
      | some f =>
          obtain ⟨e, rfl⟩ := hdriver f rfl
          exact ⟨.inr ⟨e, rfl⟩, hshut⟩

variable [Clock τ]

theorem dial_dialed {k k' : Client σ} {o : Except Failure Connection}
    (h : (dial t).run k = (o, k')) :
    Connection.Dialed k.session.peer (k.account L) o (k'.account L) ∧
      k'.session = k.session := by
  rw [dial, run_bind_of_ok (Action.run_session k)] at h
  rcases hdial : (Connection.dial t k.session.peer
    (k.session.timeout.map Clock.ofSeconds)).run k.world with ⟨od, w⟩
  rw [Action.run_onWorld hdial] at h
  cases h
  exact ⟨Connection.dial_dialed hdial, rfl⟩

/-- A round trip goes as on the line of the connection, and leaves the session as it is. -/
theorem roundTrip_exchanged {c : Connection} {query : Wire.Query} {k k' : Client σ}
    {o : Except Failure Wire.Response} (h : (roundTrip t c query).run k = (o, k')) :
    Connection.Exchanged c.line query (k.account L) o (k'.account L) ∧
      k'.session = k.session := by
  rw [roundTrip, run_bind_of_ok (Action.run_session k)] at h
  rcases hexecute : (c.execute t query
    (k.session.timeout.map Clock.ofSeconds)).run k.world with ⟨oe, w⟩
  rw [Action.run_onWorld hexecute] at h
  cases h
  exact ⟨Connection.execute_exchanged hexecute, rfl⟩

/-- How reaching the server can go. -/
inductive Connected (a : Account) (s : Session) :
    Except Failure Unit → Account → Session → Prop
  | failed (e : Failure) (a' : Account) (hdial : Connection.Dialed s.peer a (.error e) a') :
    Connected a s (.error e) a' s
  | reached (c : Connection) (a₁ a' : Account) (s' : Session)
      (hdial : Connection.Dialed s.peer a (.ok c) a₁) (hrelease : Released c a₁ s a' s') :
    Connected a s (.ok ()) a' s'

theorem connect_connected {k k' : Client σ} {o : Except Failure Unit}
    (h : (connect t).run k = (o, k')) :
    Connected (k.account L) k.session o (k'.account L) k'.session := by
  obtain ⟨c, k₁, hdial, hrelease⟩ | ⟨e, hdial, rfl⟩ := run_bind_cases h
  · obtain ⟨hdialed, hsession⟩ := dial_dialed (L := L) hdial
    obtain ⟨rfl, hreleased⟩ := release_released (L := L) hrelease
    rw [hsession] at hreleased
    exact .reached c _ _ _ hdialed hreleased
  · obtain ⟨hdialed, hsession⟩ := dial_dialed (L := L) hdial
    rw [hsession]
    exact .failed e _ hdialed

/-- Reconnecting is closing, opening and reaching the server. -/
theorem reconnect_connected {k k' : Client σ} {o : Except Failure Unit}
    (h : (reconnect t).run k = (o, k')) :
    ∃ a s, Shut (k.account L) k.session a s ∧
      Connected a { s with closed := false } o (k'.account L) k'.session := by
  rcases hclose : (close t).run k with ⟨oc, k₁⟩
  obtain ⟨-, hshut⟩ := close_shut (L := L) hclose
  refine ⟨_, _, hshut, ?_⟩
  have hreach (k₂ : Client σ) (haccount : k₂.account L = k₁.account L)
      (hsession : k₂.session = k₁.session)
      (h : (do
        Action.modifySession fun s => { s with closed := false }
        connect t).run k₂ = (o, k')) :
      Connected (k₁.account L) { k₁.session with closed := false } o (k'.account L)
        k'.session := by
    rw [run_bind_of_ok (Action.run_modifySession _ _)] at h
    rw [← haccount, ← hsession]
    exact connect_connected h
  rw [reconnect, run_bind_of_ok (Action.run_observe hclose)] at h
  cases oc with
  | ok u => exact hreach k₁ rfl rfl h
  | error e =>
      rcases hrecord : (Action.record .closeErrorIgnored : Action σ Unit).run k₁ with ⟨or, k₂⟩
      obtain ⟨rfl, haccount, hsession⟩ :=
        record_cases (L := L) (e := .closeErrorIgnored) trivial hrecord
      rw [run_bind_of_ok hrecord] at h
      exact hreach k₂ haccount hsession h

/-- How a connection can be had. -/
inductive Acquired (a : Account) (s : Session) :
    Except Failure Connection → Account → Session → Prop
  | closed (hclosed : s.closed = true) (e : DriverError) :
    Acquired a s (.error (.driver e)) a s
  /-- The connection on top of the pool. -/
  | pooled (c : Connection) (cs : List Connection) (hopen : s.closed = false)
      (hidle : s.idle = c :: cs) : Acquired a s (.ok c) a { s with idle := cs }
  | dialed (o : Except Failure Connection) (a' : Account) (hopen : s.closed = false)
      (hidle : s.idle = []) (hdial : Connection.Dialed s.peer a o a') : Acquired a s o a' s

/-- What is done to take a connection. -/
inductive Taking (t : Transport σ τ) (k : Client σ) : Except Failure Connection → Client σ → Prop
  | closed (hclosed : k.session.closed = true) : Taking t k (.error (.ofCause .sessionClosed)) k
  | pooled {c : Connection} {rest : List Connection} (hopen : k.session.closed = false)
      (hidle : k.session.idle = c :: rest) :
    Taking t k (.ok c) (k.resumed { k.session with idle := rest })
  | dialed {o : Except Failure Connection} {k' : Client σ} (hopen : k.session.closed = false)
      (hidle : k.session.idle = [])
      (hdial : (dial t).run (k.journaled (k.world.journal.record (.poolEmpty k.session.address))) =
        (o, k')) : Taking t k o k'

theorem taking_of_acquire {k k' : Client σ} {o : Except Failure Connection}
    (h : (acquire t).run k = (o, k')) : Taking t k o k' := by
  rw [acquire, run_bind_of_ok (Action.run_session k)] at h
  dsimp only at h
  split at h
  · rename_i hclosed
    cases h
    exact .closed hclosed
  · rename_i hopen
    replace hopen : k.session.closed = false := by simpa using hopen
    cases hidle : k.session.idle with
    | cons c rest =>
        have hpop : k.session.pop? = some (c, { k.session with idle := rest }) := by
          simp [Session.pop?, hidle]
        rw [hpop] at h
        cases h
        exact .pooled hopen hidle
    | nil =>
        have hpop : k.session.pop? = none := by simp [Session.pop?, hidle]
        have hrecord : (Action.record (.poolEmpty k.session.address) : Action σ Unit).run k =
            (.ok (), k.journaled (k.world.journal.record (.poolEmpty k.session.address))) := rfl
        rw [hpop] at h
        simp only [run_bind_of_ok hrecord] at h
        exact .dialed hopen hidle h

theorem Taking.acquired {k k' : Client σ} {o : Except Failure Connection} (h : Taking t k o k') :
    Acquired (k.account L) k.session o (k'.account L) k'.session := by
  cases h with
  | closed hclosed => exact .closed hclosed _
  | pooled hopen hidle => exact .pooled _ _ hopen hidle
  | dialed hopen hidle hdial =>
      obtain ⟨hdialed, hsession⟩ := dial_dialed (L := L) hdial
      obtain ⟨-, haccount, -⟩ := record_cases (L := L) (k := k)
        (e := .poolEmpty k.session.address) trivial rfl
      rw [hsession]
      refine .dialed o _ hopen hidle ?_
      rw [← haccount]
      exact hdialed

end Client

end QueryDriver
