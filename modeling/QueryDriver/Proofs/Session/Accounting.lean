import QueryDriver.Proofs.Compilation.Format
import QueryDriver.Proofs.Session.Sparing

/-!
# What a run does to the pool

A run of a built value on an open session does one of a few things to the session, and
`Accounted` lists them with the actions of the network that decide which. A value that does not
compile costs nothing. Any other run counts a token, takes the connection on top of the pool, or
dials when there is none, and ends with that connection back on top, with the cursor, or closed.
What lies below it in the pool stays there, in its order, and the run has nothing to do with it.

A counter that has run out of tokens is listed too: then the run fails before it takes a
connection.
-/

namespace QueryDriver

open Net Wire

variable {σ τ α β γ : Type} {t : Transport σ τ} {L : Ledger t}

theorem Session.typed_scope (s : Session) : s.scope.Typed where
  database := ⟨s.database, rfl⟩
  setting setting := by cases setting <;> exact ⟨_, rfl⟩

namespace Client

/-- What a session does with a connection over which an answer has come. -/
inductive Fate
  | returned
  | held
  | closed

/-- The connection is held as long as there are more rows. It goes back after any other result
and after an error that the server reports, and it is closed after anything else. -/
def Fate.ofResponse (r : Response) : Fate :=
  match ResponseType.ofCode? r.kind with
  | some .partialSequence => .held
  | some .atom | some .sequence => .returned
  | some .clientError | some .compileError | some .runtimeError => .returned
  | none => .closed

/-- The cursor that is made of an answer. -/
def cursorOf (c : Connection) (token : Int64) (v : Value) (timeFormat : TimeFormat)
    (r : Response) : Cursor :=
  match Shape.ofResponse? r with
  | some .partialSequence =>
    Cursor.start true (some c) token (some .partialSequence) r.values false v timeFormat
  | some shape => Cursor.start true none token (some shape) r.values true v timeFormat
  | none => Cursor.failed true (DriverError.ofResponse r v.describe.1)

/-- What becomes of the connection, and what a session puts on its pool. -/
inductive Settled (L : Ledger t) (c : Connection) (k : Client σ) : Fate → Client σ → Prop
  | pooled {k' : Client σ} (hroom : k.session.idle.length < k.session.maxIdle)
      (hopen : c.line ∉ (k'.account L).closed) (haccount : k'.account L = k.account L)
      (hsession : k'.session = k.session.push c) : Settled L c k .returned k'
  | surplus {k' : Client σ} (hroom : k.session.maxIdle ≤ k.session.idle.length)
      (haccount : k'.account L = (k.account L).shut c.line) (hsession : k'.session = k.session) :
    Settled L c k .returned k'
  | held {k' : Client σ} (hopen : c.line ∉ (k'.account L).closed)
      (haccount : k'.account L = k.account L) (hsession : k'.session = k.session) :
    Settled L c k .held k'
  | closed {k' : Client σ} (haccount : k'.account L = (k.account L).shut c.line)
      (hsession : k'.session = k.session) : Settled L c k .closed k'

theorem Settled.of_same {c : Connection} {k k₁ k' : Client σ} {fate : Fate}
    (h : Settled L c k fate k₁) (ha : k'.account L = k₁.account L)
    (hs : k'.session = k₁.session) : Settled L c k fate k' := by
  cases h with
  | pooled hroom hopen haccount hsession =>
      exact .pooled hroom (ha ▸ hopen) (ha.trans haccount) (hs.trans hsession)
  | surplus hroom haccount hsession =>
      exact .surplus hroom (ha.trans haccount) (hs.trans hsession)
  | held hopen haccount hsession => exact .held (ha ▸ hopen) (ha.trans haccount) (hs.trans hsession)
  | closed haccount hsession => exact .closed (ha.trans haccount) (hs.trans hsession)

theorem settled_of_release {c : Connection} {k k' : Client σ} {o : Except Failure Unit}
    (hopen : k.session.closed = false) (hline : c.line ∉ (k.account L).closed)
    (h : (release t c).run k = (o, k')) : o = .ok () ∧ Settled L c k .returned k' := by
  obtain ⟨ho, hreleased⟩ := release_released (L := L) h
  generalize ha : k'.account L = a at hreleased
  generalize hs : k'.session = s at hreleased
  refine ⟨ho, ?_⟩
  cases hreleased with
  | already hclosed => exact absurd hclosed hline
  | pooled _ hroom =>
      have hlt : k.session.idle.length < k.session.maxIdle := by
        simpa [Session.hasRoom, hopen] using hroom
      exact .pooled hlt (ha ▸ hline) ha hs
  | surplus _ hroom =>
      have hle : k.session.maxIdle ≤ k.session.idle.length := by
        simpa [Session.hasRoom, hopen] using hroom
      exact .surplus hle ha hs

theorem fate_of_shape {r : Response} {shape : Shape} (h : Shape.ofResponse? r = some shape) :
    Fate.ofResponse r = if shape = .partialSequence then .held else .returned := by
  unfold Shape.ofResponse? at h
  unfold Fate.ofResponse
  split at h <;> cases h <;> simp_all

/-- An answer without rows is an error that the server reports, or it is unexpected. -/
theorem fate_of_no_shape {r : Response} (h : Shape.ofResponse? r = none) :
    Fate.ofResponse r = if r.failure?.isSome then .returned else .closed := by
  unfold Shape.ofResponse? at h
  unfold Fate.ofResponse Response.failure?
  cases hkind : ResponseType.ofCode? r.kind with
  | none => rfl
  | some type =>
      rw [hkind] at h
      cases type <;> first | rfl | cases h

/-- Every answer becomes a cursor, and settles what becomes of its connection. -/
theorem Received.settled {c : Connection} {v : Value} {token : Int64} {timeFormat : TimeFormat}
    {r : Response} {k k' : Client σ} {cur : Cursor} (hopen : k.session.closed = false)
    (hline : c.line ∉ (k.account L).closed) (h : Received t L c v token timeFormat r k cur k') :
    cur = cursorOf c token v timeFormat r ∧ Settled L c k (Fate.ofResponse r) k' := by
  cases h with
  | kept hshape =>
      rw [cursorOf, hshape, fate_of_shape hshape, if_pos rfl]
      exact ⟨rfl, .held hline rfl rfl⟩
  | @whole shape _ hshape hwhole hrelease =>
      rw [cursorOf, hshape, fate_of_shape hshape, if_neg hwhole]
      refine ⟨?_, (settled_of_release hopen hline hrelease).2⟩
      cases shape with
      | partialSequence => exact absurd rfl hwhole
      | atom | sequence => rfl
  | reported hshape hfailure hrelease haccount hsession =>
      rw [cursorOf, hshape, fate_of_no_shape hshape, if_pos hfailure]
      obtain ⟨-, hsettled⟩ := settled_of_release hopen hline hrelease
      exact ⟨rfl, hsettled.of_same haccount hsession⟩
  | unexpected hshape hfailure hdiscard haccount hsession =>
      obtain ⟨-, hk₁, hs₁⟩ := discard_cases (L := L) hdiscard
      rw [cursorOf, hshape, fate_of_no_shape hshape, hfailure, if_neg Bool.false_ne_true]
      exact ⟨rfl, .closed (haccount.trans hk₁) (hsession.trans hs₁)⟩

/-- The numbers that are no tokens are those that do not fit 64 bits with a sign. -/
theorem tokenOf_eq_error {n : Nat} {f : Failure} (h : tokenOf n = .error f) :
    9223372036854775808 ≤ n ∧ f = .fault (.tokenOutOfRange n) := by
  unfold tokenOf at h
  split at h
  · cases h
  · rename_i hn
    cases h
    exact ⟨Nat.le_of_not_lt hn, rfl⟩

variable [Clock τ]

/-- How a connection is taken, and what is left of the pool. A connection is dialed only when
the pool is empty. -/
inductive Taken (t : Transport σ τ) (k : Client σ) : Connection → List Connection → Client σ → Prop
  | pooled {c : Connection} {rest : List Connection} (hidle : k.session.idle = c :: rest) :
    Taken t k c rest (k.resumed { k.session with idle := rest })
  | dialed {c : Connection} {k' : Client σ} (hidle : k.session.idle = [])
      (hdial : (dial t).run (k.journaled (k.world.journal.record (.poolEmpty k.session.address))) =
        (.ok c, k')) (hsession : k'.session = k.session) : Taken t k c [] k'

/-- What a run of a value comes to. -/
inductive Accounted (t : Transport σ τ) (L : Ledger t) (v : Value) (k : Client σ) :
    Except Failure Cursor → Client σ → Prop
  | uncompiled {e : DriverError} {j : Journal}
      (hcompile : (compile v k.session.scope 0).run k.world.journal = (.error (.driver e), j)) :
    Accounted t L v k (.ok (Cursor.failed true e)) (k.journaled j)
  /-- There is no token left. -/
  | uncounted {query : Query} {j : Journal}
      (hcompile : (compile v k.session.scope 0).run k.world.journal = (.ok query, j))
      (hlast : 9223372036854775808 ≤ k.session.token + 1) :
    Accounted t L v k (.error (.fault (.tokenOutOfRange (k.session.token + 1))))
      ((k.journaled j).resumed k.session.counted)
  /-- The pool is empty, and no connection can be dialed. -/
  | undialed {query : Query} {j : Journal} {token : Int64} {e : Failure} {k' : Client σ}
      (hcompile : (compile v k.session.scope 0).run k.world.journal = (.ok query, j))
      (htoken : tokenOf (k.session.token + 1) = .ok token) (hidle : k.session.idle = [])
      (hdial : (dial t).run (((k.journaled j).resumed k.session.counted).journaled
        (j.record (.poolEmpty k.session.address))) = (.error e, k'))
      (hsession : k'.session = k.session.counted) : Accounted t L v k (.error e) k'
  | failed {query : Query} {j : Journal} {token : Int64} {c : Connection}
      {rest : List Connection} {e : Failure} {k₁ k₂ k' : Client σ}
      (hcompile : (compile v k.session.scope 0).run k.world.journal = (.ok query, j))
      (htoken : tokenOf (k.session.token + 1) = .ok token)
      (htaken : Taken t ((k.journaled j).resumed k.session.counted) c rest k₁)
      (hround : (roundTrip t c { query with token := some token }).run k₁ = (.error e, k₂))
      (hdiscard : (discard t c).run k₂ = (.ok (), k'))
      (haccount : k'.account L = (k₂.account L).shut c.line)
      (hsession : k'.session = { k.session.counted with idle := rest }) :
    Accounted t L v k (.error e) k'
  | answered {query : Query} {j : Journal} {token : Int64} {timeFormat : Value} {c : Connection}
      {rest : List Connection} {r : Response} {k₁ k₂ k' : Client σ}
      (hcompile : (compile v k.session.scope 0).run k.world.journal = (.ok query, j))
      (htoken : tokenOf (k.session.token + 1) = .ok token)
      (hformat : timeFormatOf query = .ok timeFormat)
      (htaken : Taken t ((k.journaled j).resumed k.session.counted) c rest k₁)
      (hround : (roundTrip t c { query with token := some token }).run k₁ = (.ok r, k₂))
      (hsession : k₂.session = { k.session.counted with idle := rest })
      (hreceived : (received t c v token (TimeFormat.ofValue timeFormat) r).run k₂ =
        (.ok (cursorOf c token v (TimeFormat.ofValue timeFormat) r), k'))
      (hsettled : Settled L c k₂ (Fate.ofResponse r) k') :
    Accounted t L v k (.ok (cursorOf c token v (TimeFormat.ofValue timeFormat) r)) k'

theorem session_dial {k k' : Client σ} {o : Except Failure Connection}
    (h : (dial t).run k = (o, k')) : k'.session = k.session := by
  rw [dial, run_bind_of_ok (Action.run_session k)] at h
  exact (congrArg (fun x => x.2.session) h).symm

/-- An open session takes the connection on top of its pool, or it dials. -/
theorem Taking.taken {k k' : Client σ} {c : Connection} (h : Taking t k (.ok c) k') :
    ∃ rest, Taken t k c rest k' ∧ k'.session = { k.session with idle := rest } := by
  cases h with
  | pooled hopen hidle => exact ⟨_, .pooled hidle, rfl⟩
  | dialed hopen hidle hdial =>
      have hsession := session_dial hdial
      refine ⟨[], .dialed hidle hdial hsession, hsession.trans ?_⟩
      rw [← hidle]
      rfl

theorem Sending.accounted {v : Value} {query : Query} {j : Journal} {format : Value}
    {k k' : Client σ} {o : Except Failure Cursor} (hopen : k.session.closed = false)
    (hcompile : (compile v k.session.scope 0).run k.world.journal = (.ok query, j))
    (hformat : timeFormatOf query = .ok format)
    (h : Sending t v query (k.journaled j) o k') : Accounted t L v k o k' := by
  cases h with
  | uncounted htoken =>
      obtain ⟨hlast, rfl⟩ := tokenOf_eq_error htoken
      exact .uncounted hcompile hlast
  | unformatted htoken hfailed => cases hformat.symm.trans hfailed
  | unconnected htoken htaking =>
      cases htaking with
      | closed hclosed => cases hopen.symm.trans hclosed
      | dialed _ hidle hdial =>
          have hsession := session_dial hdial
          exact .undialed hcompile htoken hidle hdial hsession
  | unanswered htoken htaking hround hdiscard =>
      obtain ⟨rest, htaken, hsession⟩ := htaking.taken
      obtain ⟨-, hsame⟩ := roundTrip_exchanged (L := L) hround
      obtain ⟨-, haccount, hs⟩ := discard_cases (L := L) hdiscard
      exact .failed hcompile htoken htaken hround hdiscard haccount
        ((hs.trans hsame).trans hsession)
  | answered htoken hformat' htaking hround hrun =>
      cases hformat.symm.trans hformat'
      obtain ⟨rest, htaken, hsession⟩ := htaking.taken
      obtain ⟨hexchanged, hsame⟩ := roundTrip_exchanged (L := L) hround
      have hsession₂ := hsame.trans hsession
      obtain ⟨cur, rfl, hreceived⟩ := received_of_run (L := L) hrun
      obtain ⟨rfl, hsettled⟩ :=
        hreceived.settled (by rw [hsession₂]; exact hopen) hexchanged.open_of_ok
      exact .answered hcompile htoken hformat htaken hround hsession₂ hrun hsettled

theorem run_accounted {v : Value} (hv : v.Built) {k k' : Client σ} {o : Except Failure Cursor}
    (hopen : k.session.closed = false) (h : (run t v).run k = (o, k')) :
    Accounted t L v k o k' := by
  cases launching_of_run L h with
  | closed hclosed => cases hopen.symm.trans hclosed
  | uncompiled hcompile => exact .uncompiled hcompile
  | faulted hcompile =>
      obtain ⟨e, he⟩ := compile_error_driver hv k.session.typed_scope hcompile
      cases he
  | sent hcompile hsending =>
      obtain ⟨formats, -, -, hasks⟩ := asksFor_of_compile hv k.session.typed_scope hcompile
      exact hsending.accounted hopen hcompile hasks.timeFormat

/-! ### What a run has nothing to do with -/

/-- Only a connection was used: nothing else is read off the network than before, no line was
opened, no other line was closed, and every query was sent over the connection. -/
structure Uses (t : Transport σ τ) (L : Ledger t) (c : Connection) (k k' : Client σ) : Prop where
  net {γ : Type} (f : σ → γ) : Blind t c.line f → f k'.world.net = f k.world.net
  opened : (k'.account L).opened = (k.account L).opened
  closed (n : Nat) : n ≠ c.line → (n ∈ (k'.account L).closed ↔ n ∈ (k.account L).closed)
  rounds : ∃ new, (k'.account L).rounds = new ++ (k.account L).rounds ∧ ∀ x ∈ new, x.line = c.line

namespace Uses

variable {c : Connection} {k k₁ k' : Client σ}

omit [Clock τ]

/-- Nothing was done on the network. -/
theorem of_same (hnet : k'.world.net = k.world.net) (haccount : k'.account L = k.account L) :
    Uses t L c k k' where
  net f _ := by rw [hnet]
  opened := by rw [haccount]
  closed n _ := by rw [haccount]
  rounds := ⟨[], by rw [haccount, List.nil_append], List.forall_mem_nil _⟩

theorem trans (h : Uses t L c k k₁) (h' : Uses t L c k₁ k') : Uses t L c k k' where
  net f hf := (h'.net f hf).trans (h.net f hf)
  opened := h'.opened.trans h.opened
  closed n hn := (h'.closed n hn).trans (h.closed n hn)
  rounds := by
    obtain ⟨new, hnew, honly⟩ := h.rounds
    obtain ⟨later, hlater, honly'⟩ := h'.rounds
    refine ⟨later ++ new, by rw [hlater, hnew, List.append_assoc], fun x hx => ?_⟩
    exact (List.mem_append.1 hx).elim (honly' x) (honly x)

/-- What was spared, and what has become of the account. -/
theorem of_spares
    (hnet : ∀ {γ : Type} (f : σ → γ), Blind t c.line f → f k'.world.net = f k.world.net)
    (hclosed : ∀ n, n ≠ c.line → (n ∈ (k'.account L).closed ↔ n ∈ (k.account L).closed))
    (hrounds : ∃ new, (k'.account L).rounds = new ++ (k.account L).rounds ∧
      ∀ x ∈ new, x.line = c.line) : Uses t L c k k' :=
  ⟨hnet, hnet L.opened ⟨L.opened_arm _, L.opened_send _, L.opened_receive _, L.opened_close _⟩,
    hclosed, hrounds⟩

theorem of_shut
    (hnet : ∀ {γ : Type} (f : σ → γ), Blind t c.line f → f k'.world.net = f k.world.net)
    (haccount : k'.account L = (k.account L).shut c.line) : Uses t L c k k' := by
  refine of_spares hnet (fun n hn => ?_) ⟨[], ?_, List.forall_mem_nil _⟩
  · rw [haccount, Account.mem_closed_shut]
    exact ⟨fun h => h.resolve_left hn, .inr⟩
  · rw [haccount, Account.rounds_shut, List.nil_append]

theorem of_roundTrip [Clock τ] {query : Query} {o : Except Failure Response}
    (h : (roundTrip t c query).run k = (o, k')) : Uses t L c k k' := by
  obtain ⟨hexchanged, -⟩ := roundTrip_exchanged (L := L) h
  refine of_spares (fun f hf => Spares.roundTrip hf query h) (fun n hn => ?_) ?_
  · generalize k'.account L = a at hexchanged
    cases hexchanged with
    | failed e hopen => simp [Account.begin, hn]
    | _ => rfl
  · obtain ⟨new, hnew, hall⟩ := hexchanged.exists_rounds
    exact ⟨new, hnew, fun x hx => (hall x hx).1⟩

end Uses

omit [Clock τ] in
theorem Settled.uses {c : Connection} {k k' : Client σ} {fate : Fate}
    (h : Settled L c k fate k')
    (hnet : ∀ {γ : Type} (f : σ → γ), Blind t c.line f → f k'.world.net = f k.world.net) :
    Uses t L c k k' := by
  have hkept (haccount : k'.account L = k.account L) : Uses t L c k k' :=
    .of_spares hnet (fun n _ => by rw [haccount])
      ⟨[], by rw [haccount, List.nil_append], List.forall_mem_nil _⟩
  cases h with
  | pooled hroom hopen haccount hsession => exact hkept haccount
  | held hopen haccount hsession => exact hkept haccount
  | surplus hroom haccount hsession => exact .of_shut hnet haccount
  | closed haccount hsession => exact .of_shut hnet haccount

/-- With a pool that is not empty, a run uses the connection on top of it only. -/
theorem Accounted.uses {v : Value} {k k' : Client σ} {o : Except Failure Cursor}
    (h : Accounted t L v k o k') {c : Connection} {rest : List Connection}
    (hidle : k.session.idle = c :: rest) : Uses t L c k k' := by
  have hcompiled {oc : Except Failure Query} {j : Journal}
      (hcompile : (compile v k.session.scope 0).run k.world.journal = (oc, j)) :
      (k.journaled j).account L = k.account L :=
    (compiling_cases (Compiling.Aside.compile v _ _) (run_compiling hcompile)).1
  have htop {query : Query} {j : Journal} {c' : Connection} {rest' : List Connection}
      {k₁ : Client σ}
      (hcompile : (compile v k.session.scope 0).run k.world.journal = (.ok query, j))
      (htaken : Taken t ((k.journaled j).resumed k.session.counted) c' rest' k₁) :
      c' = c ∧ Uses t L c k k₁ := by
    cases htaken with
    | pooled hpool =>
        obtain ⟨rfl, -⟩ := List.cons.inj (hidle.symm.trans hpool)
        exact ⟨rfl, .of_same rfl (hcompiled hcompile)⟩
    | dialed hempty _ _ => cases hidle.symm.trans hempty
  cases h with
  | uncompiled hcompile => exact .of_same rfl (hcompiled hcompile)
  | uncounted hcompile hlast => exact .of_same rfl (hcompiled hcompile)
  | undialed hcompile htoken hempty hdial hsession => cases hidle.symm.trans hempty
  | failed hcompile htoken htaken hround hdiscard haccount hsession =>
      obtain ⟨rfl, huses⟩ := htop hcompile htaken
      refine huses.trans ((Uses.of_roundTrip hround).trans ?_)
      exact .of_shut (fun f hf => Spares.discard hf hdiscard) haccount
  | answered hcompile htoken hformat htaken hround hsession hreceived hsettled =>
      obtain ⟨rfl, huses⟩ := htop hcompile htaken
      refine huses.trans ((Uses.of_roundTrip hround).trans ?_)
      exact hsettled.uses fun f hf => Spares.received hf _ _ _ _ hreceived

end Client

end QueryDriver
