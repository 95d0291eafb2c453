import QueryDriver.Proofs.Cursor.Serving
import QueryDriver.Proofs.Session.Running

/-!
# Runs on a server that keeps to its plan

A run whose query was sent opens a cursor on the first batch of a token that no query had
before. When there are more batches the cursor keeps the connection; when the first batch is
the only one the connection is given back at once. Other runs begin no round: they fail
before a query is sent, or hand out a cursor that reports what the compiler has found.
-/

namespace QueryDriver

open Net Wire

namespace Client

variable {plan : Plan} {a a' : Account} {s s' : Session}

theorem rounds_of_dialed {peer : Endpoint} {o : Except Failure Connection}
    (h : Connection.Dialed peer a o a') : a'.rounds = a.rounds := by
  cases h with
  | unreachable e => rfl
  | greeted n hfresh => rfl
  | rejected n e hfresh => exact Account.rounds_shut n _
  | refused n f hfresh hf => rfl

theorem Connected.rounds {o : Except Failure Unit} (h : Connected a s o a' s') :
    a'.rounds = a.rounds := by
  cases h with
  | failed e a' hdial => exact rounds_of_dialed hdial
  | reached c a₁ a' s' hdial hrelease => exact hrelease.rounds.trans (rounds_of_dialed hdial)

theorem Shut.rounds (h : Shut a s a' s') : a'.rounds = a.rounds := by
  cases h with
  | already hclosed => rfl
  | done hopen => exact Account.rounds_shutAll _ a

theorem Acquired.rounds {o : Except Failure Connection} (h : Acquired a s o a' s') :
    a'.rounds = a.rounds := by
  cases h with
  | closed hclosed e => rfl
  | pooled c cs hopen hidle => rfl
  | dialed o a' hopen hidle hdial => exact rounds_of_dialed hdial

theorem Answered.rounds {conn : Connection} {token : Int64} {r : Response} {c : Cursor}
    (h : Answered conn token r a s c a' s') : a'.rounds = a.rounds := by
  cases h with
  | kept v timeFormat hshape => rfl
  | whole v timeFormat shape a' s' hshape hwhole hrelease => exact hrelease.rounds
  | reported e a' s' hshape hrelease => exact hrelease.rounds
  | unexpected e hshape => exact Account.rounds_shut _ a

theorem Ran.suffix {o : Except Failure Cursor} (h : Ran a s o a' s') : a.rounds <:+ a'.rounds := by
  cases h with
  | uncompiled e => exact List.suffix_rfl
  | uncounted e => exact List.suffix_rfl
  | unsent e => exact List.suffix_rfl
  | unconnected e a' s' hacquired => exact hacquired.rounds ▸ List.suffix_rfl
  | unanswered c query e a₁ a' s' hacquired hstart htoken hexchanged =>
      rw [Account.rounds_shut, ← hacquired.rounds]
      exact hexchanged.suffix
  | answered conn query r c a₁ a₂ a' s₁ s' hacquired hstart htoken hexchanged hanswered =>
      rw [hanswered.rounds, ← hacquired.rounds]
      exact hexchanged.suffix

/-- How a run opens a cursor. -/
inductive Opened (plan : Plan) (a : Account) (s : Session) :
    Cursor → Account → Session → Prop
  /-- There are more batches, and the cursor keeps the connection. -/
  | kept (conn : Connection) (x : Round) (a₁ : Account) (s₁ : Session) (rows : List Datum)
      (later : List (List Datum)) (v : Value) (timeFormat : TimeFormat)
      (hacquired : Acquired a s.counted (.ok conn) a₁ s₁) (hstart : x.IsOf .start)
      (htoken : x.token.toInt = s.token + 1) (hplan : plan x.token = rows :: later)
      (hlater : later ≠ []) :
    Opened plan a s (Cursor.start true (some conn) x.token (some .partialSequence) rows false v
      timeFormat) (a₁.begin x) s₁
  /-- The first batch is the only one, and the connection is given back. -/
  | whole (conn : Connection) (x : Round) (a₁ a' : Account) (s₁ s' : Session)
      (rows : List Datum) (v : Value) (timeFormat : TimeFormat)
      (hacquired : Acquired a s.counted (.ok conn) a₁ s₁) (hline : x.line = conn.line)
      (hstart : x.IsOf .start) (htoken : x.token.toInt = s.token + 1)
      (hplan : plan x.token = [rows]) (hfull : x.AnsweredFully)
      (hrelease : Released conn (a₁.begin x) s₁ a' s') :
    Opened plan a s (Cursor.start true none x.token (some .sequence) rows true v timeFormat) a' s'

/-- A token that is the next one was not used. -/
theorem begun_of_next {smooth : Prop} {latest : Nat} {rounds : List Round} {token : Int64}
    (h : Talk smooth latest rounds) (htoken : token.toInt = latest + 1) :
    begun token rounds = 0 := by
  rw [begun, List.countP_eq_zero]
  intro x hx hxt
  have hle := h.bounded x hx
  rw [of_decide_eq_true hxt] at hle
  omega

/-- A run that opens a cursor begins one round, with a new token. -/
theorem Opened.begun {c : Cursor} (h : Opened plan a s c a' s') :
    ∃ x, a'.rounds = x :: a.rounds ∧ x.IsOf .start ∧ x.token = c.token ∧
      c.token.toInt = s.token + 1 := by
  cases h with
  | kept conn x a₁ s₁ rows later v timeFormat hacquired hstart htoken hplan hlater =>
      exact ⟨x, congrArg (x :: ·) hacquired.rounds, hstart, rfl, htoken⟩
  | whole conn x a₁ a' s₁ s' rows v timeFormat hacquired hline hstart htoken hplan hfull hrelease =>
      refine ⟨x, ?_, hstart, rfl, htoken⟩
      rw [hrelease.rounds]
      exact congrArg (x :: ·) hacquired.rounds

/-- A cursor that was opened is fed, and none of its rows was read. -/
theorem Opened.fed {smooth : Prop} {c : Cursor} (h : Opened plan a s c a' s')
    (htalk : Talk smooth s.token a.rounds) :
    c.Fed plan a'.rounds ∧ c.unread plan a'.rounds = (plan c.token).flatten ∧ c.current = none := by
  obtain ⟨x, hrounds, -, hx, htoken⟩ := h.begun
  have hbegun : Net.begun c.token a'.rounds = 1 := by
    rw [hrounds, ← hx, begun_cons_self, hx, begun_of_next htalk htoken]
  have hpending : c.pending plan a'.rounds = (plan c.token).tail := by
    rw [Cursor.pending, hbegun, List.drop_one]
  rw [Cursor.unread, hpending]
  cases h with
  | kept conn x a₁ s₁ rows later v timeFormat hacquired hstart htoken hplan hlater =>
      have hplan' : plan (Cursor.start true (some conn) x.token (some .partialSequence) rows false v
          timeFormat).token = rows :: later := hplan
      rw [hplan'] at hpending ⊢
      refine ⟨⟨.inr rfl, rfl, hbegun ▸ Nat.one_pos, ?_, ?_, ?_⟩, rfl, rfl⟩
      · rw [hbegun, hplan']
        simp
      · rw [hpending]
        simpa [Cursor.start] using hlater
      · simp [Cursor.start]
  | whole conn x a₁ a' s₁ s' rows v timeFormat hacquired hline hstart htoken hplan hfull hrelease =>
      have hplan' : plan (Cursor.start true none x.token (some .sequence) rows true v
          timeFormat).token = [rows] := hplan
      rw [hplan'] at hpending ⊢
      refine ⟨⟨.inl rfl, rfl, hbegun ▸ Nat.one_pos, ?_, ?_, ?_⟩, rfl, rfl⟩
      · rw [hbegun, hplan']
        simp
      · rw [hpending]
        simp [Cursor.start]
      · simp [Cursor.start]

/-- A cursor that is opened without its connection has all of its rows, and the connection was
given back. -/
theorem Opened.handedBack_of_none {c : Cursor} (h : Opened plan a s c a' s')
    (hnone : c.connection = none) :
    ∃ conn x a₁ s₁, Acquired a s.counted (.ok conn) a₁ s₁ ∧ x.line = conn.line ∧ x.IsOf .start ∧
      x.token = c.token ∧ x.AnsweredFully ∧ Released conn (a₁.begin x) s₁ a' s' := by
  cases h with
  | kept conn x a₁ s₁ rows later v timeFormat hacquired hstart htoken hplan hlater => cases hnone
  | whole conn x a₁ a' s₁ s' rows v timeFormat hacquired hline hstart htoken hplan hfull hrelease =>
      exact ⟨conn, x, a₁, s₁, hacquired, hline, hstart, rfl, hfull, hrelease⟩

/-- What a run can do that begins no round. -/
inductive Unopened (a : Account) (s : Session) :
    Except Failure Cursor → Account → Session → Prop
  | reported (e : DriverError) : Unopened a s (.ok (Cursor.failed true e)) a s
  | failed (e : Failure) (a' : Account) (s' : Session) (hrounds : a'.rounds = a.rounds) :
    Unopened a s (.error e) a' s'

/-- On a server that keeps to its plan a run opens a cursor, or begins no round. -/
theorem Ran.served {smooth : Prop} {o : Except Failure Cursor} (h : Ran a s o a' s')
    (htalk : Talk smooth s.token a.rounds)
    (hopen : ∀ conn a₁ s₁, Acquired a s.counted (.ok conn) a₁ s₁ → conn.line ∉ a₁.closed)
    (hplan : ∀ token, plan token ≠ []) (hserved : Served plan a'.rounds) :
    (∃ c, o = .ok c ∧ Opened plan a s c a' s') ∨ Unopened a s o a' s' := by
  have hkind {query : Query} (hstart : query.tag = some QueryType.start.code) :
      query.tag ≠ some QueryType.stop.code := by
    rw [hstart]
    decide
  have hfirst {query : Query} {a₁ : Account} (hrounds : a₁.rounds = a.rounds)
      (htoken : query.tokenValue.toInt = s.token + 1) :
      ∃ rows later, (plan query.tokenValue).drop (begun query.tokenValue a₁.rounds) =
        rows :: later := by
    rw [hrounds, begun_of_next htalk htoken]
    exact List.exists_cons_of_ne_nil (hplan _)
  cases h with
  | uncompiled e => exact .inr (.reported e)
  | uncounted e => exact .inr (.failed e _ _ rfl)
  | unsent e => exact .inr (.failed e _ _ rfl)
  | unconnected e a' s' hacquired => exact .inr (.failed e _ _ hacquired.rounds)
  | unanswered c query e a₁ a' s' hacquired hstart htoken hexchanged =>
      obtain ⟨rows, later, hrows⟩ := hfirst hacquired.rounds htoken
      rw [Account.rounds_shut] at hserved
      obtain ⟨r, ho, -⟩ := hexchanged.served (hkind hstart) (hopen _ _ _ hacquired) hserved hrows
      cases ho
  | answered conn query r c a₁ a₂ a' s₁ s' hacquired hstart htoken hexchanged hanswered =>
      obtain ⟨rows, later, hrows⟩ := hfirst hacquired.rounds htoken
      rw [hanswered.rounds] at hserved
      obtain ⟨r', ho, rfl, rfl, hshape⟩ :=
        hexchanged.served (hkind hstart) (hopen _ _ _ hacquired) hserved hrows
      cases ho
      rw [hacquired.rounds, begun_of_next htalk htoken, List.drop_zero] at hrows
      refine .inl ⟨c, rfl, ?_⟩
      cases hanswered with
      | kept v timeFormat hpartial =>
          have hlater : later ≠ [] := by
            rintro rfl
            cases hpartial.symm.trans hshape
          exact .kept conn ⟨conn.line, query, some r⟩ a₁ _ r.values later v timeFormat hacquired
            hstart htoken hrows hlater
      | whole v timeFormat shape a' s' hwhole hne hrelease =>
          have hshape' := hwhole.symm.trans hshape
          cases later with
          | nil =>
              cases hshape'
              exact .whole conn ⟨conn.line, query, some r⟩ a₁ _ s₁ _ r.values v timeFormat
                hacquired rfl hstart htoken hrows ⟨r, rfl, hwhole⟩ hrelease
          | cons rows later =>
              cases hshape'
              exact absurd rfl hne
      | reported e a' s' hnone hrelease => cases hnone.symm.trans hshape
      | unexpected e hnone => cases hnone.symm.trans hshape

end Client

end QueryDriver
