import QueryDriver.Proofs.Net.Custody
import QueryDriver.Proofs.Net.Dialogue
import QueryDriver.Proofs.Session.Running

/-!
# Sound systems

A system is sound when its lines are in custody, its rounds are made of dialogues, and
every cursor is backed by rounds: a cursor that holds a connection holds the right to
continue its dialogue there, and every row that it shows or keeps came in the answer to a
query with its token.

`Sound smooth latest hand a s cursors` says so of an account, a session and the cursors that
it has handed out, while an operation holds the lines in `hand` and no token greater than
`latest` was sent. Between operations the hand is empty. This module shows what becomes of
sound systems in each of the ways in which the actions of a client can go.
-/

namespace QueryDriver

open Net Wire

/-- The lines that a cursor holds, one at most. -/
def Cursor.lines (c : Cursor) : List Nat := c.connection.toList.map Connection.line

/-- The lines of the pool. -/
def Session.lines (s : Session) : List Nat := s.idle.map Connection.line

/-- The lines that cursors hold. -/
def heldBy (cursors : List Cursor) : List Nat := cursors.flatMap Cursor.lines

/-- A cursor that holds a connection is open and may continue its dialogue there, and its
rows have come in answers to queries with its token. -/
structure Cursor.Backed (smooth : Prop) (latest : Nat) (rounds : List Round) (c : Cursor) :
    Prop where
  attached : c.attached = true
  incomplete : ∀ conn, c.connection = some conn → c.complete = false
  open_ : ∀ conn, c.connection = some conn → c.closed = false
  holding : ∀ conn, c.connection = some conn → Holding smooth latest rounds conn.line c.token
  rows : ∀ d, d ∈ c.buffer ∨ c.current = some d →
    ∃ x ∈ rounds, ∃ r, x.answer = some r ∧ x.token = c.token ∧ d ∈ r.values

/-- What every history keeps, while an operation holds the lines in `hand`. -/
structure Sound (smooth : Prop) (latest : Nat) (hand : List Nat) (a : Account) (s : Session)
    (cursors : List Cursor) : Prop where
  custody : Custody smooth a (hand ++ (s.lines ++ heldBy cursors))
  talk : Talk smooth latest a.rounds
  backed : ∀ c ∈ cursors, c.Backed smooth latest a.rounds
  latest_le : latest ≤ s.token
  bounded : s.idle.length ≤ s.maxIdle
  empty : s.closed = true → s.idle = []

namespace Cursor.Backed

variable {smooth smooth' : Prop} {latest latest' : Nat} {rounds : List Round} {c c' : Cursor}

theorem mono (h : c.Backed smooth latest rounds) (hs : smooth' → smooth)
    (hl : latest ≤ latest') : c.Backed smooth' latest' rounds :=
  { h with holding := fun conn hc => (h.holding conn hc).mono hs hl }

theorem rows_cons (h : c.Backed smooth latest rounds) (x : Round) :
    ∀ d, d ∈ c.buffer ∨ c.current = some d →
      ∃ y ∈ x :: rounds, ∃ r, y.answer = some r ∧ y.token = c.token ∧ d ∈ r.values := by
  intro d hd
  obtain ⟨y, hy, hrow⟩ := h.rows d hd
  exact ⟨y, List.mem_cons_of_mem x hy, hrow⟩

/-- A round on a line that the cursor does not hold, with another token than the one that
it holds. -/
theorem other (h : c.Backed smooth latest rounds) {x : Round} (hline : x.line ∉ c.lines)
    (htoken : ∀ conn, c.connection = some conn → x.token ≠ c.token) :
    c.Backed smooth latest (x :: rounds) where
  attached := h.attached
  incomplete := h.incomplete
  open_ := h.open_
  holding conn hc := by
    have hne : x.line ≠ conn.line := by simpa [Cursor.lines, hc] using hline
    exact (h.holding conn hc).other hne (htoken conn hc)
  rows := h.rows_cons x

theorem of_detached (hattached : c'.attached = true) (hconn : c'.connection = none)
    (hrows : ∀ d, d ∈ c'.buffer ∨ c'.current = some d →
      ∃ x ∈ rounds, ∃ r, x.answer = some r ∧ x.token = c'.token ∧ d ∈ r.values) :
    c'.Backed smooth latest rounds where
  attached := hattached
  incomplete conn hc := by
    rw [hconn] at hc
    cases hc
  open_ conn hc := by
    rw [hconn] at hc
    cases hc
  holding conn hc := by
    rw [hconn] at hc
    cases hc
  rows := hrows

/-- A cursor may drop rows, look at another one of them, and change what is only told. -/
theorem of_rows (h : c.Backed smooth latest rounds) (hattached : c'.attached = c.attached)
    (hconn : c'.connection = c.connection) (htoken : c'.token = c.token)
    (hcomplete : c'.complete = c.complete) (hclosed : c'.closed = c.closed)
    (hrows : ∀ d, d ∈ c'.buffer ∨ c'.current = some d → d ∈ c.buffer ∨ c.current = some d) :
    c'.Backed smooth latest rounds where
  attached := hattached.trans h.attached
  incomplete conn hc := hcomplete.trans (h.incomplete conn (hconn ▸ hc))
  open_ conn hc := hclosed.trans (h.open_ conn (hconn ▸ hc))
  holding conn hc := htoken ▸ h.holding conn (hconn ▸ hc)
  rows d hd := htoken ▸ h.rows d (hrows d hd)

theorem failed (smooth : Prop) (latest : Nat) (rounds : List Round)
    (e : DriverError) : (Cursor.failed true e).Backed smooth latest rounds where
  attached := rfl
  incomplete conn hc := by cases hc
  open_ conn hc := by cases hc
  holding conn hc := by cases hc
  rows d hd := by
    obtain hd | hd := hd <;> cases hd

theorem start
    {connection : Option Connection} {token : Int64} {shape : Option Shape} {complete : Bool}
    {v : Value} {timeFormat : TimeFormat} {x : Round} {r : Response} (hx : x ∈ rounds)
    (hanswer : x.answer = some r) (htoken : x.token = token)
    (hcomplete : ∀ conn, connection = some conn → complete = false)
    (hholding : ∀ conn, connection = some conn → Holding smooth latest rounds conn.line token) :
    (Cursor.start true connection token shape r.values complete v timeFormat).Backed smooth
      latest rounds where
  attached := rfl
  incomplete := hcomplete
  open_ conn hc := by
    change connection = some conn at hc
    simp [Cursor.start, hc]
  holding := hholding
  rows d hd := by
    obtain hd | hd := hd
    · exact ⟨x, hx, r, hanswer, htoken, hd⟩
    · cases hd

end Cursor.Backed

namespace Sound

variable {smooth smooth' : Prop} {latest latest' n : Nat} {hand hand' : List Nat}
  {a a' : Account} {s s' : Session} {cursors : List Cursor}

theorem mono (h : Sound smooth latest hand a s cursors) (hs : smooth' → smooth) :
    Sound smooth' latest hand a s cursors where
  custody := h.custody.mono hs
  talk := h.talk.mono hs le_rfl
  backed c hc := (h.backed c hc).mono hs le_rfl
  latest_le := h.latest_le
  bounded := h.bounded
  empty := h.empty

/-- Between operations the latest token is the one that the session counts to. -/
theorem counted (h : Sound smooth latest hand a s cursors) :
    Sound smooth s.token hand a s cursors where
  custody := h.custody
  talk := h.talk.mono id h.latest_le
  backed c hc := (h.backed c hc).mono id h.latest_le
  latest_le := le_rfl
  bounded := h.bounded
  empty := h.empty

/-- What an action has to show when it begins no round. -/
theorem of_custody (h : Sound smooth latest hand a s cursors) (hs : smooth' → smooth)
    (hcustody : Custody smooth' a' (hand' ++ (s'.lines ++ heldBy cursors)))
    (hrounds : a'.rounds = a.rounds) (htoken : s.token ≤ s'.token)
    (hbounded : s'.idle.length ≤ s'.maxIdle) (hempty : s'.closed = true → s'.idle = []) :
    Sound smooth' latest hand' a' s' cursors where
  custody := hcustody
  talk := by
    rw [hrounds]
    exact h.talk.mono hs le_rfl
  backed c hc := by
    rw [hrounds]
    exact (h.backed c hc).mono hs le_rfl
  latest_le := h.latest_le.trans htoken
  bounded := hbounded
  empty := hempty

/-- A session may change what its pool has nothing to do with, and count tokens. -/
theorem of_session (h : Sound smooth latest hand a s cursors) (hidle : s'.idle = s.idle)
    (htoken : s.token ≤ s'.token) (hmaxIdle : s'.maxIdle = s.maxIdle)
    (hclosed : s'.closed = true → s.closed = true ∨ s.idle = []) :
    Sound smooth latest hand a s' cursors := by
  refine h.of_custody id ?_ rfl htoken ?_ fun hc => ?_
  · rw [Session.lines, hidle]
    exact h.custody
  · rw [hidle, hmaxIdle]
    exact h.bounded
  · rw [hidle]
    exact (hclosed hc).elim h.empty id

/-- A cursor takes the place of another one. What is in the hand and in the cursor together
stays the same. -/
theorem replace {pre post : List Cursor} {c c' : Cursor}
    (h : Sound smooth latest hand a s (pre ++ c :: post))
    (hbacked : c'.Backed smooth latest a.rounds)
    (hlines : (hand ++ c.lines).Perm (hand' ++ c'.lines)) :
    Sound smooth latest hand' a s (pre ++ c' :: post) where
  custody := by
    refine h.custody.perm (List.perm_iff_count.2 fun n => ?_)
    have hcount := hlines.count_eq n
    simp only [heldBy, List.flatMap_append, List.flatMap_cons, List.count_append] at hcount ⊢
    omega
  talk := h.talk
  backed d hd := by
    obtain hd | rfl | hd : d ∈ pre ∨ d = c' ∨ d ∈ post := by simpa using hd
    · exact h.backed d (by simp [hd])
    · exact hbacked
    · exact h.backed d (by simp [hd])
  latest_le := h.latest_le
  bounded := h.bounded
  empty := h.empty

theorem handOut {c : Cursor} (h : Sound smooth latest hand a s cursors)
    (hbacked : c.Backed smooth latest a.rounds) (hlines : hand.Perm (hand' ++ c.lines)) :
    Sound smooth latest hand' a s (cursors ++ [c]) where
  custody := by
    refine h.custody.perm (List.perm_iff_count.2 fun n => ?_)
    have hcount := hlines.count_eq n
    simp only [heldBy, List.flatMap_append, List.flatMap_cons, List.flatMap_nil,
      List.append_nil, List.count_append] at hcount ⊢
    omega
  talk := h.talk
  backed d hd := by
    obtain hd | rfl : d ∈ cursors ∨ d = c := by simpa using hd
    · exact h.backed d hd
    · exact hbacked
  latest_le := h.latest_le
  bounded := h.bounded
  empty := h.empty

theorem open_ (h : Sound smooth latest [n] a s cursors) : n ∉ a.closed :=
  (h.custody.ready n List.mem_cons_self).open_

theorem not_mem_lines (h : Sound smooth latest [n] a s cursors) {c : Cursor}
    (hc : c ∈ cursors) : n ∉ c.lines := by
  intro hn
  have hheld : n ∈ s.lines ++ heldBy cursors :=
    List.mem_append_right _ (List.mem_flatMap.2 ⟨c, hc, hn⟩)
  exact (List.nodup_cons.1 h.custody.nodup).1 hheld

theorem discard (h : Sound smooth latest [n] a s cursors) :
    Sound smooth latest [] (a.shut n) s cursors :=
  h.of_custody id h.custody.shut (Account.rounds_shut n a) le_rfl h.bounded h.empty

/-- The line in the hand is given to the pool, or closed when there is no room. -/
theorem release {c : Connection} (h : Sound smooth latest [c.line] a s cursors)
    (hreleased : Client.Released c a s a' s') : Sound smooth latest [] a' s' cursors := by
  cases hreleased with
  | already hclosed => exact absurd hclosed h.open_
  | pooled hopen hroom =>
      refine h.of_custody id h.custody rfl le_rfl (Session.length_idle_push hroom) fun hclosed => ?_
      have hopen : s.closed = false := by simp_all [Session.hasRoom]
      exact absurd (hopen.symm.trans hclosed) Bool.false_ne_true
  | surplus hopen hroom => exact h.discard

theorem shut (h : Sound smooth latest [] a s cursors) (hshut : Client.Shut a s a' s') :
    Sound smooth latest [] a' s' cursors ∧ s'.idle = [] := by
  cases hshut with
  | already hclosed => exact ⟨h, h.empty hclosed⟩
  | done hopen =>
      have hlines : (s.idle.reverse.map Connection.line).Perm s.lines :=
        s.idle.reverse_perm.map _
      refine ⟨?_, rfl⟩
      exact h.of_custody id
        (Custody.shutAll _ (h.custody.perm (hlines.symm.append_right _)))
        (Account.rounds_shutAll _ a) le_rfl (Nat.zero_le _) fun _ => rfl

theorem of_dialed {peer : Endpoint} {o : Except Failure Connection}
    (h : Sound smooth latest [] a s cursors) (hdialed : Connection.Dialed peer a o a') :
    (∀ c, o = .ok c → Sound smooth latest [c.line] a' s cursors) ∧
      ∀ e, o = .error e → Sound (smooth ∧ ¬ e.IsRefusal) latest [] a' s cursors := by
  cases hdialed with
  | unreachable e =>
      exact ⟨fun c hc => (by cases hc), fun e' he => h.mono And.left⟩
  | greeted n hfresh =>
      refine ⟨fun c hc => ?_, fun e he => (by cases he)⟩
      cases hc
      exact h.of_custody id (h.custody.greet hfresh) rfl le_rfl h.bounded h.empty
  | rejected n e hfresh =>
      refine ⟨fun c hc => (by cases hc), fun e' he => ?_⟩
      exact h.of_custody And.left ((h.custody.openLine_shut hfresh).mono And.left)
        (Account.rounds_shut n _) le_rfl h.bounded h.empty
  | refused n f hfresh hf =>
      refine ⟨fun c hc => (by cases hc), fun e' he => ?_⟩
      cases he
      exact h.of_custody And.left ((h.custody.openLine hfresh).mono fun hs => hs.2 hf) rfl le_rfl
        h.bounded h.empty

theorem acquire {o : Except Failure Connection} (h : Sound smooth latest [] a s cursors)
    (hacquired : Client.Acquired a s o a' s') :
    s'.token = s.token ∧ (∀ c, o = .ok c → Sound smooth latest [c.line] a' s' cursors) ∧
      ∀ e, o = .error e → Sound (smooth ∧ ¬ e.IsRefusal) latest [] a' s' cursors := by
  cases hacquired with
  | closed hclosed e =>
      exact ⟨rfl, fun c hc => (by cases hc), fun e' he => h.mono And.left⟩
  | pooled c cs hopen hidle =>
      refine ⟨rfl, fun c' hc => ?_, fun e he => (by cases he)⟩
      cases hc
      have hlines : s.lines = c.line :: cs.map Connection.line := by
        rw [Session.lines, hidle]
        rfl
      have hcustody := h.custody
      have hbounded := h.bounded
      rw [hlines] at hcustody
      rw [hidle] at hbounded
      refine h.of_custody id hcustody rfl le_rfl ((Nat.le_succ _).trans hbounded) fun hclosed => ?_
      exact absurd (hopen.symm.trans hclosed) Bool.false_ne_true
  | dialed o a' hopen hidle hdial => exact ⟨rfl, h.of_dialed hdial⟩

theorem connect {o : Except Failure Unit} (h : Sound smooth latest [] a s cursors)
    (hconnected : Client.Connected a s o a' s') :
    Sound (smooth ∧ ¬ Refused o) latest [] a' s' cursors := by
  cases hconnected with
  | failed e a' hdial => simpa using (h.of_dialed hdial).2 e rfl
  | reached c a₁ a' s' hdial hrelease =>
      exact (((h.of_dialed hdial).1 c rfl).release hrelease).mono And.left

theorem reconnect {o : Except Failure Unit} {a₁ : Account} {s₁ : Session}
    (h : Sound smooth latest [] a s cursors) (hshut : Client.Shut a s a₁ s₁)
    (hconnected : Client.Connected a₁ { s₁ with closed := false } o a' s') :
    Sound (smooth ∧ ¬ Refused o) latest [] a' s' cursors := by
  obtain ⟨h₁, -⟩ := h.shut hshut
  have h₂ : Sound smooth latest [] a₁ { s₁ with closed := false } cursors :=
    h₁.of_session rfl le_rfl rfl fun hclosed => by cases hclosed
  exact h₂.connect hconnected

/-- What a round on the line in the hand has to show. -/
theorem of_round {x : Round} (h : Sound smooth latest [x.line] a s cursors)
    (hs : smooth' → smooth) (hl : latest ≤ latest') (htoken : latest' ≤ s.token)
    (hrounds : a'.rounds = x :: a.rounds)
    (hcustody : Custody smooth' a' (hand' ++ (s.lines ++ heldBy cursors)))
    (htalk : Talk smooth' latest' (x :: a.rounds))
    (hother : ∀ c ∈ cursors, ∀ conn, c.connection = some conn → x.token ≠ c.token) :
    Sound smooth' latest' hand' a' s cursors where
  custody := hcustody
  talk := by
    rw [hrounds]
    exact htalk
  backed c hc := by
    rw [hrounds]
    exact ((h.backed c hc).other (h.not_mem_lines hc) (hother c hc)).mono hs hl
  latest_le := htoken
  bounded := h.bounded
  empty := h.empty

theorem answered {x : Round} (h : Sound smooth latest [x.line] a s cursors)
    (hl : latest ≤ latest') (htoken : latest' ≤ s.token) (hanswer : x.answer ≠ none)
    (htalk : Talk smooth latest' (x :: a.rounds))
    (hother : ∀ c ∈ cursors, ∀ conn, c.connection = some conn → x.token ≠ c.token) :
    Sound smooth latest' [x.line] (a.begin x) s cursors :=
  h.of_round id hl htoken rfl (h.custody.begin rfl fun _ => hanswer) htalk hother

theorem failed {x : Round} (h : Sound smooth latest [x.line] a s cursors)
    (hl : latest ≤ latest') (htoken : latest' ≤ s.token)
    (htalk : Talk smooth latest' (x :: a.rounds))
    (hother : ∀ c ∈ cursors, ∀ conn, c.connection = some conn → x.token ≠ c.token) :
    Sound smooth latest' [] ((a.begin x).shut x.line) s cursors :=
  h.of_round id hl htoken (Account.rounds_shut _ _) (h.custody.begin_shut rfl) htalk hother

theorem token_ne_of_next {hand : List Nat} {token : Int64}
    (h : Sound smooth latest hand a s cursors) (htoken : token.toInt = latest + 1) :
    ∀ c ∈ cursors, ∀ conn, c.connection = some conn → token ≠ c.token := by
  rintro c hc conn hconn rfl
  have hle := ((h.backed c hc).holding conn hconn).bounded
  omega

theorem token_ne_of_holding {token : Int64} (h : Sound smooth latest [n] a s cursors)
    (hholding : Holding smooth latest a.rounds n token) :
    ∀ c ∈ cursors, ∀ conn, c.connection = some conn → token ≠ c.token := by
  intro c hc conn hconn
  refine hholding.token_ne ((h.backed c hc).holding conn hconn) fun hline => ?_
  exact h.not_mem_lines hc (by simp [Cursor.lines, hconn, hline])

theorem start_ok {query : Query} {r : Response} (h : Sound smooth latest [n] a s cursors)
    (hstart : query.tag = some QueryType.start.code)
    (hquery : query.tokenValue.toInt = latest + 1) (htoken : latest + 1 ≤ s.token)
    (hexchanged : Connection.Exchanged n query a (.ok r) a') :
    Sound smooth (latest + 1) [n] a' s cursors ∧
      ∃ x ∈ a'.rounds, x.answer = some r ∧ x.token = query.tokenValue ∧
        (Shape.ofResponse? r = some .partialSequence →
          Holding smooth (latest + 1) a'.rounds n query.tokenValue) := by
  cases hexchanged with
  | answered r hopen hmatched =>
      set x : Round := ⟨n, query, some r⟩
      have hx : x.Matched := by
        rintro _ ⟨rfl⟩
        exact hmatched
      refine ⟨h.answered (x := x) (Nat.le_succ _) htoken (by simp [x])
        (h.talk.start hstart hquery hx) (h.token_ne_of_next hquery), x, List.mem_cons_self, rfl,
        rfl, fun hpartial => ?_⟩
      exact Holding.start (x := x) h.talk hstart hquery ⟨r, rfl, hpartial⟩

theorem start_error {query : Query} {e : Failure} (h : Sound smooth latest [n] a s cursors)
    (hstart : query.tag = some QueryType.start.code)
    (hquery : query.tokenValue.toInt = latest + 1) (htoken : latest + 1 ≤ s.token)
    (hexchanged : Connection.Exchanged n query a (.error e) a') :
    Sound smooth (latest + 1) [] (a'.shut n) s cursors := by
  set x : Round := ⟨n, query, none⟩
  have htalk : Talk smooth (latest + 1) (x :: a.rounds) := h.talk.start hstart hquery nofun
  have hshut : Sound smooth (latest + 1) [] ((a.begin x).shut n) s cursors :=
    h.failed (x := x) (Nat.le_succ _) htoken htalk (h.token_ne_of_next hquery)
  cases hexchanged with
  | unbegun e hclosed => exact absurd hclosed h.open_
  | failed e hopen =>
      rwa [Account.shut_shut]
  | refused f hopen hf => exact hshut

section

variable {token : Int64}

theorem continue_ok {r : Response} (h : Sound smooth latest [n] a s cursors)
    (hholding : Holding smooth latest a.rounds n token)
    (hexchanged : Connection.Exchanged n (.followUp .continue token) a (.ok r) a') :
    Sound smooth latest [n] a' s cursors ∧
      ∃ x ∈ a'.rounds, x.answer = some r ∧ x.token = token ∧
        (Shape.ofResponse? r = some .partialSequence →
          Holding smooth latest a'.rounds n token) := by
  cases hexchanged with
  | answered r hopen hmatched =>
      set x : Round := ⟨n, .followUp .continue token, some r⟩
      have hx : x.Matched := by
        rintro _ ⟨rfl⟩
        exact hmatched
      refine ⟨h.answered (x := x) le_rfl h.latest_le (by simp [x])
        (h.talk.followUp hholding (.inl rfl) hx) (h.token_ne_of_holding hholding), x,
        List.mem_cons_self, rfl, rfl, fun hpartial => ?_⟩
      exact Holding.continue (x := x) hholding ⟨.inr rfl, .inl ⟨r, rfl, hpartial⟩⟩

theorem continue_failed {e : DriverError} (h : Sound smooth latest [n] a s cursors)
    (hholding : Holding smooth latest a.rounds n token)
    (hexchanged : Connection.Exchanged n (.followUp .continue token) a (.error (.driver e)) a') :
    Sound smooth latest [] a' s cursors := by
  cases hexchanged with
  | unbegun e hclosed => exact absurd hclosed h.open_
  | failed e hopen =>
      exact h.failed (x := ⟨n, .followUp .continue token, none⟩) le_rfl h.latest_le
        (h.talk.followUp hholding (.inl rfl) nofun) (h.token_ne_of_holding hholding)

/-- The line in the hand would not be armed for a query to continue. -/
theorem continue_refused {f : Fault} (h : Sound smooth latest [n] a s cursors)
    (hholding : Holding smooth latest a.rounds n token)
    (hexchanged : Connection.Exchanged n (.followUp .continue token) a (.error (.fault f)) a') :
    f.IsRefusal ∧ Sound False latest [n] a' s cursors ∧
      Holding False latest a'.rounds n token := by
  cases hexchanged with
  | refused f hopen hf =>
      set x : Round := ⟨n, .followUp .continue token, none⟩
      have hcustody : Custody smooth (a.begin x) ([n] ++ (s.lines ++ heldBy cursors)) :=
        h.custody.begin rfl nofun
      refine ⟨hf, h.of_round (x := x) False.elim le_rfl h.latest_le rfl
        (hcustody.mono False.elim) ?_ (h.token_ne_of_holding hholding), ?_⟩
      · exact (h.talk.followUp (x := x) hholding (.inl rfl) nofun).mono False.elim le_rfl
      · exact Holding.continue (x := x) (hholding.mono False.elim le_rfl)
          ⟨.inr rfl, .inr ⟨⟨rfl, rfl⟩, not_false⟩⟩

theorem stop_ok {r : Response} (h : Sound smooth latest [n] a s cursors)
    (hholding : Holding smooth latest a.rounds n token)
    (hexchanged : Connection.Exchanged n (.followUp .stop token) a (.ok r) a') :
    Sound smooth latest [n] a' s cursors := by
  cases hexchanged with
  | answered r hopen hmatched =>
      set x : Round := ⟨n, .followUp .stop token, some r⟩
      have hx : x.Matched := by
        rintro _ ⟨rfl⟩
        exact hmatched
      exact h.answered (x := x) le_rfl h.latest_le (by simp [x])
        (h.talk.followUp hholding (.inr rfl) hx) (h.token_ne_of_holding hholding)

theorem stop_failed {e : DriverError} (h : Sound smooth latest [n] a s cursors)
    (hholding : Holding smooth latest a.rounds n token)
    (hexchanged : Connection.Exchanged n (.followUp .stop token) a (.error (.driver e)) a') :
    Sound smooth latest [] a' s cursors := by
  cases hexchanged with
  | unbegun e hclosed => exact absurd hclosed h.open_
  | failed e hopen =>
      exact h.failed (x := ⟨n, .followUp .stop token, none⟩) le_rfl h.latest_le
        (h.talk.followUp hholding (.inr rfl) nofun) (h.token_ne_of_holding hholding)

/-- The line in the hand would not be armed for a query to stop, and is abandoned. -/
theorem stop_refused {f : Fault} (h : Sound smooth latest [n] a s cursors)
    (hholding : Holding smooth latest a.rounds n token)
    (hexchanged : Connection.Exchanged n (.followUp .stop token) a (.error (.fault f)) a') :
    f.IsRefusal ∧ Sound False latest [] a' s cursors := by
  cases hexchanged with
  | refused f hopen hf =>
      set x : Round := ⟨n, .followUp .stop token, none⟩
      refine ⟨hf, h.of_round (x := x) False.elim le_rfl h.latest_le rfl
        (h.custody.begin_stop rfl rfl rfl) ?_ (h.token_ne_of_holding hholding)⟩
      exact (h.talk.followUp (x := x) hholding (.inr rfl) nofun).mono False.elim le_rfl

end

end Sound

end QueryDriver
