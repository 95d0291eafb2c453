import QueryDriver.Proofs.Cursor.Fetching
import QueryDriver.Proofs.Net.Dialogue

/-!
# Cursors on a server that keeps to its plan

A plan gives every token a list of batches. A server keeps to it when it answers the first
query with a token with the first batch and every later one with the next batch, the last
one as a whole sequence and the others as parts of one. Nothing is said about queries to
stop, nor about queries for more than the plan has.

The number of queries with a token is then the number of its batches that have arrived, so
the rows of a cursor that have not been read are the ones in its buffer and the ones of the
batches behind those. Fetching moves a batch from the second part to the first one and
changes nothing else, `Fetching.served`. What it does to the connection is told by `Drawn`,
which is about any number of fetches: the connection stays where it is for as long as parts
arrive, and it is given back when the last batch arrives.
-/

namespace QueryDriver

open Net Wire

/-- The batches of rows that a server has for each token. -/
abbrev Plan := Int64 → List (List Datum)

namespace Net

/-- How many queries with a token were begun. -/
def begun (token : Int64) (rounds : List Round) : Nat := rounds.countP fun x => x.token = token

namespace Round

/-- The answer is a whole sequence or the last part of one. -/
def AnsweredFully (x : Round) : Prop :=
  ∃ r, x.answer = some r ∧ Shape.ofResponse? r = some .sequence

/-- The answer brings a batch, which is the last one or not. -/
def Brings (rows : List Datum) (last : Bool) (x : Round) : Prop :=
  ∃ r, x.answer = some r ∧ r.values = rows ∧
    Shape.ofResponse? r = some (if last then .sequence else .partialSequence)

/-- The query asks for more rows of a token, on the line of a connection. -/
structure Continues (conn : Connection) (token : Int64) (x : Round) : Prop where
  line : x.line = conn.line
  token : x.token = token
  kind : x.IsOf .continue

end Round

/-- Every query but one to stop was answered by the next batch of its token, if there was
one. -/
def Served (plan : Plan) (rounds : List Round) : Prop :=
  ∀ x older, x :: older <:+ rounds → ¬ x.IsOf .stop → ∀ rows later,
    (plan x.token).drop (begun x.token older) = rows :: later → x.Brings rows later.isEmpty

theorem begun_cons_self (x : Round) (rounds : List Round) :
    begun x.token (x :: rounds) = begun x.token rounds + 1 := by
  simp [begun]

theorem begun_append_of_ne {token : Int64} {new : List Round} (h : ∀ x ∈ new, x.token ≠ token)
    (rounds : List Round) : begun token (new ++ rounds) = begun token rounds := by
  have hnew : new.countP (fun x => x.token = token) = 0 := by simpa [List.countP_eq_zero] using h
  rw [begun, List.countP_append, hnew, Nat.zero_add, begun]

theorem Served.mono {plan : Plan} {rounds rounds' : List Round} (h : Served plan rounds')
    (hsuffix : rounds <:+ rounds') : Served plan rounds :=
  fun x older holder => h x older (holder.trans hsuffix)

theorem served_nil (plan : Plan) : Served plan [] := by
  intro x older holder
  cases List.suffix_nil.1 holder

theorem Served.cons {plan : Plan} {x : Round} {rounds : List Round} (h : Served plan rounds)
    (hx : ∀ rows later, (plan x.token).drop (begun x.token rounds) = rows :: later →
      x.Brings rows later.isEmpty) : Served plan (x :: rounds) := by
  intro y older holder hkind rows later hrows
  obtain heq | holder := List.suffix_cons_iff.1 holder
  · cases heq
    exact hx rows later hrows
  · exact h y older holder hkind rows later hrows

/-- When there is a next batch, a query that is not one to stop is answered by it. -/
theorem Connection.Exchanged.served {plan : Plan} {n : Nat} {query : Query} {a a' : Account}
    {o : Except Failure Response} {rows : List Datum} {later : List (List Datum)}
    (h : Connection.Exchanged n query a o a') (hkind : query.tag ≠ some QueryType.stop.code)
    (hopen : n ∉ a.closed) (hserved : Served plan a'.rounds)
    (hrows : (plan query.tokenValue).drop (begun query.tokenValue a.rounds) = rows :: later) :
    ∃ r, o = .ok r ∧ a' = a.begin ⟨n, query, some r⟩ ∧ r.values = rows ∧
      Shape.ofResponse? r = some (if later.isEmpty then .sequence else .partialSequence) := by
  have hbrings (answer : Option Response) (hrounds : a'.rounds = ⟨n, query, answer⟩ :: a.rounds) :
      Round.Brings rows later.isEmpty ⟨n, query, answer⟩ :=
    hserved ⟨n, query, answer⟩ a.rounds (hrounds ▸ List.suffix_rfl) hkind rows later hrows
  cases h with
  | unbegun e hclosed => exact absurd hclosed hopen
  | failed e _ =>
      obtain ⟨r, hanswer, -⟩ := hbrings none (Account.rounds_shut _ _)
      cases hanswer
  | refused f _ hf =>
      obtain ⟨r, hanswer, -⟩ := hbrings none rfl
      cases hanswer
  | answered r _ htoken =>
      obtain ⟨r', hanswer, hvalues, hshape⟩ := hbrings (some r) rfl
      cases hanswer
      exact ⟨r, rfl, rfl, hvalues, hshape⟩

end Net

namespace Cursor

variable {plan : Plan} {rounds : List Round} {c c' : Cursor}

/-- The batches that were not asked for. -/
def pending (plan : Plan) (rounds : List Round) (c : Cursor) : List (List Datum) :=
  (plan c.token).drop (begun c.token rounds)

/-- The rows that have not been read, whether they have arrived or not. -/
def unread (plan : Plan) (rounds : List Round) (c : Cursor) : List Datum :=
  c.buffer ++ (c.pending plan rounds).flatten

/-- The cursor holds a connection exactly if there are batches that were not asked for. -/
structure Fed (plan : Plan) (rounds : List Round) (c : Cursor) : Prop where
  streams : c.shape = some .sequence ∨ c.shape = some .partialSequence
  error : c.error = none
  begun : 0 < Net.begun c.token rounds
  asked : Net.begun c.token rounds ≤ (plan c.token).length
  held : c.connection = none ↔ c.pending plan rounds = []
  complete : c.complete = true ↔ c.connection = none

namespace Fed

/-- The cursor drops rows, looks at another one, or closes after it was given all rows. -/
theorem of_same (h : c.Fed plan rounds) (htoken : c'.token = c.token) (hshape : c'.shape = c.shape)
    (herror : c'.error = c.error) (hconn : c'.connection = c.connection)
    (hcomplete : c'.complete = c.complete) : c'.Fed plan rounds where
  streams := hshape ▸ h.streams
  error := herror.trans h.error
  begun := htoken ▸ h.begun
  asked := htoken ▸ h.asked
  held := by
    rw [hconn, pending, htoken]
    exact h.held
  complete := by
    rw [hcomplete, hconn]
    exact h.complete

theorem shape_ne_none (h : c.Fed plan rounds) : c.shape ≠ none := by
  obtain hshape | hshape := h.streams <;> rw [hshape] <;> nofun

theorem other (h : c.Fed plan rounds) {rounds' : List Round}
    (hbegun : Net.begun c.token rounds' = Net.begun c.token rounds) : c.Fed plan rounds' where
  streams := h.streams
  error := h.error
  begun := hbegun ▸ h.begun
  asked := hbegun ▸ h.asked
  held := by
    rw [pending, hbegun]
    exact h.held
  complete := h.complete

end Fed

/-- What becomes of the connection of a cursor while its rows are read: nothing, or parts of
a sequence have come over it, or the last part has come and the connection was given back.
-/
inductive Drawn (token : Int64) (a : Account) (s : Session) :
    Option Connection → Option Connection → Account → Session → Prop
  | idle (held : Option Connection) : Drawn token a s held held a s
  | parts (conn : Connection) (new : List Round)
      (hnew : ∀ x ∈ new, x.Continues conn token ∧ x.AnsweredPartially) :
    Drawn token a s (some conn) (some conn) { a with rounds := new ++ a.rounds } s
  | handedBack (conn : Connection) (x : Round) (new : List Round) (a' : Account) (s' : Session)
      (hlast : x.Continues conn token ∧ x.AnsweredFully)
      (hnew : ∀ x ∈ new, x.Continues conn token ∧ x.AnsweredPartially)
      (hrelease : Client.Released conn { a with rounds := x :: (new ++ a.rounds) } s a' s') :
    Drawn token a s (some conn) none a' s'

theorem Drawn.trans {token : Int64} {a a₁ a' : Account} {s s₁ s' : Session}
    {held held₁ held' : Option Connection} (h : Drawn token a s held held₁ a₁ s₁)
    (h' : Drawn token a₁ s₁ held₁ held' a' s') : Drawn token a s held held' a' s' := by
  cases h with
  | idle held => exact h'
  | handedBack conn x new a' s' hlast hnew hrelease =>
      cases h' with
      | idle held => exact .handedBack conn x new _ _ hlast hnew hrelease
  | parts conn new hnew =>
      have hboth {later : List Round}
          (hlater : ∀ x ∈ later, x.Continues conn token ∧ x.AnsweredPartially) :
          ∀ x ∈ later ++ new, x.Continues conn token ∧ x.AnsweredPartially := by
        intro x hx
        obtain hx | hx := List.mem_append.1 hx
        · exact hlater x hx
        · exact hnew x hx
      cases h' with
      | idle held => exact .parts conn new hnew
      | parts conn later hlater =>
          rw [← List.append_assoc]
          exact .parts conn (later ++ new) (hboth hlater)
      | handedBack conn x later a' s' hlast hlater hrelease =>
          rw [← List.append_assoc] at hrelease
          exact .handedBack conn x (later ++ new) _ _ hlast (hboth hlater) hrelease

theorem Drawn.of_none {token : Int64} {a a' : Account} {s s' : Session}
    {held' : Option Connection} (h : Drawn token a s none held' a' s') :
    held' = none ∧ a' = a ∧ s' = s := by
  cases h with
  | idle held => exact ⟨rfl, rfl, rfl⟩

/-- When the connection is gone, the last part has come and it was given back. -/
theorem Drawn.handedBack_of_none {token : Int64} {a a' : Account} {s s' : Session}
    {conn : Connection} (h : Drawn token a s (some conn) none a' s') :
    ∃ x new, (x.Continues conn token ∧ x.AnsweredFully) ∧
      (∀ y ∈ new, y.Continues conn token ∧ y.AnsweredPartially) ∧
        Client.Released conn { a with rounds := x :: (new ++ a.rounds) } s a' s' := by
  cases h with
  | handedBack conn x new a' s' hlast hnew hrelease => exact ⟨x, new, hlast, hnew, hrelease⟩

/-- As long as the connection is not given back, the pool and the lines stay as they are. -/
theorem Drawn.steady {token : Int64} {a a' : Account} {s s' : Session}
    {held held' : Option Connection} (h : Drawn token a s held held' a' s')
    (hkept : held ≠ none → held' ≠ none) : s' = s ∧ a'.closed = a.closed := by
  cases h with
  | idle held => exact ⟨rfl, rfl⟩
  | parts conn new hnew => exact ⟨rfl, rfl⟩
  | handedBack conn x new a' s' hlast hnew hrelease => exact absurd rfl (hkept nofun)

/-- What reading has begun: queries for more, with the token of the cursor. -/
theorem Drawn.begun {token : Int64} {a a' : Account} {s s' : Session}
    {held held' : Option Connection} (h : Drawn token a s held held' a' s') :
    ∃ new, a'.rounds = new ++ a.rounds ∧ ∀ x ∈ new, x.token = token ∧ x.IsOf .continue := by
  cases h with
  | idle held => exact ⟨[], rfl, by simp⟩
  | parts conn new hnew => exact ⟨new, rfl, fun x hx => ⟨(hnew x hx).1.token, (hnew x hx).1.kind⟩⟩
  | handedBack conn x new a' s' hlast hnew hrelease =>
      refine ⟨x :: new, hrelease.rounds, List.forall_mem_cons.2 ⟨?_, fun y hy => ?_⟩⟩
      · exact ⟨hlast.1.token, hlast.1.kind⟩
      · exact ⟨(hnew y hy).1.token, (hnew y hy).1.kind⟩

theorem pending_cons {x : Round} {older : List Round} {rows : List Datum}
    {later : List (List Datum)} (hx : x.token = c.token)
    (hrows : c.pending plan older = rows :: later) : c.pending plan (x :: older) = later := by
  rw [pending, ← hx, begun_cons_self, hx, ← List.drop_drop, ← pending, hrows]
  rfl

theorem unread_cons {x : Round} {rows : List Datum} {later : List (List Datum)}
    (hx : x.token = c.token) (hpending : c.pending plan rounds = rows :: later)
    (htoken : c'.token = c.token) (hbuffer : c'.buffer = c.buffer ++ rows) :
    c'.unread plan (x :: rounds) = c.unread plan rounds := by
  have hpending' : c'.pending plan (x :: rounds) = later := by
    rw [pending, htoken, ← pending, pending_cons hx hpending]
  rw [unread, unread, hpending', hbuffer, hpending, List.flatten_cons, List.append_assoc]

/-- A query for more, when there is more, is answered by the next batch. -/
theorem continue_served {conn : Connection} {a a' : Account} {o : Except Failure Response}
    (hexchanged : Connection.Exchanged conn.line (.followUp .continue c.token) a o a')
    (hfed : c.Fed plan a.rounds) (hconn : c.connection = some conn)
    (hopen : conn.line ∉ a.closed) (hserved : Served plan a'.rounds) :
    ∃ r x later, o = .ok r ∧ a' = a.begin x ∧ x.Continues conn c.token ∧ x.answer = some r ∧
      c.pending plan a.rounds = r.values :: later ∧
      Shape.ofResponse? r = some (if later.isEmpty then .sequence else .partialSequence) := by
  have hpending : c.pending plan a.rounds ≠ [] := by
    intro hnil
    have hnone := hfed.held.2 hnil
    rw [hconn] at hnone
    cases hnone
  obtain ⟨rows, later, hrows⟩ := List.exists_cons_of_ne_nil hpending
  have hkind : some QueryType.continue.code ≠ some QueryType.stop.code := by decide
  obtain ⟨r, ho, ha', rfl, hshape⟩ := hexchanged.served hkind hopen hserved hrows
  exact ⟨r, _, later, ho, ha', ⟨rfl, rfl, rfl⟩, rfl, hrows, hshape⟩

theorem Fed.cons {x : Round} {rows : List Datum} {later : List (List Datum)}
    (h : c.Fed plan rounds) (hx : x.token = c.token)
    (hpending : c.pending plan rounds = rows :: later)
    (htoken : c'.token = c.token) (hshape : c'.shape = c.shape) (herror : c'.error = c.error)
    (hheld : c'.connection = none ↔ later = [])
    (hcomplete : c'.complete = true ↔ c'.connection = none) : c'.Fed plan (x :: rounds) where
  streams := hshape ▸ h.streams
  error := herror.trans h.error
  begun := by
    rw [htoken, ← hx, begun_cons_self]
    exact Nat.succ_pos _
  asked := by
    have hlt : Net.begun c.token rounds < (plan c.token).length := by
      by_contra hge
      rw [pending, List.drop_eq_nil_of_le (Nat.le_of_not_lt hge)] at hpending
      cases hpending
    rw [htoken, ← hx, begun_cons_self, hx]
    exact hlt
  held := by
    rw [hheld, pending, htoken, ← pending, pending_cons hx hpending]
  complete := hcomplete

/-- Fetching from a server that keeps to its plan moves a batch to the buffer. -/
theorem Fetching.served {conn : Connection} {a a' : Account} {s s' : Session}
    {o : Except Failure Unit} (h : Fetching c a s o a' s' c') (hfed : c.Fed plan a.rounds)
    (hconn : c.connection = some conn) (hopen : conn.line ∉ a.closed)
    (hserved : Served plan a'.rounds) :
    o = .ok () ∧ c'.Fed plan a'.rounds ∧ Drawn c.token a s c.connection c'.connection a' s' ∧
      c'.unread plan a'.rounds = c.unread plan a.rounds ∧ c'.current = c.current := by
  cases h with
  | lost e hlost =>
      rw [hconn] at hlost
      cases hlost
  | failed conn' e a' hconn' hexchanged =>
      cases hconn.symm.trans hconn'
      obtain ⟨r, x, later, ho, -⟩ := continue_served hexchanged hfed hconn hopen hserved
      cases ho
  | refused conn' f a' hconn' hexchanged =>
      cases hconn.symm.trans hconn'
      obtain ⟨r, x, later, ho, -⟩ := continue_served hexchanged hfed hconn hopen hserved
      cases ho
  | more conn' r a' hconn' hexchanged hshape =>
      cases hconn.symm.trans hconn'
      obtain ⟨r', x, later, ho, rfl, hx, hanswer, hpending, hshape'⟩ :=
        continue_served hexchanged hfed hconn hopen hserved
      cases ho
      have hlater : later ≠ [] := by
        rintro rfl
        cases hshape.symm.trans hshape'
      have hdrawn : Drawn c.token a s (some conn) (some conn) (a.begin x) s :=
        .parts conn [x] (by simpa using ⟨hx, r, hanswer, hshape⟩)
      refine ⟨rfl, hfed.cons hx.token hpending rfl rfl rfl ?_ hfed.complete, ?_,
        unread_cons hx.token hpending rfl rfl, rfl⟩
      · simp [fed, hconn, hlater]
      · simpa only [fed, hconn] using hdrawn
  | last conn' r a₁ a' s' hconn' hexchanged hshape hrelease =>
      cases hconn.symm.trans hconn'
      rw [hrelease.rounds] at hserved ⊢
      obtain ⟨r', x, later, ho, rfl, hx, hanswer, hpending, hshape'⟩ :=
        continue_served hexchanged hfed hconn hopen hserved
      cases ho
      have hlater : later = [] := by
        cases later with
        | nil => rfl
        | cons rows later => cases hshape.symm.trans hshape'
      have hdrawn : Drawn c.token a s (some conn) none a' s' :=
        .handedBack conn x [] a' s' ⟨hx, r, hanswer, hshape⟩ (by simp) hrelease
      refine ⟨rfl, hfed.cons hx.token hpending rfl rfl rfl ?_ ?_, ?_,
        unread_cons hx.token hpending rfl rfl, rfl⟩
      · simp [fed, finished, hlater]
      · simp [fed, finished]
      · simpa only [fed, finished, hconn] using hdrawn
  | reported conn' r e query a₁ a' s' hconn' hexchanged hshape hrelease =>
      cases hconn.symm.trans hconn'
      rw [hrelease.rounds] at hserved
      obtain ⟨r', x, later, ho, -, -, -, -, hshape'⟩ :=
        continue_served hexchanged hfed hconn hopen hserved
      cases ho
      cases later <;> rw [hshape'] at hshape <;> simp at hshape
  | unexpected conn' r e a₁ hconn' hexchanged hshape =>
      cases hconn.symm.trans hconn'
      rw [Account.rounds_shut] at hserved
      obtain ⟨r', x, later, ho, -, -, -, -, hshape'⟩ :=
        continue_served hexchanged hfed hconn hopen hserved
      cases ho
      cases later <;> rw [hshape'] at hshape <;> simp at hshape

end Cursor

end QueryDriver
