import QueryDriver.Proofs.System.Orderly

/-!
# Rows that have arrived

The rows that were given by a cursor and the ones in its buffer are the rows of the answers that
have come for its token, in their order. Going on to the next row fetches as long as the buffer is
empty and what comes is a part of the rows, however small, and then takes one last step: it gives
a row, or finds that there are no more, or it meets a failure. `Going` says so, and what the failure
was and what has become of the connection.
-/

namespace QueryDriver

open Net Wire

variable {σ τ α β : Type} {t : Transport σ τ} {L : Ledger t}

namespace Net

/-- The rows that an answer brings to a cursor. -/
def Round.batch (x : Round) : List Datum :=
  match x.answer with
  | none => []
  | some a =>
    match Shape.ofResponse? a with
    | some .sequence | some .partialSequence => a.values
    | _ => []

/-- The answer is a part of the rows, or the rest of them. -/
def Round.Feeds (x : Round) : Prop :=
  ∃ a, x.answer = some a ∧
    (Shape.ofResponse? a = some .partialSequence ∨ Shape.ofResponse? a = some .sequence)

/-- The rows that have arrived for a token, in their order. -/
def Account.arrived (a : Account) (token : Int64) : List Datum :=
  (a.dialogue token).flatMap Round.batch

namespace Account

variable {a a' : Account} {token : Int64}

theorem arrived_eq_of_ne {new : List Round} (hrounds : a'.rounds = new ++ a.rounds)
    (hnew : ∀ x ∈ new, x.token ≠ token) : a'.arrived token = a.arrived token := by
  rw [arrived, dialogue_eq_of_ne hrounds hnew, arrived]

theorem arrived_eq_of_rounds (hrounds : a'.rounds = a.rounds) :
    a'.arrived token = a.arrived token :=
  arrived_eq_of_ne (show a'.rounds = [] ++ a.rounds from hrounds)
    (List.forall_mem_nil _)

theorem arrived_cons {x : Round} (hrounds : a'.rounds = x :: a.rounds) (hx : x.token = token) :
    a'.arrived token = a.arrived token ++ x.batch := by
  simp [arrived, dialogue, chronicle, hrounds, hx, List.filter_append]

end Account

/-- Whatever was asked was answered by rows. -/
def Account.Fed (a a' : Account) : Prop :=
  ∃ new, a'.rounds = new ++ a.rounds ∧ ∀ x ∈ new, x.Feeds

theorem Account.Fed.refl (a : Account) : a.Fed a := ⟨[], rfl, List.forall_mem_nil _⟩

theorem Account.Fed.trans {a a₁ a' : Account} (h : a.Fed a₁) (h' : a₁.Fed a') : a.Fed a' := by
  obtain ⟨new, hnew, hall⟩ := h
  obtain ⟨later, hlater, hall'⟩ := h'
  refine ⟨later ++ new, by rw [hlater, hnew, List.append_assoc], fun x hx => ?_⟩
  exact (List.mem_append.1 hx).elim (hall' x) (hall x)

theorem Round.batch_of_feeds {x : Round} {a : Response} (ha : x.answer = some a)
    (hshape : Shape.ofResponse? a = some .partialSequence ∨
      Shape.ofResponse? a = some .sequence) : x.batch = a.values := by
  rw [batch, ha]
  obtain hshape | hshape := hshape <;> simp [hshape]

theorem Round.batch_of_rejected {x : Round} {a : Response} (ha : x.answer = some a)
    (hshape : Shape.ofResponse? a = none ∨ Shape.ofResponse? a = some .atom) : x.batch = [] := by
  rw [batch, ha]
  obtain hshape | hshape := hshape <;> simp [hshape]

namespace Connection.Exchanged

variable {n : Nat} {type : QueryType} {token : Int64} {a a' : Account}

/-- An answer to a query of a cursor, among what has arrived. -/
theorem arrived_of_ok {r : Response} (h : Exchanged n (.followUp type token) a (.ok r) a') :
    a'.rounds = ⟨n, .followUp type token, some r⟩ :: a.rounds ∧
      a'.arrived token = a.arrived token ++
        Round.batch ⟨n, .followUp type token, some r⟩ := by
  cases h with
  | answered r hopen htoken => exact ⟨rfl, Account.arrived_cons rfl rfl⟩

/-- Without an answer nothing has arrived. -/
theorem arrived_of_error {f : Failure} (h : Exchanged n (.followUp type token) a (.error f) a') :
    a'.arrived token = a.arrived token := by
  have hunanswered {b : Account}
      (hrounds : b.rounds = ⟨n, .followUp type token, none⟩ :: a.rounds) :
      b.arrived token = a.arrived token := by
    have harrived : b.arrived token = a.arrived token ++ [] := Account.arrived_cons hrounds rfl
    rw [harrived, List.append_nil]
  cases h with
  | unbegun e hclosed => rfl
  | failed e hopen => exact hunanswered (Account.rounds_shut n _)
  | refused f hopen hf => exact hunanswered rfl

end Connection.Exchanged

end Net

/-- How a query for more can break a stream off, and what has become of the connection then. -/
inductive Client.Breaks [Clock τ] (t : Transport σ τ) (L : Ledger t) (conn : Connection)
    (token : Int64) (query : Option String) (k k' : Client σ) : DriverError → Prop
  /-- The network has failed, or what came was no answer, and the connection was closed. -/
  | unanswered {e : DriverError} {k₁ : Client σ}
      (hround : (roundTrip t conn (.followUp .continue token)).run k = (.error (.driver e), k₁))
      (hclosed : conn.line ∈ (k'.account L).closed) (hsession : k'.session = k.session) :
    Breaks t L conn token query k k' e
  /-- The server reports an error, and the connection was given back. -/
  | reported {a : Response} {k₁ k₂ : Client σ}
      (hround : (roundTrip t conn (.followUp .continue token)).run k = (.ok a, k₁))
      (hfailure : a.failure?.isSome = true)
      (hrelease : (release t conn).run k₁ = (.ok (), k₂))
      (haccount : k'.account L = k₂.account L) (hsession : k'.session = k₂.session) :
    Breaks t L conn token query k k' (.ofContinuation a query)
  /-- The answer is of no kind that goes on with a stream, and the connection was closed. -/
  | unexpected {a : Response} {k₁ : Client σ}
      (hround : (roundTrip t conn (.followUp .continue token)).run k = (.ok a, k₁))
      (hshape : Shape.ofResponse? a = none ∨ Shape.ofResponse? a = some .atom)
      (hfailure : a.failure?.isSome = false)
      (hclosed : conn.line ∈ (k'.account L).closed) (hsession : k'.session = k.session) :
    Breaks t L conn token query k k' (.ofContinuation a query)

namespace Reader

/-- What was given and what is in the buffer are the rows that have arrived. -/
def Flows (L : Ledger t) (given : List Datum) (r : Reader σ) : Prop :=
  given ++ r.cursor.buffer = (r.client.account L).arrived r.cursor.token

end Reader

namespace Reading

open Reader Course

variable {r r₁ r' : Reader σ}

/-- The row that was read last is forgotten. -/
def forgotten (r : Reader σ) : Reader σ := { r with cursor := { r.cursor with current := none } }

variable [Clock τ]

theorem run_next : (next t).run r = if (forgotten r).cursor.isDone then (.ok false, forgotten r)
    else (nextWithin t (t.supply r.client.world.net + 2)).run (forgotten r) := by
  rw [next, run_bind_of_ok (run_update _ _), run_bind_of_ok (run_cursor _)]
  change (if (forgotten r).cursor.isDone = true then pure false
    else supply t >>= fun n => nextWithin t (n + 2) : Reading σ Bool).run (forgotten r) = _
  split <;> rfl

namespace Course

/-- A fetch that succeeds puts the rows that come in the buffer. -/
theorem Fetch.fed {conn : Connection} (h : Fetch t L conn r (.ok ()) r') :
    (r.client.account L).Fed (r'.client.account L) ∧
      ∀ given, r.Flows L given → r'.Flows L given := by
  have hflows {a : Response} (given : List Datum) (h : r.Flows L given) (ha : r'.cursor =
      { r'.cursor with token := r.cursor.token, buffer := r.cursor.buffer ++ a.values })
      (harrived : (r'.client.account L).arrived r.cursor.token =
        (r.client.account L).arrived r.cursor.token ++ a.values) : r'.Flows L given := by
    rw [Flows, ha]
    dsimp only
    rw [harrived, ← h, List.append_assoc]
  cases h with
  | @more a k hround hshape =>
      obtain ⟨hrounds, harrived⟩ :=
        (Client.roundTrip_exchanged (L := L) hround).1.arrived_of_ok
      rw [Round.batch_of_feeds rfl (.inl hshape)] at harrived
      exact ⟨⟨[_], hrounds, List.forall_mem_singleton.2 ⟨a, rfl, .inl hshape⟩⟩,
        fun given h => hflows given h rfl harrived⟩
  | @last a k k' hround hshape hrelease =>
      obtain ⟨hrounds, harrived⟩ :=
        (Client.roundTrip_exchanged (L := L) hround).1.arrived_of_ok
      rw [Round.batch_of_feeds rfl (.inr hshape)] at harrived
      have hreleased := (Client.release_released (L := L) hrelease).2.rounds
      refine ⟨⟨[_], hreleased.trans hrounds,
        List.forall_mem_singleton.2 ⟨a, rfl, .inr hshape⟩⟩, fun given h => hflows given h rfl ?_⟩
      rw [Account.arrived_eq_of_rounds hreleased]
      exact harrived

/-- A fetch that fails brings no rows. -/
theorem Fetch.arrived {conn : Connection} {f : Failure} (h : Fetch t L conn r (.error f) r') :
    (r'.client.account L).arrived r.cursor.token = (r.client.account L).arrived r.cursor.token := by
  have hrejected {a : Response} {k : Client σ}
      (hround : (Client.roundTrip t conn (.followUp .continue r.cursor.token)).run r.client =
        (.ok a, k))
      (hshape : Shape.ofResponse? a = none ∨ Shape.ofResponse? a = some .atom) :
      (k.account L).arrived r.cursor.token = (r.client.account L).arrived r.cursor.token := by
    have harrived := (Client.roundTrip_exchanged (L := L) hround).1.arrived_of_ok.2
    rw [Round.batch_of_rejected rfl hshape, List.append_nil] at harrived
    exact harrived
  cases h with
  | unanswered hround => exact (Client.roundTrip_exchanged (L := L) hround).1.arrived_of_error
  | refused hround => exact (Client.roundTrip_exchanged (L := L) hround).1.arrived_of_error
  | @reported a k k₁ k' query hround hfailure hrelease haccount hsession htold =>
      have hshape : Shape.ofResponse? a = none := by
        cases hs : Shape.ofResponse? a with
        | none => rfl
        | some shape =>
            rw [Shape.failure?_of_ofResponse? hs] at hfailure
            cases hfailure
      have hreleased := (Client.release_released (L := L) hrelease).2.rounds
      change (k'.account L).arrived r.cursor.token = _
      rw [haccount, Account.arrived_eq_of_rounds hreleased]
      exact hrejected hround (.inl hshape)
  | @unexpected a k k' hround hshape hfailure hdiscard =>
      have haccount := (Client.discard_cases (L := L) hdiscard).2.1
      have hshut : (k'.account L).rounds = (k.account L).rounds := by
        rw [haccount, Account.rounds_shut]
      rw [Account.arrived_eq_of_rounds hshut]
      exact hrejected hround hshape

/-- A fetch that fails by an error of the driver breaks the stream off. -/
theorem Fetch.breaks {conn : Connection} {e : DriverError} {k : Client σ}
    (h : Fetch t L conn r (.error (.driver e)) r') (haccount : k.account L = r'.client.account L)
    (hsession : k.session = r'.client.session) :
    Client.Breaks t L conn r.cursor.token r.cursor.rendering r.client k e := by
  cases h with
  | unanswered hround =>
      obtain ⟨hexchanged, hsame⟩ := Client.roundTrip_exchanged (L := L) hround
      exact .unanswered hround (haccount ▸ hexchanged.closed) (hsession.trans hsame)
  | reported hround hfailure hrelease haccount' hsession' htold =>
      exact .reported hround hfailure hrelease (haccount.trans haccount')
        (hsession.trans hsession')
  | unexpected hround hshape hfailure hdiscard =>
      obtain ⟨-, hsame⟩ := Client.roundTrip_exchanged (L := L) hround
      obtain ⟨-, hshut, hdiscarded⟩ := Client.discard_cases (L := L) hdiscard
      refine .unexpected hround hshape hfailure ?_ ((hsession.trans hdiscarded).trans hsame)
      rw [haccount]
      exact hshut ▸ Account.mem_closed_shut.2 (.inl rfl)

end Course

/-- What going on to the next row comes to. -/
inductive Going (t : Transport σ τ) (L : Ledger t) (r : Reader σ) :
    Except Failure Bool → Reader σ → Prop
  | row {d : Datum} {r' : Reader σ} (hcurrent : r'.cursor.current = some d)
      (hflows : ∀ given, r.Flows L given → r'.Flows L (given ++ [d]))
      (hfed : (r.client.account L).Fed (r'.client.account L)) : Going t L r (.ok true) r'
  /-- There are no more rows, and there was no error in between. -/
  | ended {r' : Reader σ} (hspent : r'.cursor.Spent)
      (hflows : ∀ given, r.Flows L given → r'.Flows L given)
      (hfed : (r.client.account L).Fed (r'.client.account L))
      (herror : r'.cursor.error = r.cursor.error) : Going t L r (.ok false) r'
  /-- The stream was broken off behind the rows that have arrived. -/
  | broken {k : Client σ} {r' : Reader σ} {conn : Connection} {e : DriverError}
      (hspent : r'.cursor.Spent) (hflows : ∀ given, r.Flows L given → r'.Flows L given)
      (hconn : r.cursor.connection = some conn) (hfed : (r.client.account L).Fed (k.account L))
      (hbreaks : Client.Breaks t L conn r.cursor.token r.cursor.rendering k r'.client e)
      (herror : r'.cursor.error = some (e.withQuery r.cursor.rendering)) :
    Going t L r (.ok false) r'
  /-- The line would not be armed, and the cursor keeps the connection. -/
  | refused {r' : Reader σ} {f : Fault} (hf : f.IsRefusal) (hbuffer : r'.cursor.buffer = [])
      (hflows : ∀ given, r.Flows L given → r'.Flows L given) {conn : Connection}
      (hconn : r.cursor.connection = some conn) (hkept : r'.cursor.connection = some conn) :
    Going t L r (.error (.fault f)) r'

/-- What was fetched in front of it. -/
theorem Going.of_fed {o : Except Failure Bool} (h : Going t L r₁ o r')
    (hfed : (r.client.account L).Fed (r₁.client.account L))
    (hfirst : ∀ given, r.Flows L given → r₁.Flows L given)
    (htoken : r₁.cursor.token = r.cursor.token)
    (hrendering : r₁.cursor.rendering = r.cursor.rendering)
    (herror : r₁.cursor.error = r.cursor.error)
    (hheld : ∀ conn, r₁.cursor.connection = some conn → r.cursor.connection = some conn) :
    Going t L r o r' := by
  cases h with
  | row hcurrent hflows hfed' =>
      exact .row hcurrent (fun given h => hflows given (hfirst given h)) (hfed.trans hfed')
  | ended hspent hflows hfed' he =>
      exact .ended hspent (fun given h => hflows given (hfirst given h)) (hfed.trans hfed')
        (he.trans herror)
  | broken hspent hflows hconn hfed' hbreaks he =>
      rw [htoken, hrendering] at hbreaks
      rw [hrendering] at he
      exact .broken hspent (fun given h => hflows given (hfirst given h)) (hheld _ hconn)
        (hfed.trans hfed') hbreaks he
  | refused hf hbuffer hflows hconn hkept =>
      exact .refused hf hbuffer (fun given h => hflows given (hfirst given h)) (hheld _ hconn) hkept

theorem going_of_nextWithin (hmetered : Metered t) {fuel : Nat} (hr : r.cursor.Apt)
    (hfuel : t.supply r.client.world.net < fuel) {o : Except Failure Bool}
    (hrun : (nextWithin t fuel).run r = (o, r')) : Going t L r o r' := by
  induction fuel generalizing r with
  | zero => exact absurd hfuel (Nat.not_lt_zero _)
  | succ fuel ih =>
      rw [nextWithin] at hrun
      rcases hstep : (step t).run r with ⟨os, r₁⟩
      have hstepped := step_of_run (L := L) hr hstep
      obtain ⟨hmoves, hcares⟩ := hstepped.moves hr
      cases hstepped with
      | @found d ds hbuffer =>
          rw [run_bind_of_ok hstep] at hrun
          cases hrun
          refine .row rfl (fun given hflows => ?_) (.refl _)
          rw [Flows, List.append_assoc]
          exact (congrArg (given ++ ·) hbuffer).symm.trans hflows
      | ended hbuffer hconn =>
          rw [run_bind_of_ok hstep] at hrun
          cases hrun
          refine .ended ⟨rfl, rfl⟩ (fun given hflows => ?_) (.refl _) rfl
          rw [Flows, hbuffer] at hflows
          exact hflows
      | @fetched conn r₁ hbuffer hconn hfetched hfetch =>
          rw [run_bind_of_ok hstep] at hrun
          obtain ⟨hfed, hflows⟩ := hfetch.fed
          have hweight := (fetched_of_fetchMore (L := L) hr.attached hfetched).weight_lt hmetered
          have hless : t.supply r₁.client.world.net < fuel := by
            simp only [weight, hbuffer, List.length_nil] at hweight
            omega
          refine (ih hmoves.apt hless hrun).of_fed hfed hflows hmoves.same.token ?_ ?_
            fun conn hconn => hcares.held hconn
          · rw [Cursor.rendering, hmoves.expression, Cursor.rendering]
          · cases hfetch <;> rfl
      | @failed conn e r₂ k query hbuffer hconn hfetch haccount hsession htold =>
          rw [run_bind_of_ok hstep] at hrun
          cases hrun
          obtain ⟨query₂, hcursor, -⟩ := hfetch.of_error hr
          refine .broken ⟨rfl, rfl⟩ (fun given hflows => ?_) hconn (.refl _)
            (hfetch.breaks haccount hsession) rfl
          have htoken : r₂.cursor.token = r.cursor.token := by rw [hcursor]; rfl
          rw [Flows]
          dsimp only [Cursor.ended, Cursor.latch]
          rw [htoken, haccount, hfetch.arrived, ← hflows, hbuffer]
      | @refused conn f r₂ hbuffer hconn hfetch =>
          rw [run_bind_of_error hstep] at hrun
          cases hrun
          have harrived := hfetch.arrived
          cases hfetch with
          | refused hround =>
              have hrefusal := (Client.roundTrip_exchanged (L := L) hround).1.isRefusal
              exact .refused hrefusal hbuffer (fun given hflows => hflows.trans harrived.symm)
                hconn hconn

theorem going_of_next (hmetered : Metered t) (hr : r.cursor.Apt) {o : Except Failure Bool}
    (hrun : (next t).run r = (o, r')) : Going t L r o r' := by
  rw [run_next] at hrun
  have hforgotten : (forgotten r).cursor.Apt := ((tends_forget (L := L) r hr).1).apt
  split at hrun
  · rename_i hdone
    cases hrun
    exact .ended (hforgotten.isDone_iff.1 hdone) (fun _ => id) (.refl _) rfl
  · exact (going_of_nextWithin hmetered hforgotten (Nat.lt_add_of_pos_right (by decide))
      hrun).of_fed (.refl _) (fun _ => id) rfl rfl rfl fun _ => id

/-- A cursor that is spent has no next row. -/
theorem run_next_of_spent (hspent : r.cursor.Spent) :
    (next t).run r = (.ok false, forgotten r) := by
  have hdone : (forgotten r).cursor.isDone = true := by
    simp [forgotten, Cursor.isDone, hspent.1, hspent.2]
  rw [run_next, if_pos hdone]

/-- When going on finds no row, there will be none. -/
theorem Going.spent (h : Going t L r (.ok false) r') : r'.cursor.Spent := by
  cases h with
  | ended hspent hflows hfed herror => exact hspent
  | broken hspent hflows hconn hfed hbreaks herror => exact hspent

end Reading

end QueryDriver
