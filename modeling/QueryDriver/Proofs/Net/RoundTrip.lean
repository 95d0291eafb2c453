import QueryDriver.Proofs.Net.Preserving

/-!
# What a round trip does

A round trip on an open line begins a round. It ends in one of three ways: the round is
answered by a response that carries the token of the query, or an error of the driver has
closed the line, or the line would not be armed and nothing else has happened. A round
trip on a closed line is an error of the driver and begins nothing.

Dialing is alike: there is no line, or a new line was greeted, or it was closed again, or
it would not be armed for the greeting.
-/

namespace QueryDriver.Net

open Wire

variable {σ τ α γ : Type} {t : Transport σ τ} {L : Ledger t} {f : World σ → γ}

namespace Action

@[simp] theorem run_get (w : World σ) : (get : Action σ (World σ)).run w = (.ok w, w) := rfl

@[simp] theorem run_modify (f : World σ → World σ) (w : World σ) :
    (modify f : Action σ Unit).run w = (.ok (), f w) := rfl

@[simp] theorem run_onNet (operation : σ → Except SocketFault α × σ) (w : World σ) :
    (onNet operation).run w = (.ok (operation w.net).1, { w with net := (operation w.net).2 }) :=
  rfl

@[simp] theorem run_record (e : LogEntry) (w : World σ) :
    (record e : Action σ Unit).run w = (.ok (), { w with journal := w.journal.record e }) := rfl

theorem run_observe {action : Action σ α} {w w' : World σ} {o : Except Failure α}
    (h : action.run w = (o, w')) : (observe action).run w = (.ok o, w') := by
  have hrun : (observe action).run w = (.ok (action.run w).1, (action.run w).2) := rfl
  rw [hrun, h]

@[simp] theorem run_settle (o : Except Failure α) (w : World σ) :
    (settle o : Action σ α).run w = (o, w) := by
  cases o <;> rfl

end Action

namespace Connection

@[simp] theorem run_isClosed (c : Connection) (w : World σ) :
    (c.isClosed : Action σ Bool).run w = (.ok (w.closed.contains c.line), w) := rfl

/-- Closing a line does nothing when it is closed already, and else it tells the transport once,
the line being closed whatever the answer is. -/
theorem close_parts {c : Connection} {w w' : World σ} {o : Except Failure Unit}
    (h : (c.close t).run w = (o, w')) :
    (c.line ∈ w.closed ∧ o = .ok () ∧ w' = w) ∨
      c.line ∉ w.closed ∧
        o = (t.close c.line w.net).1.mapError
          (fun fault => .ofCause (.closeFailed c.peer fault.text)) ∧
        w' = { w with closed := c.line :: w.closed, net := (t.close c.line w.net).2 } := by
  rw [close, run_bind_of_ok (run_isClosed c w)] at h
  split at h
  · rename_i hmem
    cases h
    exact .inl ⟨by simpa using hmem, rfl, rfl⟩
  · rename_i hmem
    rw [run_bind_of_ok (Action.run_modify _ _), run_bind_of_ok (Action.run_onNet _ _)] at h
    refine .inr ⟨by simpa using hmem, ?_⟩
    split at h <;> rename_i hanswer <;> cases h <;> exact ⟨by rw [hanswer]; rfl, rfl⟩

/-- Closing a line closes it, and fails only by an error of the driver. -/
theorem close_cases {c : Connection} {w w' : World σ} {o : Except Failure Unit}
    (h : (c.close t).run w = (o, w')) :
    w'.account L = (w.account L).shut c.line ∧ (o = .ok () ∨ ∃ e, o = .error (.driver e)) := by
  obtain ⟨hmem, rfl, rfl⟩ | ⟨hmem, rfl, rfl⟩ := close_parts h
  · exact ⟨(if_pos hmem).symm, .inl rfl⟩
  · have hopen : c.line ∉ (w.account L).closed := hmem
    refine ⟨?_, ?_⟩
    · rw [Account.shut, if_neg hopen, World.account, L.opened_close]
      rfl
    · cases (t.close c.line w.net).1 with
      | ok u => exact .inl rfl
      | error fault => exact .inr ⟨_, rfl⟩

theorem abort_cases {c : Connection} {w w' : World σ} {o : Except Failure Unit}
    (h : (c.abort t).run w = (o, w')) :
    w'.account L = (w.account L).shut c.line ∧ o = .ok () := by
  rcases hclose : (c.close t).run w with ⟨oc, w₁⟩
  obtain ⟨haccount, hoc⟩ := close_cases (L := L) hclose
  rw [abort, run_bind_of_ok (Action.run_observe hclose)] at h
  split at h
  · cases h
    exact ⟨haccount, rfl⟩
  · have hplain : Plain L (Action.record .abortFailed : Action σ Unit) := .record trivial
    refine ⟨(hplain.account h).trans haccount, ?_⟩
    cases h
    rfl

/-- Closing a line does to the network that at most, and it is closed afterwards. -/
theorem close_net {c : Connection} {w w' : World σ} {o : Except Failure Unit}
    (h : (c.close t).run w = (o, w')) :
    c.line ∈ w'.closed ∧ w'.frameLimit = w.frameLimit ∧
      (w'.net = w.net ∨ w'.net = (t.close c.line w.net).2) := by
  obtain ⟨hmem, -, rfl⟩ | ⟨-, -, rfl⟩ := close_parts h
  · exact ⟨hmem, rfl, .inl rfl⟩
  · exact ⟨List.mem_cons_self, rfl, .inr rfl⟩

theorem abort_net (c : Connection) (w : World σ) : ∃ w', (c.abort t).run w = (.ok (), w') ∧
    c.line ∈ w'.closed ∧ w'.frameLimit = w.frameLimit ∧
      (w'.net = w.net ∨ w'.net = (t.close c.line w.net).2) := by
  rcases hclose : (c.close t).run w with ⟨o, w₁⟩
  have hnet := close_net hclose
  rw [abort, run_bind_of_ok (Action.run_observe hclose)]
  cases o with
  | error e => exact ⟨{ w₁ with journal := w₁.journal.record .abortFailed }, rfl, hnet⟩
  | ok u => exact ⟨w₁, rfl, hnet⟩

theorem exists_run_clearDeadline (c : Connection) (w : World σ) :
    ∃ w', (c.clearDeadline t).run w = (.ok (), w') := by
  rw [clearDeadline, run_bind_of_ok (run_isClosed c w)]
  split
  · exact ⟨w, rfl⟩
  · rw [run_bind_of_ok (Action.run_onNet _ _)]
    split <;> exact ⟨_, rfl⟩

theorem run_clearDeadline_closed {c : Connection} {w : World σ} (h : c.line ∈ w.closed) :
    (c.clearDeadline t).run w = (.ok (), w) := by
  rw [clearDeadline, run_bind_of_ok (run_isClosed c w), if_pos (by simpa using h)]
  rfl

theorem clearDeadline_cases {c : Connection} {w w' : World σ} {o : Except Failure Unit}
    (h : (c.clearDeadline t).run w = (o, w')) : w'.account L = w.account L ∧ o = .ok () := by
  refine ⟨(preserves_clearDeadline (World.account_awaitsFreely _)).same h, ?_⟩
  obtain ⟨w₁, hrun⟩ := exists_run_clearDeadline (t := t) c w
  rw [hrun] at h
  cases h
  rfl

/-- A guarded action has its own outcome, and then the deadline is cleared. An error of the
driver closes the line before that. -/
theorem guarded_parts {c : Connection} {action : Action σ α} {w w' : World σ}
    {o : Except Failure α} (h : (c.guarded t action).run w = (o, w')) :
    ∃ w₁ w₂, action.run w = (o, w₁) ∧ (c.clearDeadline t).run w₂ = (.ok (), w') ∧
      ((∃ e, o = .error (.driver e)) ∧ (c.abort t).run w₁ = (.ok (), w₂) ∨
        (∀ e, o ≠ .error (.driver e)) ∧ w₂ = w₁) := by
  rcases haction : action.run w with ⟨oa, w₁⟩
  have hclear {w₂ : World σ} (h : (do c.clearDeadline t; Action.settle oa).run w₂ = (o, w')) :
      oa = o ∧ (c.clearDeadline t).run w₂ = (.ok (), w') := by
    obtain ⟨w₃, hrun⟩ := exists_run_clearDeadline (t := t) c w₂
    rw [run_bind_of_ok hrun, Action.run_settle] at h
    cases h
    exact ⟨rfl, hrun⟩
  rw [guarded, run_bind_of_ok (Action.run_observe haction)] at h
  rcases oa with (e | f) | x <;> dsimp only at h
  · obtain ⟨w₂, habort, -⟩ := abort_net (t := t) c w₁
    rw [run_bind_of_ok habort] at h
    obtain ⟨rfl, hw'⟩ := hclear h
    exact ⟨w₁, w₂, rfl, hw', .inl ⟨⟨e, rfl⟩, habort⟩⟩
  · obtain ⟨rfl, hw'⟩ := hclear h
    exact ⟨w₁, w₁, rfl, hw', .inr ⟨fun e he => (by cases he), rfl⟩⟩
  · obtain ⟨rfl, hw'⟩ := hclear h
    exact ⟨w₁, w₁, rfl, hw', .inr ⟨fun e he => (by cases he), rfl⟩⟩

/-- What becomes of a plain part of a round trip: it was carried out, or an error of the
driver has closed the line, or the line would not be armed. -/
theorem guarded_cases {c : Connection} {action : Action σ α} (ha : Plain L action)
    {w w' : World σ} {o : Except Failure α} (h : (c.guarded t action).run w = (o, w')) :
    (∃ x w₁, action.run w = (.ok x, w₁) ∧ o = .ok x ∧ w'.account L = w.account L) ∨
      (∃ e, o = .error (.driver e) ∧ w'.account L = (w.account L).shut c.line) ∨
        ∃ f, o = .error (.fault f) ∧ f.IsRefusal ∧ w'.account L = w.account L := by
  obtain ⟨w₁, w₂, haction, hclear, ⟨⟨e, rfl⟩, habort⟩ | ⟨hne, rfl⟩⟩ := guarded_parts h
  · obtain ⟨hw', -⟩ := clearDeadline_cases (L := L) hclear
    obtain ⟨hw₂, -⟩ := abort_cases (L := L) habort
    exact .inr (.inl ⟨e, rfl, by rw [hw', hw₂, ha.account haction]⟩)
  · obtain ⟨hw', -⟩ := clearDeadline_cases (L := L) hclear
    have hsame := hw'.trans (ha.account haction)
    rcases o with (e | f) | x
    · exact (hne e rfl).elim
    · exact .inr (.inr ⟨f, rfl, ha.refusal haction, hsame⟩)
    · exact .inl ⟨x, w₂, haction, rfl, hsame⟩

/-- Nothing else can be read off the network after a guarded action than after the action. -/
theorem guarded_preserves {c : Connection} (hawaits : AwaitsFreely t c.line f)
    (hcloses : ClosesFreely t c.line f) {action : Action σ α} {w w' : World σ}
    {o : Except Failure α} (h : (c.guarded t action).run w = (o, w')) :
    ∃ w₁, action.run w = (o, w₁) ∧ f w' = f w₁ := by
  obtain ⟨w₁, w₂, haction, hclear, ⟨-, habort⟩ | ⟨-, rfl⟩⟩ := guarded_parts h
  · have hw₂ := (preserves_abort hawaits hcloses).same habort
    exact ⟨w₁, haction, ((preserves_clearDeadline hawaits).same hclear).trans hw₂⟩
  · exact ⟨w₂, haction, (preserves_clearDeadline hawaits).same hclear⟩

variable [Clock τ]

theorem plain_writeWithin (c : Connection) (deadline : Option τ) (fuel : Nat) (data : Bytes) :
    Plain L (c.writeWithin t deadline fuel data) :=
  (preserves_writeWithin (World.account_awaitsFreely _).arm (World.account_send _) fuel data).plain

/-- The response that a round trip accepts carries the token that it waited for. -/
theorem tokenValue_of_awaitWithin {c : Connection} {deadline : Option τ} {token : Int64}
    {fuel : Nat} {w w' : World σ} {r : Response}
    (h : (c.awaitWithin t deadline token fuel).run w = (.ok r, w')) : r.tokenValue = token := by
  induction fuel generalizing w with
  | zero => cases h
  | succ fuel ih =>
      obtain ⟨r₁, w₁, -, h⟩ | ⟨e, -, he⟩ := run_bind_cases h
      · split at h
        · rw [run_bind_of_ok (Action.run_record _ _)] at h
          exact ih h
        · split at h
          · cases h
          · rename_i hge hle
            cases h
            exact Int64.le_antisymm (Int64.not_lt.1 hle) (Int64.not_lt.1 hge)
      · cases he

/-- How a round trip of a query on a line can go, and what becomes of the account. -/
inductive Exchanged (n : Nat) (query : Query) (a : Account) :
    Except Failure Response → Account → Prop
  /-- The line is closed, and the query was not begun. -/
  | unbegun (e : DriverError) (hclosed : n ∈ a.closed) :
    Exchanged n query a (.error (.driver e)) a
  | answered (r : Response) (hopen : n ∉ a.closed) (htoken : r.tokenValue = query.tokenValue) :
    Exchanged n query a (.ok r) (a.begin ⟨n, query, some r⟩)
  /-- An error of the driver has closed the line. -/
  | failed (e : DriverError) (hopen : n ∉ a.closed) :
    Exchanged n query a (.error (.driver e)) ((a.begin ⟨n, query, none⟩).shut n)
  /-- The line would not be armed. -/
  | refused (f : Fault) (hopen : n ∉ a.closed) (hf : f.IsRefusal) :
    Exchanged n query a (.error (.fault f)) (a.begin ⟨n, query, none⟩)

theorem Exchanged.open_of_ok {n : Nat} {query : Query} {a a' : Account} {r : Response}
    (h : Exchanged n query a (.ok r) a') : n ∉ a'.closed := by
  cases h with
  | answered r hopen htoken => exact hopen

/-- Whatever a round trip comes to, it has begun one query at most, on its line. -/
theorem Exchanged.exists_rounds {n : Nat} {query : Query} {a a' : Account} {o : Except Failure Response}
    (h : Exchanged n query a o a') : ∃ new, a'.rounds = new ++ a.rounds ∧
      ∀ x ∈ new, x.line = n ∧ x.token = query.tokenValue := by
  cases h with
  | unbegun e hclosed => exact ⟨[], rfl, List.forall_mem_nil _⟩
  | answered r hopen htoken => exact ⟨[_], rfl, List.forall_mem_singleton.2 ⟨rfl, rfl⟩⟩
  | failed e hopen =>
      rw [Account.rounds_shut]
      exact ⟨[_], rfl, List.forall_mem_singleton.2 ⟨rfl, rfl⟩⟩
  | refused f hopen hf => exact ⟨[_], rfl, List.forall_mem_singleton.2 ⟨rfl, rfl⟩⟩

/-- A round trip takes back no round. -/
theorem Exchanged.suffix {n : Nat} {query : Query} {a a' : Account}
    {o : Except Failure Response} (h : Exchanged n query a o a') : a.rounds <:+ a'.rounds := by
  obtain ⟨new, hnew, -⟩ := h.exists_rounds
  exact ⟨new, hnew.symm⟩

/-- An error of the driver leaves the line closed. -/
theorem Exchanged.closed {n : Nat} {query : Query} {a a' : Account} {e : DriverError}
    (h : Exchanged n query a (.error (.driver e)) a') : n ∈ a'.closed := by
  cases h with
  | unbegun e hclosed => exact hclosed
  | failed e hopen => exact Account.mem_closed_shut.2 (.inl rfl)

/-- A fault is a refusal. -/
theorem Exchanged.isRefusal {n : Nat} {query : Query} {a a' : Account} {f : Fault}
    (h : Exchanged n query a (.error (.fault f)) a') : f.IsRefusal := by
  cases h with
  | refused f hopen hf => exact hf

theorem plain_exchange (c : Connection) (query : Query) (deadline : Option τ) :
    Plain L (c.exchange t query deadline) :=
  (preserves_exchange (World.account_awaitsFreely _) (World.account_send _) query).plain

theorem tokenValue_of_exchange {c : Connection} {query : Query} {deadline : Option τ}
    {w w' : World σ} {r : Response} (h : (c.exchange t query deadline).run w = (.ok r, w')) :
    r.tokenValue = query.tokenValue := by
  rw [exchange, run_bind_of_ok (Action.run_get w)] at h
  dsimp only at h
  split at h
  · cases h
  · obtain ⟨u, w₁, -, h⟩ | ⟨e, -, he⟩ := run_bind_cases h
    · rw [await, run_bind_of_ok (Action.run_get w₁)] at h
      exact tokenValue_of_awaitWithin h
    · cases he

/-- A round trip on a closed line does nothing. -/
theorem run_execute_closed {c : Connection} {query : Query} {timeout : Option τ} {w : World σ}
    (hclosed : c.line ∈ w.closed) :
    (c.execute t query timeout).run w = (.error (.ofCause .connectionClosed), w) := by
  rw [execute, run_bind_of_ok (run_isClosed c w), if_pos (by simpa using hclosed)]
  rfl

/-- A round trip on an open line is an exchange, guarded, and a note of the response. -/
theorem run_execute_open {c : Connection} {query : Query} {timeout : Option τ} {w : World σ}
    (hopen : c.line ∉ w.closed) :
    (c.execute t query timeout).run w = (do
      let r ← c.guarded t (c.exchange t query
        (timeout.map fun span => Clock.after (t.now w.net) span))
      Action.record (.received c.line c.peer r)
      return r).run { w with journal := w.journal.record (.sending c.line c.peer query) } := by
  have hdeadline : (deadlineFrom t timeout : Action σ _).run w =
      (.ok (timeout.map fun span => Clock.after (t.now w.net) span), w) := rfl
  rw [execute, run_bind_of_ok (run_isClosed c w), if_neg (by simpa using hopen),
    run_bind_of_ok hdeadline, run_bind_of_ok (Action.run_record _ _)]

theorem execute_parts {c : Connection} {query : Query} {timeout : Option τ} {w w' : World σ}
    {o : Except Failure Response} (hopen : c.line ∉ w.closed)
    (h : (c.execute t query timeout).run w = (o, w')) : ∃ w₁,
      (c.guarded t (c.exchange t query
          (timeout.map fun span => Clock.after (t.now w.net) span))).run
        { w with journal := w.journal.record (.sending c.line c.peer query) } = (o, w₁) ∧
      ((∃ e, o = .error e) ∧ w' = w₁ ∨ ∃ r, o = .ok r ∧
        w' = { w₁ with journal := w₁.journal.record (.received c.line c.peer r) }) := by
  rw [run_execute_open hopen] at h
  obtain ⟨r, w₁, hguarded, hrecord⟩ | ⟨e, hguarded, rfl⟩ := run_bind_cases h
  · cases hrecord
    exact ⟨w₁, hguarded, .inr ⟨r, rfl, rfl⟩⟩
  · exact ⟨w', hguarded, .inl ⟨⟨e, rfl⟩, rfl⟩⟩

/-- When the query is written, its answer is awaited. -/
theorem run_exchange_written {c : Connection} {query : Query} {deadline : Option τ}
    {w w₁ : World σ} {frame : Bytes} (hwrite : (c.write t deadline frame).run w = (.ok (), w₁))
    (hframe : encodeFrame w.frameLimit query.encode = .ok frame) :
    (c.exchange t query deadline).run w = (c.await t deadline query.tokenValue).run w₁ := by
  rw [exchange, run_bind_of_ok (Action.run_get w)]
  dsimp only
  rw [hframe]
  exact run_bind_of_ok hwrite

/-- A round trip on an open line is an exchange with the outcome of the round trip, and nothing
else can be read off the network afterwards than after the exchange. -/
theorem execute_preserves {c : Connection} (hawaits : AwaitsFreely t c.line f)
    (hcloses : ClosesFreely t c.line f)
    (hreceived : ∀ r w, f { w with journal := w.journal.record (.received c.line c.peer r) } = f w)
    {query : Query} {timeout : Option τ} {w w' : World σ} {o : Except Failure Response}
    (hopen : c.line ∉ w.closed) (h : (c.execute t query timeout).run w = (o, w')) :
    ∃ deadline w₁, (c.exchange t query deadline).run
        { w with journal := w.journal.record (.sending c.line c.peer query) } = (o, w₁) ∧
      f w' = f w₁ := by
  obtain ⟨w₂, hguarded, hw'⟩ := execute_parts hopen h
  obtain ⟨w₁, hexchange, hw₂⟩ := guarded_preserves hawaits hcloses hguarded
  refine ⟨_, w₁, hexchange, Eq.trans ?_ hw₂⟩
  obtain ⟨-, rfl⟩ | ⟨r, -, rfl⟩ := hw'
  · rfl
  · exact hreceived r w₂

theorem frameLimit_execute {c : Connection} {query : Query} {timeout : Option τ}
    {w w' : World σ} {o : Except Failure Response}
    (h : (c.execute t query timeout).run w = (o, w')) : w'.frameLimit = w.frameLimit := by
  by_cases hclosed : c.line ∈ w.closed
  · rw [run_execute_closed hclosed] at h
    cases h
    rfl
  · have hawaits : AwaitsFreely t c.line World.frameLimit :=
      ⟨fun _ _ => rfl, fun _ _ => rfl, fun _ _ => rfl⟩
    obtain ⟨deadline, w₁, hexchange, hw'⟩ := execute_preserves hawaits
      ⟨fun _ => rfl, fun _ _ => rfl⟩ (fun _ _ => rfl) hclosed h
    have hw₁ := (preserves_exchange hawaits (fun _ _ _ => rfl) query).same hexchange
    exact hw'.trans hw₁

theorem execute_exchanged {c : Connection} {query : Query} {timeout : Option τ}
    {w w' : World σ} {o : Except Failure Response}
    (h : (c.execute t query timeout).run w = (o, w')) :
    Exchanged c.line query (w.account L) o (w'.account L) := by
  by_cases hclosed : c.line ∈ w.closed
  · rw [run_execute_closed hclosed] at h
    cases h
    exact .unbegun _ hclosed
  · have hopen : c.line ∉ (w.account L).closed := hclosed
    obtain ⟨w₁, hguarded, hw'⟩ := execute_parts hclosed h
    have hbegin :
        { w with journal := w.journal.record (.sending c.line c.peer query) }.account L =
          (w.account L).begin ⟨c.line, query, none⟩ := rfl
    obtain ⟨r, w₂, hexchange, rfl, haccount⟩ | ⟨e, rfl, haccount⟩ | ⟨f, rfl, hrefusal, haccount⟩ :=
      guarded_cases (plain_exchange (L := L) c query _) hguarded
    · obtain ⟨⟨e, he⟩, -⟩ | ⟨r', hr, rfl⟩ := hw'
      · cases he
      · cases hr
        rw [World.account_received (haccount.trans hbegin)]
        exact .answered _ hopen (tokenValue_of_exchange hexchange)
    · obtain ⟨-, rfl⟩ | ⟨r, hr, -⟩ := hw'
      · rw [haccount, hbegin]
        exact .failed e hopen
      · cases hr
    · obtain ⟨-, rfl⟩ | ⟨r, hr, -⟩ := hw'
      · rw [haccount, hbegin]
        exact .refused f hopen hrefusal
      · cases hr

/-- How dialing can go, and what becomes of the account. -/
inductive Dialed (peer : Endpoint) (a : Account) : Except Failure Connection → Account → Prop
  /-- There is no line. -/
  | unreachable (e : DriverError) : Dialed peer a (.error (.driver e)) a
  | greeted (n : Nat) (hfresh : n ∉ a.opened) :
    Dialed peer a (.ok ⟨n, peer⟩) ((a.openLine n).greet n)
  /-- An error of the driver has closed the line. -/
  | rejected (n : Nat) (e : DriverError) (hfresh : n ∉ a.opened) :
    Dialed peer a (.error (.driver e)) ((a.openLine n).shut n)
  /-- The line would not be armed. -/
  | refused (n : Nat) (f : Fault) (hfresh : n ∉ a.opened) (hf : f.IsRefusal) :
    Dialed peer a (.error (.fault f)) (a.openLine n)

/-- Dialing gets no line, or it greets a new line under guard and makes a note of that. -/
theorem dial_parts {peer : Endpoint} {timeout : Option τ} {w w' : World σ}
    {o : Except Failure Connection} (h : (dial t peer timeout).run w = (o, w')) :
    (∃ fault s e, t.dial peer timeout w.net = (.error fault, s) ∧ o = .error (.driver e) ∧
        w' = { w with net := s }) ∨
      ∃ n s deadline r w₁, t.dial peer timeout w.net = (.ok n, s) ∧
        (guarded t ⟨n, peer⟩ (write t ⟨n, peer⟩ deadline handshake)).run { w with net := s } =
          (r, w₁) ∧
        ((∃ e, r = .error e ∧ o = .error e ∧ w' = w₁) ∨ r = .ok () ∧ o = .ok ⟨n, peer⟩ ∧
          w' = { w₁ with journal := w₁.journal.record (.connected n peer) }) := by
  have hdeadline : (deadlineFrom t timeout : Action σ _).run w =
      (.ok (timeout.map fun span => Clock.after (t.now w.net) span), w) := rfl
  rw [dial, run_bind_of_ok hdeadline, run_bind_of_ok (Action.run_onNet _ _)] at h
  rcases hdial : t.dial peer timeout w.net with ⟨fault | n, s⟩
  · simp only [hdial] at h
    cases fault <;> cases h <;> exact .inl ⟨_, s, _, rfl, rfl, rfl⟩
  · simp only [hdial] at h
    obtain ⟨u, w₁, hguarded, hgreeted⟩ | ⟨e, hguarded, rfl⟩ := run_bind_cases h
    · cases hgreeted
      exact .inr ⟨n, s, _, _, w₁, rfl, hguarded, .inr ⟨rfl, rfl, rfl⟩⟩
    · exact .inr ⟨n, s, _, _, w', rfl, hguarded, .inl ⟨e, rfl, rfl, rfl⟩⟩

theorem dial_dialed {peer : Endpoint} {timeout : Option τ} {w w' : World σ}
    {o : Except Failure Connection} (h : (dial t peer timeout).run w = (o, w')) :
    Dialed peer (w.account L) o (w'.account L) := by
  obtain ⟨fault, s, e, hdial, rfl, rfl⟩ | ⟨n, s, deadline, r, w₁, hdial, hguarded, hw'⟩ :=
    dial_parts h
  · have hsame : { w with net := s }.account L = w.account L := by
      simp only [World.account, L.opened_dial_error hdial]
    rw [hsame]
    exact .unreachable e
  · have hfresh : n ∉ (w.account L).opened := L.fresh_dial hdial
    have hline : { w with net := s }.account L = (w.account L).openLine n := by
      simp only [World.account, L.opened_dial_ok hdial, Account.openLine]
    obtain ⟨x, w₂, -, rfl, haccount⟩ | ⟨e, rfl, haccount⟩ | ⟨f, rfl, hrefusal, haccount⟩ :=
      guarded_cases (plain_writeWithin (L := L) _ _ _ _) hguarded
    · obtain ⟨e, he, -⟩ | ⟨-, rfl, rfl⟩ := hw'
      · cases he
      · have hgreeted : { w₁ with journal := w₁.journal.record (.connected n peer) }.account L =
            (w₁.account L).greet n := rfl
        rw [hgreeted, haccount, hline]
        exact .greeted n hfresh
    · obtain ⟨e', he, rfl, rfl⟩ | ⟨hr, -⟩ := hw'
      · cases he
        rw [haccount, hline]
        exact .rejected n e hfresh
      · cases hr
    · obtain ⟨e', he, rfl, rfl⟩ | ⟨hr, -⟩ := hw'
      · cases he
        rw [haccount, hline]
        exact .refused n f hfresh hrefusal
      · cases hr

end Connection

end QueryDriver.Net
