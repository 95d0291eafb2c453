import QueryDriver.Proofs.Session.Accounting
import QueryDriver.Proofs.System.Delivery
import QueryDriver.Proofs.System.Orderly

/-!
# Rows in the format that was asked for

A query asks for one format of times at most, and its cursor reads every row in that format: what
an operation gives was read off rows that the answers to the queries of the cursor have brought. So
what the server is told and what the client makes of its rows do not come apart, however the cursor
is used.
-/

namespace QueryDriver

open Net Wire

variable {σ τ α : Type} {t : Transport σ τ} {L : Ledger t}

/-- Some row that an answer to a query of the token has brought is the value, in a format. -/
def Net.Account.Tells (a : Account) (token : Int64) (format : TimeFormat) (v : Value) : Prop :=
  ∃ x ∈ a.rounds, ∃ r, x.answer = some r ∧ x.token = token ∧
    ∃ d ∈ r.values, d.unmarshal format 0 = .ok v

/-- What an answer gives was read off rows: one of them, some of them one by one, or the items of
one. -/
def Answer.ReadOff (told : Value → Prop) : Answer → Prop
  | .value v => told v
  | .values vs => (∀ v ∈ vs, told v) ∨ told (.list vs)
  | .rows vs _ => ∀ v ∈ vs, told v
  | _ => True

namespace Reader

/-- Some row that has arrived for the cursor is the value, in the format of the cursor. -/
def Tells (L : Ledger t) (r : Reader σ) (v : Value) : Prop :=
  (r.client.account L).Tells r.cursor.token r.cursor.timeFormat v

variable {r r' : Reader σ} {v : Value}

theorem Tells.onward (h : r.Tells L v) (honward : r.Onward L r') : r'.Tells L v := by
  obtain ⟨x, hx, a, ha, htoken, d, hd, hv⟩ := h
  refine ⟨x, honward.rounds.subset hx, a, ha, htoken.trans honward.same.token.symm, d, hd, ?_⟩
  rw [honward.same.timeFormat]
  exact hv

end Reader

namespace Reading

variable {smooth : Prop} {latest : Nat} {pre post : List Cursor} {r r' : Reader σ}

theorem tells_of_scan {v : Value} (hsound : r.Sound L smooth latest pre post)
    (hrun : (scan : Reading σ Value).run r = (.ok v, r')) : r' = r ∧ r.Tells L v := by
  rw [run_scan] at hrun
  obtain ⟨hv, rfl⟩ := Prod.mk.inj hrun
  refine ⟨rfl, ?_⟩
  rw [Cursor.value] at hv
  cases hcurrent : r.cursor.current with
  | none =>
      rw [hcurrent] at hv
      cases hv
  | some d =>
      rw [hcurrent] at hv
      obtain ⟨x, hx, a, ha, htoken, hd⟩ := hsound.backed.rows d (.inr hcurrent)
      exact ⟨x, hx, a, ha, htoken, d, hd, hv⟩

theorem not_ok_of_failHere {cause : Cause} {x : α} :
    (failHere cause : Reading σ α).run r ≠ (.ok x, r') := by
  intro hrun
  obtain ⟨query, r₁, -, hthrow⟩ := run_bind_ok hrun
  cases hthrow

/-- Only null and lists have items. -/
theorem items_of_run {v : Value} {vs : List Value}
    (hrun : (items v : Reading σ (List Value)).run r = (.ok vs, r')) :
    r' = r ∧ (vs = [] ∨ v = .list vs) := by
  unfold items at hrun
  split at hrun
  · cases hrun
    exact ⟨rfl, .inl rfl⟩
  · cases hrun
    exact ⟨rfl, .inr rfl⟩
  · exact (not_ok_of_failHere hrun).elim

variable [Clock τ]

theorem tells_of_rowsWithin {fuel : Nat} {vs : List Value}
    (hsound : r.Sound L smooth latest pre post)
    (hrun : (rowsWithin t fuel).run r = (.ok vs, r')) : ∀ v ∈ vs, r'.Tells L v := by
  induction fuel generalizing smooth r vs with
  | zero =>
      cases hrun
      exact List.forall_mem_nil _
  | succ fuel ih =>
      rw [rowsWithin] at hrun
      obtain ⟨found, r₁, hnext, hrun⟩ := run_bind_ok hrun
      obtain ⟨hsound₁, -⟩ := Keeps.next (L := L) hnext hsound
      split at hrun
      · obtain ⟨v, r₂, hscan, hrest⟩ := run_bind_ok hrun
        obtain ⟨rfl, hv⟩ := tells_of_scan hsound₁ hscan
        obtain ⟨later, r₃, hrows, hlast⟩ := run_bind_ok hrest
        cases hlast
        have honward := (Keeps.rowsWithin (L := L) fuel hrows hsound₁).2
        exact List.forall_mem_cons.2 ⟨hv.onward honward, ih hsound₁ hrows⟩
      · cases hrun
        exact List.forall_mem_nil _

theorem tells_of_takeWithin {fuel : Nat} {vs : List Value} {ended : Except Failure Bool}
    (hsound : r.Sound L smooth latest pre post)
    (hrun : (takeWithin t fuel).run r = (.ok (vs, ended), r')) : ∀ v ∈ vs, r'.Tells L v := by
  induction fuel generalizing smooth r vs with
  | zero =>
      cases hrun
      exact List.forall_mem_nil _
  | succ fuel ih =>
      rw [takeWithin] at hrun
      rcases hnext : (next t).run r with ⟨on, r₁⟩
      obtain ⟨hsound₁, -⟩ := Keeps.next (L := L) hnext hsound
      rw [run_bind_of_ok (run_observe hnext)] at hrun
      rcases on with e | _ | _
      · cases hrun
        exact List.forall_mem_nil _
      · cases hrun
        exact List.forall_mem_nil _
      · dsimp only at hrun
        rcases hscan : (scan : Reading σ Value).run r₁ with ⟨e | v, r₂⟩ <;>
          rw [run_bind_of_ok (run_observe hscan)] at hrun
        · cases hrun
          exact List.forall_mem_nil _
        · obtain ⟨rfl, hv⟩ := tells_of_scan hsound₁ hscan
          obtain ⟨⟨later, ended'⟩, r₃, htake, hrun⟩ := run_bind_ok hrun
          cases hrun
          have honward := (Keeps.takeWithin (L := L) fuel htake hsound₁).2
          exact List.forall_mem_cons.2 ⟨hv.onward honward, ih hsound₁ htake⟩

/-- What was read before the cursor was closed behind it is still said then. -/
theorem closingAfter_onward {action : Reading σ α} {x : α} (ha : Keeps L Refused action)
    (hsound : r.Sound L smooth latest pre post)
    (hrun : (closingAfter t action).run r = (.ok x, r')) :
    ∃ r₁, action.run r = (.ok x, r₁) ∧ r₁.Onward L r' := by
  obtain ⟨oa, r₁, haction, hrun⟩ := closingAfter_cases hrun
  obtain ⟨u, r₂, hclose, hrun⟩ := run_bind_ok hrun
  rw [run_settle] at hrun
  cases hrun
  exact ⟨r₁, haction, (Keeps.close (L := L) hclose (ha haction hsound).1).2⟩

theorem tells_of_one {v : Value} (hsound : r.Sound L smooth latest pre post)
    (hrun : (one t).run r = (.ok v, r')) : r'.Tells L v := by
  have hread {r₁ r₂ : Reader σ} {v : Value} {smooth : Prop}
      (hsound : r₁.Sound L smooth latest pre post) (hrun : (do
        if ← next t then scan
        else
          raiseError
          failHere .noRows : Reading σ Value).run r₁ = (.ok v, r₂)) : r₂.Tells L v := by
    obtain ⟨found, r₃, hnext, hscan⟩ := run_bind_ok hrun
    split at hscan
    · obtain ⟨rfl, hv⟩ := tells_of_scan (Keeps.next (L := L) hnext hsound).1 hscan
      exact hv
    · obtain ⟨u, r₄, -, hfail⟩ := run_bind_ok hscan
      exact (not_ok_of_failHere hfail).elim
  obtain ⟨w, r₁, hclosing, hlast⟩ := run_bind_ok hrun
  obtain ⟨r₂, hreading, honward⟩ := closingAfter_onward Keeps.reading hsound hclosing
  obtain ⟨u, r₃, hraise, hrest⟩ := run_bind_ok hreading
  obtain ⟨hsound₃, -⟩ := Keeps.raiseError (L := L) hraise hsound
  rw [run_bind_of_ok (run_cursor r₃)] at hrest
  dsimp only at hrest hlast
  split at hlast
  · obtain ⟨u, r₄, hfail, -⟩ := run_bind_ok hlast
    exact (not_ok_of_failHere hfail).elim
  · cases hlast
    split at hrest
    · obtain ⟨u, r₄, hfail, -⟩ := run_bind_ok hrest
      exact (not_ok_of_failHere hfail).elim
    · exact (hread hsound₃ hrest).onward honward

theorem tells_of_all {vs : List Value} (hsound : r.Sound L smooth latest pre post)
    (hrun : (all t).run r = (.ok vs, r')) : (∀ v ∈ vs, r'.Tells L v) ∨ r'.Tells L (.list vs) := by
  obtain ⟨r₁, hremaining, honward⟩ := closingAfter_onward Keeps.remaining hsound hrun
  suffices h : (∀ v ∈ vs, r₁.Tells L v) ∨ r₁.Tells L (.list vs) from
    h.imp (fun h v hv => (h v hv).onward honward) fun h => h.onward honward
  obtain ⟨u, r₂, hraise, hrun⟩ := run_bind_ok hremaining
  obtain ⟨hsound₂, -⟩ := Keeps.raiseError (L := L) hraise hsound
  rw [run_bind_of_ok (run_cursor r₂)] at hrun
  split at hrun
  · obtain ⟨found, r₃, hnext, hitems⟩ := run_bind_ok hrun
    obtain ⟨hsound₃, -⟩ := Keeps.next (L := L) hnext hsound₂
    dsimp only at hitems
    split at hitems
    · obtain ⟨v, r₄, hscan, hlast⟩ := run_bind_ok hitems
      obtain ⟨rfl, hv⟩ := tells_of_scan hsound₃ hscan
      obtain ⟨rfl, rfl | rfl⟩ := items_of_run hlast
      · exact .inl (List.forall_mem_nil _)
      · exact .inr hv
    · obtain ⟨v, r₄, hnull, hlast⟩ := run_bind_ok hitems
      cases hnull
      cases hlast
      exact .inl (List.forall_mem_nil _)
  · exact (not_ok_of_failHere hrun).elim
  · rw [run_bind_of_ok run_rowBound] at hrun
    obtain ⟨rows, r₃, hrows, hrun⟩ := run_bind_ok hrun
    obtain ⟨hsound₃, -⟩ := Keeps.rowsWithin (L := L) _ hrows hsound₂
    obtain ⟨u, r₄, hraise, hrun⟩ := run_bind_ok hrun
    cases hrun
    have honward := (Keeps.raiseError (L := L) hraise hsound₃).2
    exact .inl fun v hv => (tells_of_rowsWithin hsound₂ hrows v hv).onward honward

theorem tells_of_iterate {limit : Option Nat} {vs : List Value} {f : Option Failure}
    (hsound : r.Sound L smooth latest pre post)
    (hrun : (iterate t limit).run r = (.ok (vs, f), r')) : ∀ v ∈ vs, r'.Tells L v := by
  rw [iterate] at hrun
  split at hrun
  · cases hrun
    exact List.forall_mem_nil _
  · rw [run_bind_of_ok run_rowBound] at hrun
    obtain ⟨⟨rows, ended⟩, r₁, htake, hrun⟩ := run_bind_ok hrun
    obtain ⟨hsound₁, -⟩ := Keeps.takeWithin (L := L) _ htake hsound
    have honward := (Keeps.endIteration (L := L) rows ended hrun hsound₁).2
    obtain ⟨oc, r₂, -, hrun⟩ := run_bind_ok hrun
    obtain ⟨oe, r₃, -, hrun⟩ := run_bind_ok hrun
    cases hrun
    exact fun v hv => (tells_of_takeWithin hsound htake v hv).onward honward

/-- What an operation on a cursor gives was read off rows of the cursor, in its format. -/
theorem readOff_of_perform {op : CursorOperation} {x : Answer}
    (hsound : r.Sound L smooth latest pre post) (hrun : (op.perform t).run r = (.ok x, r')) :
    x.ReadOff (r'.Tells L) := by
  cases op with
  | look =>
      cases hrun
      trivial
  | scan =>
      obtain ⟨v, r₁, hscan, hlast⟩ := run_bind_ok hrun
      cases hlast
      obtain ⟨rfl, hv⟩ := tells_of_scan hsound hscan
      exact hv
  | one =>
      obtain ⟨v, r₁, hone, hlast⟩ := run_bind_ok hrun
      cases hlast
      exact tells_of_one hsound hone
  | all =>
      obtain ⟨vs, r₁, hall, hlast⟩ := run_bind_ok hrun
      cases hlast
      exact tells_of_all hsound hall
  | iterate limit =>
      obtain ⟨⟨vs, f⟩, r₁, hiterate, hlast⟩ := run_bind_ok hrun
      cases hlast
      exact tells_of_iterate hsound hiterate
  | next | exhaust | close | visit =>
      obtain ⟨x, r₁, -, hlast⟩ := run_bind_ok hrun
      cases hlast
      trivial

end Reading

/-- A cursor that is made of an answer has the token and the format that are given to it, or it has
failed. -/
theorem Client.cursorOf_cases (conn : Connection) (token : Int64) (v : Value)
    (timeFormat : TimeFormat) (r : Response) :
    (cursorOf conn token v timeFormat r).shape = none ∨
      (cursorOf conn token v timeFormat r).token = token ∧
        (cursorOf conn token v timeFormat r).timeFormat = timeFormat := by
  unfold cursorOf
  split
  · exact .inr ⟨rfl, rfl⟩
  · exact .inr ⟨rfl, rfl⟩
  · exact .inl rfl

/-- A value compiles to a query that asks for the first of the formats that are met. They are met
in one order only, and the format of the scope is not among them. -/
structure Value.AsksIn (v : Value) (c : Scope) (token : Int64) (j : Journal) (q : Query)
    (formats : List Value) : Prop where
  meets (fs : List Value) : Meets c [] v j.progress.mark fs ↔ fs = formats
  asks : q.AsksFor formats
  indifferent (f : Value) : compile v (c.set .timeFormat f) token = compile v c token

theorem asksIn_of_compile {v : Value} (hv : v.Built) {c : Scope} (hc : c.Typed) {token : Int64}
    {j j' : Journal} {q : Query} (h : (compile v c token).run j = (.ok q, j')) :
    ∃ formats, v.AsksIn c token j q formats := by
  obtain ⟨formats, hmeets, -, hasks⟩ := asksFor_of_compile hv hc h
  exact ⟨formats, fun fs => ⟨fun h => h.determined hmeets, fun h => h ▸ hmeets⟩, hasks,
    fun f => compile_set_timeFormat v c f token⟩

variable [Clock τ]

/-- Only an open session hands out cursors. -/
theorem Client.open_of_run {v : Value} {k k' : Client σ} {c : Cursor}
    (h : (run t v).run k = (.ok c, k')) : k.session.closed = false := by
  rw [run, run_bind_of_ok (Action.run_session k)] at h
  cases hclosed : k.session.closed with
  | false => rfl
  | true =>
      rw [hclosed] at h
      cases h

namespace System

variable {s s₁ : System σ}

/-- Whatever is done with the system, the cursor of a number reads the rows that have arrived for
it in the format that it has. -/
def ReadsOn (t : Transport σ τ) (L : Ledger t) (i : Nat) (c : Cursor) (s : System σ) : Prop :=
  ∀ ops : List Operation, (∀ op ∈ ops, op.Managed) → ∃ c', (s.play t ops).2.cursors[i]? = some c' ∧
    c.Same c' ∧ (c.shape = none → c'.current = none ∧ c'.buffer = []) ∧
    (∀ d, c'.current = some d → ((s.play t ops).2.perform t (.cursor i .scan)).1 =
      some (Answer.value <$> d.unmarshal c.timeFormat 0)) ∧
    ∀ (op : CursorOperation) (x : Answer) (s' : System σ),
      (s.play t ops).2.perform t (.cursor i op) = (some (.ok x), s') →
        x.ReadOff ((s'.account L).Tells c.token c.timeFormat)

theorem Sound.readsOn {smooth : Prop} (hsound : s.Sound L smooth) (horderly : s.Orderly) {i : Nat}
    {c : Cursor} (hc : s.cursors[i]? = some c) : ReadsOn t L i c s := by
  intro ops hops
  obtain ⟨c', hc', hsame⟩ := (hsound.onward_play (t := t) hops).same i c hc
  have hapt := (horderly.play (t := t) hsound hops).apt i c' hc'
  refine ⟨c', hc', hsame, fun hshape => ?_, fun d hd => ?_, fun op x s' hrun => ?_⟩
  · exact (hapt.blank (hsame.shape.trans hshape)).2.symm
  · have hscan : (CursorOperation.scan.perform t).run ⟨(s.play t ops).2.client, c'⟩ =
        (Answer.value <$> d.unmarshal c.timeFormat 0, ⟨(s.play t ops).2.client, c'⟩) := by
      rw [CursorOperation.perform, run_bind, Reading.run_scan, Cursor.value, hd, Option.map_some,
        Option.getD_some, hsame.timeFormat]
      cases d.unmarshal c.timeFormat 0 <;> rfl
    rw [System.perform, hc']
    simp only [hscan]
  · obtain ⟨oc, r, hr, ho, hclient, -, -⟩ := perform_cursor hc' hrun
    cases ho
    obtain ⟨pre, post, hpre, -⟩ := exists_split_of_getElem? hc' c'
    have hplay := hsound.play (t := t) hops
    rw [System.Sound, hpre] at hplay
    obtain ⟨-, -, hsame'⟩ := op.keeps (L := L) hr hplay
    have hread := Reading.readOff_of_perform (L := L) (by exact hplay) hr
    have htells : r.Tells L = (s'.account L).Tells c.token c.timeFormat := by
      funext v
      rw [Reader.Tells, hsame'.token, hsame'.timeFormat, hsame.token, hsame.timeFormat, account,
        hclient]
    exact htells ▸ hread

end System

/-- The query of a built value asks for the first time format that its compilation meets, if there
is one, and for nothing else. The cursor that a run hands out reads every row in the format that the
query has asked for. -/
theorem timeFormat_of_run {v : Value} (hv : v.Built) :
    (∀ {c : Scope}, c.Typed → ∀ {token : Int64} {j j' : Journal} {q : Query},
      (compile v c token).run j = (.ok q, j') → ∃ formats, v.AsksIn c token j q formats) ∧
    ∀ {s s₁ : System σ} {ops : List Operation} {i : Nat}, s.Begins L → (∀ op ∈ ops, op.Managed) →
      (s.play t ops).2.perform t (.run v) = (some (.ok (.handedOut i)), s₁) →
      ∃ c, s₁.cursors[i]? = some c ∧ System.ReadsOn t L i c s₁ ∧
        (c.shape ≠ none → ∃ q j formats,
          (compile v (s.play t ops).2.client.session.scope 0).run
            (s.play t ops).2.client.world.journal = (.ok q, j) ∧
          v.AsksIn (s.play t ops).2.client.session.scope 0
            (s.play t ops).2.client.world.journal q formats ∧
          c.timeFormat = TimeFormat.ofValue (formats.headD (.text "native")) ∧
          ∃ conn k k' a, (Client.roundTrip t conn { q with token := some c.token }).run k =
            (.ok a, k')) := by
  refine ⟨fun hc _ _ _ _ h => asksIn_of_compile hv hc h, fun {s s₁ ops i} hs hops hrun => ?_⟩
  have hsound := hs.sound.play (t := t) hops
  have horderly := hs.orderly.play (t := t) hs.sound hops
  have hsound₁ := hsound.perform (show (Operation.run v).Managed from trivial) hrun
  have horderly₁ := (horderly.perform hsound (show (Operation.run v).Managed from trivial) hrun).1
  rcases hr : (Client.run t v).run (s.play t ops).2.client with ⟨e | cur, k⟩ <;>
    rw [System.perform, hr] at hrun <;> cases hrun
  have hc : ((s.play t ops).2.cursors ++ [cur])[(s.play t ops).2.cursors.length]? = some cur := by
    simp
  refine ⟨cur, hc, hsound₁.readsOn horderly₁ hc, fun hshape => ?_⟩
  cases Client.run_accounted (L := L) hv (Client.open_of_run hr) hr with
  | uncompiled hcompile => exact absurd rfl hshape
  | answered hcompile htoken hformat htaken hround =>
      obtain ⟨formats, hasks⟩ :=
        asksIn_of_compile hv (s.play t ops).2.client.session.typed_scope hcompile
      obtain ⟨heq, hin⟩ := (Client.cursorOf_cases _ _ v _ _).resolve_left hshape
      refine ⟨_, _, formats, hcompile, hasks, ?_, _, _, _, _, heq ▸ hround⟩
      rw [hin]
      rw [hasks.asks.timeFormat] at hformat
      cases hformat
      rfl

/-- A table whose times are read as moments. -/
def nativeTable : Value :=
  .expr (.setting .timeFormat) [.expr (.verb .table) [.text "t"], .text "native"]

/-- Its rows are counted, with times as the server sends them. -/
def rawCount : Value :=
  .expr (.setting .timeFormat) [.expr (.verb .count) [nativeTable], .text "raw"]

theorem built_rawCount : rawCount.Built := by
  have htext (s : String) : ∀ w ∈ [Value.text s], w.Built :=
    List.forall_mem_singleton.2 (.leaf rfl)
  have htable : Query.call "table" ⟨[.text "t"], []⟩ = .ok (.expr (.verb .table) [.text "t"]) := rfl
  have hnative : (Value.expr (.verb .table) [.text "t"]).method "time_format"
      ⟨[.text "native"], []⟩ = .ok nativeTable := rfl
  have hcount : nativeTable.method "count" ⟨[], []⟩ =
      .ok (.expr (.verb .count) [nativeTable]) := rfl
  have hraw : (Value.expr (.verb .count) [nativeTable]).method "time_format"
      ⟨[.text "raw"], []⟩ = .ok rawCount := rfl
  have built_table : (Value.expr (.verb .table) [.text "t"]).Built :=
    .call (by decide) (htext "t") (List.forall_mem_nil _) htable
  have built_native : nativeTable.Built :=
    .method built_table (htext "native") (List.forall_mem_nil _) hnative
  have built_count : (Value.expr (.verb .count) [nativeTable]).Built :=
    .method built_native (List.forall_mem_nil _) (List.forall_mem_nil _) hcount
  exact .method built_count (htext "raw") (List.forall_mem_nil _) hraw

/-- A server that answers with all of the rows. -/
def System.answeredOnce : System Script := scripted [.plain] [[.response lastOfRows 0]]

/-- The format that is set outside wins over the one inside, in the query and for the cursor. -/
theorem timeFormat_of_run_rawCount : rawCount.Built ∧
    ∃ c, (System.answeredOnce.perform Script.transport (.run rawCount)).2.cursors[0]? = some c ∧
      c.shape = some .sequence ∧ c.timeFormat = .raw ∧
      System.ReadsOn Script.transport Script.ledger 0 c
        (System.answeredOnce.perform Script.transport (.run rawCount)).2 ∧
      ∃ q formats, rawCount.AsksIn System.answeredOnce.client.session.scope 0
        System.answeredOnce.client.world.journal q formats ∧
        TimeFormat.ofValue (formats.headD (.text "native")) = .raw := by
  have hview : (System.answeredOnce.perform Script.transport (.run rawCount)).2.cursors.map
      (fun c => (c.shape, c.timeFormat)) = [(some .sequence, .raw)] := by
    decide +kernel
  obtain ⟨c, _, hcursors, hc, hnil⟩ := List.map_eq_cons_iff.1 hview
  rw [List.map_eq_nil_iff.1 hnil] at hcursors
  obtain ⟨hshape, hformat⟩ := Prod.mk.inj hc
  have hlength : System.answeredOnce.cursors.length <
      (System.answeredOnce.perform Script.transport (.run rawCount)).2.cursors.length := by
    rw [hcursors]
    exact Nat.zero_lt_one
  have houtcome : (System.answeredOnce.perform Script.transport (.run rawCount)).1 =
      some (.ok (.handedOut 0)) := System.perform_run_of_length rfl hlength
  have hget : (System.answeredOnce.perform Script.transport (.run rawCount)).2.cursors[0]? =
      some c := by
    rw [hcursors]
    rfl
  have hbegins : System.answeredOnce.Begins Script.ledger := System.begins_scripted _ _
  have hnone : ∀ op ∈ [], Operation.Managed op := List.forall_mem_nil _
  have hrun : (System.answeredOnce.play Script.transport []).2.perform Script.transport
      (.run rawCount) = (some (.ok (.handedOut 0)),
        (System.answeredOnce.perform Script.transport (.run rawCount)).2) := Prod.ext houtcome rfl
  obtain ⟨c', hget', hreads, hasked⟩ :=
    (timeFormat_of_run built_rawCount).2 hbegins hnone hrun
  obtain rfl := Option.some.inj (hget.symm.trans hget')
  obtain ⟨q, j, formats, -, hasks, hformat', -⟩ := hasked (hshape ▸ Option.some_ne_none _)
  exact ⟨built_rawCount, c, hget, hshape, hformat, hreads, q, formats, hasks,
    hformat'.symm.trans hformat⟩

end QueryDriver
