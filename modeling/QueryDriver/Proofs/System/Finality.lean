import QueryDriver.Proofs.System.Arrival
import QueryDriver.Proofs.System.Releasing

/-!
# Streams to their end, and after it

A cursor that a run hands out on a part of the rows gives, when it is only gone on with, the rows
of all answers that come for its token, in their order and once each, whatever is done with the
other cursors in between. When the stream is broken off it has given them all, and then it keeps the
error.

Once a cursor has found that there is no next row, or was closed, nothing that is done with the
system brings a row of it back, sends a query for it or changes its error.
-/

namespace QueryDriver

open Net Wire

variable {σ τ α β : Type} {t : Transport σ τ} {L : Ledger t}

namespace Client

/-- What a run hands out on rows is a cursor on the value that was run. -/
structure Action.Gives (P : α → Prop) (a : Action σ α) : Prop where
  gives : ∀ {k x k'}, a.run k = (.ok x, k') → P x

namespace Action.Gives

variable {P : β → Prop}

protected theorem bind {a : Action σ α} {f : α → Action σ β} (hf : ∀ x, Gives P (f x)) :
    Gives P (a >>= f) where
  gives h := by
    obtain ⟨x, k₁, -, h⟩ | ⟨e, -, he⟩ := run_bind_cases h
    · exact (hf x).gives h
    · cases he

protected theorem pure {x : β} (h : P x) : Gives P (pure x : Action σ β) where
  gives hrun := by
    cases hrun
    exact h

protected theorem throw (e : Failure) : Gives P (throw e : Action σ β) where
  gives hrun := by cases hrun

end Action.Gives

/-- The cursor is on a value, if it is on anything. -/
def On (v : Value) (c : Cursor) : Prop := c.shape ≠ none → c.expression = v

theorem on_failed (v : Value) (e : DriverError) : On v (Cursor.failed true e) :=
  fun hshape => absurd rfl hshape

theorem gives_received (c : Connection) (v : Value) (token : Int64) (timeFormat : TimeFormat)
    (r : Response) : Action.Gives (On v) (received t c v token timeFormat r) := by
  unfold received
  split
  · exact .pure fun _ => rfl
  · exact .bind fun _ => .pure fun _ => rfl
  · dsimp only
    split
    · exact .bind fun _ => .bind fun query => .pure (on_failed v _)
    · exact .bind fun _ => .bind fun query => .pure (on_failed v _)

theorem gives_run [Clock τ] (v : Value) : Action.Gives (On v) (run t v) := by
  refine .bind fun s => ?_
  dsimp only
  split
  · exact .throw _
  · refine .bind fun compiled => ?_
    rcases compiled with (e | f) | query
    · exact .pure (on_failed v e)
    · exact .throw _
    · exact .bind fun number => .bind fun token => .bind fun timeFormat => .bind fun c =>
        .bind fun r => gives_received _ _ _ _ _

/-- A run that hands out a cursor on a part of the rows has had them as its answer. -/
theorem Ran.partial {a a' : Account} {s s' : Session} {cur : Cursor}
    (h : Ran a s (.ok cur) a' s') (hshape : cur.shape = some .partialSequence) :
    ∃ x r, a'.rounds = x :: a.rounds ∧ x.answer = some r ∧ x.token = cur.token ∧
      x.token.toInt = s.token + 1 ∧ Shape.ofResponse? r = some .partialSequence ∧
      cur.buffer = r.values := by
  cases h with
  | uncompiled e => cases hshape
  | answered c query r cur a₁ a₂ a' s₁ s' hacquired hstart htoken hexchanged hanswered =>
      cases hexchanged with
      | answered r hopen hmatched =>
          have hrounds : a'.rounds = ⟨c.line, query, some r⟩ :: a.rounds := by
            rw [hanswered.rounds, ← hacquired.rounds]
            rfl
          refine ⟨_, r, hrounds, rfl, ?_, htoken, ?_⟩ <;> cases hanswered with
          | kept v timeFormat hpart => first | rfl | exact ⟨hpart, rfl⟩
          | whole v timeFormat shape a' s' hpart hwhole hrelease =>
              exact absurd (Option.some.inj hshape) hwhole
          | reported e a' s' hpart hrelease => cases hshape
          | unexpected e hpart => cases hshape

end Client

/-- The operation leaves the cursor of a number alone, or it looks at it or goes on with it. -/
def Operation.GoesOn (i : Nat) : Operation → Prop
  | .cursor j op => j = i → op = .next ∨ op = .scan ∨ op = .look
  | _ => True

variable [Clock τ]

namespace System

variable {s s' : System σ}

/-- The row that an operation has given by going on with the cursor of a number. -/
def rowGiven (i : Nat) : Operation → Option (Except Failure Answer) → System σ → List Datum
  | .cursor j .next, some (.ok (.flag true)), s =>
    if j = i then ((s.cursors[i]?).bind Cursor.current).toList else []
  | _, _, _ => []

/-- The rows that a history has given by going on with the cursor of a number. -/
def given (t : Transport σ τ) (i : Nat) : System σ → List Operation → List Datum
  | _, [] => []
  | s, op :: ops =>
    let (o, s) := s.perform t op
    rowGiven i op o s ++ given t i s ops

/-- What going on with a cursor has come to, after the rows in `rows` were given. -/
inductive Proceeds (t : Transport σ τ) (L : Ledger t) (i : Nat) (c : Cursor) (rows : List Datum)
    (s : System σ) : Option (Except Failure Answer) → System σ → Prop
  | row {s' : System σ} {c' : Cursor} {d : Datum} (hc : s'.cursors[i]? = some c')
      (hcurrent : c'.current = some d)
      (hrows : rows ++ d :: c'.buffer = (s'.account L).arrived c.token)
      (hfed : (s.account L).Fed (s'.account L)) :
    Proceeds t L i c rows s (some (.ok (.flag true))) s'
  /-- There are no more rows, and there was no error in between. -/
  | ended {s' : System σ} {c' : Cursor} (hc : s'.cursors[i]? = some c') (hspent : c'.Spent)
      (hrows : rows = (s'.account L).arrived c.token) (hfed : (s.account L).Fed (s'.account L))
      (herror : c'.error = c.error) : Proceeds t L i c rows s (some (.ok (.flag false))) s'
  /-- The stream was broken off, after any number of answers that brought no rows. -/
  | broken {s' : System σ} {c' : Cursor} {k : Client σ} {conn : Connection} {e : DriverError}
      (hc : s'.cursors[i]? = some c') (hspent : c'.Spent)
      (hrows : rows = (s'.account L).arrived c.token) (hconn : c.connection = some conn)
      (hfed : (s.account L).Fed (k.account L))
      (hbreaks : Client.Breaks t L conn c.token c.rendering k s'.client e)
      (herror : c'.error = some (e.withQuery c.rendering)) :
    Proceeds t L i c rows s (some (.ok (.flag false))) s'
  /-- The line would not be armed, and the cursor keeps the connection. -/
  | refused {s' : System σ} {c' : Cursor} {conn : Connection} {f : Fault}
      (hc : s'.cursors[i]? = some c') (hf : f.IsRefusal)
      (hrows : rows = (s'.account L).arrived c.token) (hconn : c.connection = some conn)
      (hkept : c'.connection = some conn) :
    Proceeds t L i c rows s (some (.error (.fault f))) s'

/-- The cursor of a number is the one it was, and its rows are in order. -/
structure Flowing (L : Ledger t) (i : Nat) (c : Cursor) (rows : List Datum) (s : System σ)
    (c' : Cursor) : Prop where
  found : s.cursors[i]? = some c'
  same : c.Same c'
  expression : c'.expression = c.expression
  flows : (⟨s.client, c'⟩ : Reader σ).Flows L rows

omit [Clock τ] in
theorem Flowing.rows {i : Nat} {c c' : Cursor} {rows : List Datum}
    (h : Flowing L i c rows s c') : rows ++ c'.buffer = (s.account L).arrived c.token := by
  have hflows := h.flows
  rw [Reader.Flows, h.same.token] at hflows
  exact hflows

/-- Going on with a cursor whose rows are in order. -/
theorem Flowing.proceeds (hmetered : Metered t) {i : Nat} {c c₁ : Cursor} {rows : List Datum}
    (h : Flowing L i c rows s c₁) (hapt : c₁.Apt) {o : Option (Except Failure Answer)}
    (hrun : s.perform t (.cursor i .next) = (o, s')) :
    Proceeds t L i c₁ rows s o s' ∧
      ∃ c', Flowing L i c (rows ++ rowGiven i (.cursor i .next) o s') s' c' := by
  obtain ⟨oc, r, hr, rfl, hclient, -, hget⟩ := perform_cursor h.found hrun
  have hmoves := (Reading.leads_perform (L := L) .next).run hr hapt
  obtain ⟨on, hnext, rfl⟩ := run_bind_pure hr
  have hflowing {more : List Datum} (hflows : r.Flows L (rows ++ more))
      (hmore : rowGiven i (.cursor i .next) (some (Answer.flag <$> on)) s' = more) :
      ∃ c', Flowing L i c
        (rows ++ rowGiven i (.cursor i .next) (some (Answer.flag <$> on)) s') s' c' := by
    refine ⟨r.cursor, hget, h.same.trans hmoves.same, hmoves.expression.trans h.expression, ?_⟩
    rw [hmore, hclient]
    exact hflows
  have haccount : s'.account L = r.client.account L := by rw [account, hclient]
  have hall (hflows : r.Flows L rows) (hspent : r.cursor.buffer = []) :
      rows = (s'.account L).arrived c₁.token := by
    rw [Reader.Flows, hspent, List.append_nil, hmoves.same.token] at hflows
    rw [haccount]
    exact hflows
  cases Reading.going_of_next (L := L) hmetered hapt hnext with
  | @row d r hcurrent hflows hfed =>
      have hflows := hflows rows h.flows
      refine ⟨.row hget hcurrent ?_ (haccount ▸ hfed), hflowing hflows ?_⟩
      · rw [Reader.Flows, List.append_assoc, hmoves.same.token] at hflows
        rw [haccount]
        exact hflows
      · change (if i = i then ((s'.cursors[i]?).bind Cursor.current).toList else []) = [d]
        rw [if_pos rfl, hget, Option.bind_some, hcurrent, Option.toList_some]
  | ended hspent hflows hfed herror =>
      have hflows := hflows rows h.flows
      exact ⟨.ended hget hspent (hall hflows hspent.2) (haccount ▸ hfed) herror,
        hflowing ((List.append_nil rows).symm ▸ hflows) rfl⟩
  | broken hspent hflows hconn hfed hbreaks herror =>
      have hflows := hflows rows h.flows
      exact ⟨.broken hget hspent (hall hflows hspent.2) hconn hfed (hclient ▸ hbreaks) herror,
        hflowing ((List.append_nil rows).symm ▸ hflows) rfl⟩
  | refused hf hbuffer hflows hconn hkept =>
      have hflows := hflows rows h.flows
      exact ⟨.refused hget hf (hall hflows hbuffer) hconn hkept,
        hflowing ((List.append_nil rows).symm ▸ hflows) rfl⟩

omit [Clock τ] in
theorem rowGiven_of_spares {i : Nat} {op : Operation} (hop : op.Spares i)
    (o : Option (Except Failure Answer)) (s : System σ) : rowGiven i op o s = [] := by
  unfold rowGiven
  split
  · exact if_neg hop
  · rfl

/-- A cursor whose rows are in order keeps them so, as long as it is only gone on with. -/
theorem Flowing.perform (hmetered : Metered t) {i : Nat} {c c₁ : Cursor} {rows : List Datum}
    (h : Flowing L i c rows s c₁) (horderly : s.Orderly) {op : Operation}
    {o : Option (Except Failure Answer)} (hasked : s.Asked L op s') (hgoes : op.GoesOn i)
    (hrun : s.perform t op = (o, s')) :
    ∃ c', Flowing L i c (rows ++ rowGiven i op o s') s' c' := by
  by_cases hspares : op.Spares i
  · obtain ⟨new, hnew, hne⟩ := horderly.others hasked h.found (.inl hspares)
    rw [rowGiven_of_spares hspares, List.append_nil]
    refine ⟨c₁, getElem?_perform hspares h.found hrun, h.same, h.expression, ?_⟩
    rw [Reader.Flows]
    exact h.flows.trans (Account.arrived_eq_of_ne hnew hne).symm
  · have hlooked {operation : CursorOperation}
        (hsame : ∀ {oc r}, (operation.perform t).run ⟨s.client, c₁⟩ = (oc, r) → r = ⟨s.client, c₁⟩)
        (hrun : s.perform t (.cursor i operation) = (o, s')) : ∃ c', Flowing L i c rows s' c' := by
      obtain ⟨oc, r, hr, rfl, hclient, -, hget⟩ := perform_cursor h.found hrun
      cases hsame hr
      exact ⟨c₁, hget, h.same, h.expression, hclient ▸ h.flows⟩
    cases op with
    | run v => exact absurd trivial hspares
    | session operation => exact absurd trivial hspares
    | cursor j operation =>
        have hij : j = i := not_not.1 hspares
        subst hij
        obtain rfl | rfl | rfl := hgoes rfl
        · exact (h.proceeds hmetered (horderly.apt j c₁ h.found) hrun).2
        · rw [show rowGiven j (.cursor j .scan) o s' = [] from rfl, List.append_nil]
          refine hlooked (fun hr => ?_) hrun
          obtain ⟨oa, hscan, -⟩ := run_bind_pure hr
          exact (congrArg Prod.snd (Reading.run_scan.symm.trans hscan)).symm
        · rw [show rowGiven j (.cursor j .look) o s' = [] from rfl, List.append_nil]
          refine hlooked (fun hr => ?_) hrun
          cases hr
          rfl

theorem Flowing.play (hmetered : Metered t) {smooth : Prop} {i : Nat} {c c₁ : Cursor}
    {rows : List Datum} {ops : List Operation} (h : Flowing L i c rows s c₁)
    (horderly : s.Orderly) (hsound : s.Sound L smooth)
    (hops : ∀ op ∈ ops, op.Managed ∧ op.GoesOn i) :
    ∃ c', Flowing L i c (rows ++ given t i s ops) (s.play t ops).2 c' := by
  induction ops generalizing smooth s rows c₁ with
  | nil => exact ⟨c₁, (List.append_nil rows).symm ▸ h⟩
  | cons op ops ih =>
      obtain ⟨⟨hop, hgoes⟩, hops⟩ := List.forall_mem_cons.1 hops
      obtain ⟨horderly₁, hasked⟩ := horderly.perform hsound hop rfl
      obtain ⟨c₂, hflowing⟩ := h.perform hmetered horderly hasked hgoes rfl
      obtain ⟨c', hlater⟩ := ih hflowing horderly₁ (hsound.perform hop rfl) hops
      rw [List.append_assoc] at hlater
      exact ⟨c', hlater⟩

/-- The rows of a cursor that a run hands out on a part of the rows are in order. -/
theorem flowing_of_run {smooth : Prop} {v : Value} {i : Nat} {c : Cursor}
    (hsound : s.Sound L smooth)
    (hrun : s.perform t (.run v) = (some (.ok (.handedOut i)), s'))
    (hc : s'.cursors[i]? = some c) (hshape : c.shape = some .partialSequence) :
    c.expression = v ∧ Flowing L i c [] s' c := by
  obtain @⟨_, cur, k, hr⟩ := performed_of_perform hrun
  obtain rfl : cur = c := by
    have hlast : (s.cursors ++ [cur])[s.cursors.length]? = some cur := by simp
    exact Option.some.inj (hlast.symm.trans hc)
  obtain ⟨x, r, hrounds, hanswer, hx, hnext, hpart, hbuffer⟩ :=
    (Client.run_ran (L := L) hr).partial hshape
  refine ⟨(Client.gives_run v).gives hr (by simp [hshape]), hc, .refl cur, rfl, ?_⟩
  have hnew : (s.account L).arrived cur.token = [] := by
    have hnone : (s.account L).dialogue cur.token = [] := by
      rw [Account.dialogue, List.filter_eq_nil_iff]
      intro y hy heq
      have hle := hsound.talk.bounded y (List.mem_reverse.1 hy)
      rw [of_decide_eq_true heq, ← hx, hnext] at hle
      omega
    rw [Account.arrived, hnone, List.flatMap_nil]
  change [] ++ cur.buffer = (k.account L).arrived cur.token
  rw [Account.arrived_cons hrounds hx, Round.batch_of_feeds hanswer (.inl hpart)]
  change _ = (s.account L).arrived cur.token ++ _
  rw [hnew, hbuffer]

/-- Nothing that is done with the system changes the cursor of a number in what it tells: there is
no next row, and its error and its queries are the ones that there are. -/
def Finished (t : Transport σ τ) (L : Ledger t) (i : Nat) (s : System σ) : Prop :=
  ∃ c, s.cursors[i]? = some c ∧ ∀ ops : List Operation, (∀ op ∈ ops, op.Managed) →
    ((s.play t ops).2.perform t (.cursor i .next)).1 = some (.ok (.flag false)) ∧
      ((s.play t ops).2.account L).dialogue c.token = (s.account L).dialogue c.token ∧
      ∃ c', (s.play t ops).2.cursors[i]? = some c' ∧ c'.error = c.error

theorem Orderly.finished {smooth : Prop} (h : s.Orderly) (hsound : s.Sound L smooth) {i : Nat}
    {c : Cursor} (hc : s.cursors[i]? = some c) (hspent : c.Spent) : Finished t L i s := by
  refine ⟨c, hc, fun ops hops => ?_⟩
  obtain ⟨c', hc', hspent', herror, -, hdialogue⟩ := h.spent_play (t := t) hsound hops hc hspent
  refine ⟨?_, hdialogue, c', hc', herror⟩
  have hnext : (CursorOperation.next.perform t).run ⟨(s.play t ops).2.client, c'⟩ =
      (.ok (.flag false), Reading.forgotten ⟨(s.play t ops).2.client, c'⟩) :=
    run_bind_of_ok (Reading.run_next_of_spent hspent')
  simp only [System.perform, hc', hnext]

/-- A cursor on a part of the rows gives all rows that arrive, and then it has no more or keeps the
error that has broken the stream off. A cursor that has found no next row, or was closed, is
finished. -/
theorem stream_of_play (hmetered : Metered t) {ops : List Operation} (hs : s.Begins L)
    (hops : ∀ op ∈ ops, op.Managed) {i : Nat} {s₁ : System σ} :
    (∀ {v : Value} {c : Cursor},
      (s.play t ops).2.perform t (.run v) = (some (.ok (.handedOut i)), s₁) →
      s₁.cursors[i]? = some c → c.shape = some .partialSequence →
      ∀ later : List Operation, (∀ op ∈ later, op.Managed ∧ op.GoesOn i) →
        ∃ c', (s₁.play t later).2.cursors[i]? = some c' ∧ c.Same c' ∧ c'.expression = v ∧
          given t i s₁ later ++ c'.buffer =
            ((s₁.play t later).2.account L).arrived c.token ∧
          Proceeds t L i c' (given t i s₁ later) (s₁.play t later).2
            ((s₁.play t later).2.perform t (.cursor i .next)).1
            ((s₁.play t later).2.perform t (.cursor i .next)).2) ∧
    ∀ {op : CursorOperation} {o : Option (Except Failure Answer)},
      (s.play t ops).2.perform t (.cursor i op) = (o, s₁) → o ≠ none →
      op.Closes ∨ op = .next ∧ o = some (.ok (.flag false)) → Finished t L i s₁ := by
  have hsound := hs.sound.play (t := t) hops
  have horderly := hs.orderly.play (t := t) hs.sound hops
  refine ⟨fun {v c} hrun hc hshape later hlater => ?_, fun {op o} hrun ho hop => ?_⟩
  · have hsound₁ := hsound.perform (show (Operation.run v).Managed from trivial) hrun
    have horderly₁ := (horderly.perform hsound (show (Operation.run v).Managed from trivial) hrun).1
    obtain ⟨hexpression, hflowing⟩ := flowing_of_run hsound hrun hc hshape
    obtain ⟨c', hlast⟩ := hflowing.play hmetered horderly₁ hsound₁ hlater
    rw [List.nil_append] at hlast
    have horderly₂ := horderly₁.play (t := t) hsound₁ fun op hop => (hlater op hop).1
    exact ⟨c', hlast.found, hlast.same, hlast.expression.trans hexpression, hlast.rows,
      (hlast.proceeds hmetered (horderly₂.apt i c' hlast.found) rfl).1⟩
  · have hsound₁ := hsound.perform (show (Operation.cursor i op).Managed from trivial) hrun
    have horderly₁ :=
      (horderly.perform hsound (show (Operation.cursor i op).Managed from trivial) hrun).1
    cases hc : (s.play t ops).2.cursors[i]? with
    | none =>
        rw [System.perform, hc] at hrun
        cases hrun
        exact absurd rfl ho
    | some c =>
        obtain ⟨oc, r, hr, rfl, -, -, hget⟩ := perform_cursor hc hrun
        refine horderly₁.finished hsound₁ hget ?_
        obtain hcloses | ⟨rfl, hfalse⟩ := hop
        · exact (op.closing (L := L) hcloses hr (horderly.apt i c hc)).spent
        · obtain ⟨on, hnext, rfl⟩ := run_bind_pure hr
          have hon : on = .ok false := by
            rcases on with e | _ | _
            · cases hfalse
            · rfl
            · cases hfalse
          rw [hon] at hnext
          exact (Reading.going_of_next (L := L) hmetered (horderly.apt i c hc) hnext).spent

/-- A server that answers with one part of the rows, and then no more. -/
def brokenOff : System Script := scripted [.plain] [[.response partOfMore 0]]

/-- A cursor gives the one row that has come. Going on asks for more, and whatever comes of that the
cursor is finished when it was closed. -/
theorem stream_of_run_broken :
    (∃ c', ((brokenOff.perform Script.transport (.run (.int 1))).2.play Script.transport
        [.cursor 0 .next]).2.cursors[0]? = some c' ∧
      Proceeds Script.transport Script.ledger 0 c'
        (given Script.transport 0 (brokenOff.perform Script.transport (.run (.int 1))).2
          [.cursor 0 .next])
        ((brokenOff.perform Script.transport (.run (.int 1))).2.play Script.transport
          [.cursor 0 .next]).2
        (((brokenOff.perform Script.transport (.run (.int 1))).2.play Script.transport
          [.cursor 0 .next]).2.perform Script.transport (.cursor 0 .next)).1
        (((brokenOff.perform Script.transport (.run (.int 1))).2.play Script.transport
          [.cursor 0 .next]).2.perform Script.transport (.cursor 0 .next)).2) ∧
      Finished Script.transport Script.ledger 0 ((brokenOff.play Script.transport
        [.run (.int 1), .cursor 0 .next]).2.perform Script.transport (.cursor 0 .close)).2 := by
  have hview : (brokenOff.perform Script.transport (.run (.int 1))).2.cursors.map Cursor.shape =
      [some .partialSequence] := by decide +kernel
  have hcount : (brokenOff.play Script.transport
      [.run (.int 1), .cursor 0 .next]).2.cursors.length = 1 := by decide +kernel
  obtain ⟨c, _, hcursors, hshape, hnil⟩ := List.map_eq_cons_iff.1 hview
  rw [List.map_eq_nil_iff.1 hnil] at hcursors
  have hlength : brokenOff.cursors.length <
      (brokenOff.perform Script.transport (.run (.int 1))).2.cursors.length := by
    rw [hcursors]
    exact Nat.zero_lt_one
  have houtcome := perform_run_of_length (s := brokenOff) (v := .int 1) (t := Script.transport)
    rfl hlength
  have hbegins : brokenOff.Begins Script.ledger := begins_scripted _ _
  have hlater : ∀ op ∈ [Operation.cursor 0 .next], op.Managed ∧ op.GoesOn 0 := by
    simp [Operation.Managed, Operation.GoesOn]
  have hget : (brokenOff.perform Script.transport (.run (.int 1))).2.cursors[0]? = some c := by
    rw [hcursors]
    rfl
  constructor
  · have hnone : ∀ op ∈ [], Operation.Managed op := List.forall_mem_nil _
    obtain ⟨c', hc', -, -, -, hproceeds⟩ := (stream_of_play Script.metered hbegins hnone).1
      (Prod.ext houtcome rfl) hget hshape _ hlater
    exact ⟨c', hc', hproceeds⟩
  · have hops : ∀ op ∈ [.run (.int 1), .cursor 0 .next], Operation.Managed op := by
      simp [Operation.Managed]
    obtain ⟨d, hd⟩ : ∃ d, (brokenOff.play Script.transport
        [.run (.int 1), .cursor 0 .next]).2.cursors[0]? = some d :=
      ⟨_, List.getElem?_eq_getElem (hcount ▸ Nat.zero_lt_one)⟩
    have hcloses : CursorOperation.close.Closes := trivial
    rcases hclose : (brokenOff.play Script.transport [.run (.int 1), .cursor 0 .next]).2.perform
      Script.transport (.cursor 0 .close) with ⟨o, s'⟩
    obtain ⟨oc, r, -, rfl, -⟩ := perform_cursor hd hclose
    exact (stream_of_play Script.metered hbegins hops).2 hclose (Option.some_ne_none oc)
      (.inl hcloses)

end System

end QueryDriver
