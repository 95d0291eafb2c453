import QueryDriver.Proofs.System.Pooling

/-!
# Closing a session

Closing a session goes through the pool and closes one connection after the other. The transport
may fail on any of them, which must not keep the others open, and the session is closed and its
pool empty before the first of them is tried. What the transport answered is looked at only in
the end: the last failure is the one that is told.

Reconnecting closes the session in the same way and has no use for the answers. The connection
that it dials is on a new line, so no earlier closing can have closed it.
-/

namespace QueryDriver

open Net

variable {σ τ : Type} {t : Transport σ τ}

namespace Net

/-- A connection on which the transport was told to hang up, and its answer. -/
abbrev Attempt := Connection × Except SocketFault Unit

/-- The transport is told to hang up on connections, one after the other and whatever it
answers. -/
inductive HangsUp (t : Transport σ τ) : σ → List Attempt → σ → Prop where
  | done (s : σ) : HangsUp t s [] s
  | next {s s₁ s' : σ} {c : Connection} {o : Except SocketFault Unit} {rest : List Attempt}
      (hclose : t.close c.line s = (o, s₁)) (h : HangsUp t s₁ rest s') :
      HangsUp t s ((c, o) :: rest) s'

theorem HangsUp.opened {s s' : σ} {attempts : List Attempt} (h : HangsUp t s attempts s')
    (L : Ledger t) : L.opened s' = L.opened s := by
  induction h with
  | done => rfl
  | @next s s₁ s' c o rest hclose _ ih =>
      have hopened := L.opened_close c.line s
      rw [hclose] at hopened
      exact ih.trans hopened

/-- The connections whose lines are not closed yet, each line once. -/
def stillOpen (closed : List Nat) : List Connection → List Connection
  | [] => []
  | c :: cs =>
    if c.line ∈ closed then stillOpen closed cs else c :: stillOpen (c.line :: closed) cs

theorem stillOpen_eq_self {closed : List Nat} {cs : List Connection}
    (hnodup : (cs.map Connection.line).Nodup) (hopen : ∀ c ∈ cs, c.line ∉ closed) :
    stillOpen closed cs = cs := by
  induction cs generalizing closed with
  | nil => rfl
  | cons c cs ih =>
      obtain ⟨hc, hcs⟩ := List.forall_mem_cons.1 hopen
      obtain ⟨hne, hnodup⟩ := List.nodup_cons.1 hnodup
      have hrest : ∀ d ∈ cs, d.line ∉ c.line :: closed := by
        intro d hd
        have hdc : d.line ≠ c.line := fun heq => hne (heq ▸ List.mem_map_of_mem hd)
        exact List.not_mem_cons_of_ne_of_not_mem hdc (hcs d hd)
      rw [stillOpen, if_neg hc, ih hnodup hrest]

/-- What a number of attempts come to: the error of the last one that failed, if one did. -/
def ComesTo (attempts : List Attempt) (failure : Option Failure) : Prop :=
  (∀ a ∈ attempts, a.2 = .ok ()) ∧ failure = none ∨
    ∃ before c fault after, attempts = before ++ (c, .error fault) :: after ∧
      (∀ a ∈ after, a.2 = .ok ()) ∧ failure = some (.ofCause (.closeFailed c.peer fault.text))

namespace ComesTo

variable {attempts : List Attempt} {failure : Option Failure} {c : Connection}

theorem nil : ComesTo [] none := .inl ⟨List.forall_mem_nil _, rfl⟩

theorem cons_ok (h : ComesTo attempts failure) : ComesTo ((c, .ok ()) :: attempts) failure := by
  obtain ⟨hall, rfl⟩ | ⟨before, d, fault, after, rfl, hlast⟩ := h
  · exact .inl ⟨List.forall_mem_cons.2 ⟨rfl, hall⟩, rfl⟩
  · exact .inr ⟨(c, .ok ()) :: before, d, fault, after, rfl, hlast⟩

/-- A failure in front counts only if there is no later one. -/
theorem cons_error (h : ComesTo attempts failure) (fault : SocketFault) :
    ComesTo ((c, .error fault) :: attempts)
      (failure.or (some (.ofCause (.closeFailed c.peer fault.text)))) := by
  obtain ⟨hall, rfl⟩ | ⟨before, d, later, after, rfl, hafter, rfl⟩ := h
  · exact .inr ⟨[], c, fault, attempts, rfl, hall, rfl⟩
  · exact .inr ⟨(c, .error fault) :: before, d, later, after, rfl, hafter, rfl⟩

theorem isSome_iff (h : ComesTo attempts failure) :
    failure.isSome ↔ ∃ a ∈ attempts, a.2 ≠ .ok () := by
  obtain ⟨hall, rfl⟩ | ⟨before, d, fault, after, rfl, -, rfl⟩ := h
  · simpa using hall
  · exact iff_of_true rfl ⟨_, List.mem_append_right _ List.mem_cons_self, by simp⟩

theorem category (h : ComesTo attempts failure) {f : Failure} (hf : failure = some f) :
    ∃ e, f = .driver e ∧ e.category = .network := by
  obtain ⟨-, rfl⟩ | ⟨before, d, fault, after, rfl, -, rfl⟩ := h
  · cases hf
  · cases hf
    exact ⟨_, rfl, rfl⟩

end ComesTo

end Net

namespace Client

/-- The transport was told once to hang up on every idle connection that was open, in the order
in which they were given back, and nothing else was done on the network. All of them are closed,
the pool is empty, and the session is closed. -/
structure Emptied (t : Transport σ τ) (k : Client σ) (attempts : List Attempt) (k' : Client σ) :
    Prop where
  attempted : attempts.map Prod.fst = stillOpen k.world.closed k.session.idle.reverse
  net : HangsUp t k.world.net attempts k'.world.net
  closed : ∀ n, n ∈ k'.world.closed ↔ n ∈ k.world.closed ∨ n ∈ k.session.lines
  session : k'.session = { k.session with closed := true, idle := [] }

/-- Closing connections tries every one of them, whatever became of those before. -/
theorem closeEach_attempts {cs : List Connection} {w w' : World σ}
    {o : Except Failure (Option Failure)} (h : (closeEach t cs).run w = (o, w')) :
    ∃ attempts failure, o = .ok failure ∧ ComesTo attempts failure ∧
      attempts.map Prod.fst = stillOpen w.closed cs ∧ HangsUp t w.net attempts w'.net ∧
      ∀ n, n ∈ w'.closed ↔ n ∈ w.closed ∨ n ∈ cs.map Connection.line := by
  induction cs generalizing w w' o with
  | nil =>
      cases h
      exact ⟨[], none, rfl, .nil, rfl, .done _, by simp⟩
  | cons c cs ih =>
      rcases hclose : (c.close t).run w with ⟨oc, w₁⟩
      rcases hlater : (closeEach t cs).run w₁ with ⟨ol, w₂⟩
      obtain ⟨attempts, failure, rfl, hfailure, hattempted, hnet, hclosed⟩ := ih hlater
      rw [closeEach, run_bind_of_ok (Net.Action.run_observe hclose), run_bind_of_ok hlater] at h
      cases h
      obtain ⟨hmem, rfl, rfl⟩ | ⟨hmem, rfl, rfl⟩ := Connection.close_parts hclose
      · refine ⟨attempts, failure, by simp [Failure.of?], hfailure, ?_, hnet, fun n => ?_⟩
        · rw [hattempted, stillOpen, if_pos hmem]
        · rw [hclosed, List.map_cons, List.mem_cons]
          constructor
          · exact Or.imp_right .inr
          · rintro (hn | rfl | hn)
            · exact .inl hn
            · exact .inl hmem
            · exact .inr hn
      · refine ⟨(c, (t.close c.line w.net).1) :: attempts, _, rfl, ?_, ?_, .next rfl hnet,
          fun n => ?_⟩
        · cases (t.close c.line w.net).1 with
          | ok u => simpa [Except.mapError, Failure.of?] using hfailure.cons_ok
          | error fault => exact hfailure.cons_error fault
        · rw [List.map_cons, hattempted, stillOpen, if_neg hmem]
        · rw [hclosed, List.map_cons, List.mem_cons, List.mem_cons, or_assoc, or_left_comm]

theorem close_of_open {k : Client σ} (hopen : k.session.closed = false) :
    ∃ attempts failure k', (close t).run k = (failure.elim (.ok ()) .error, k') ∧
      Emptied t k attempts k' ∧ ComesTo attempts failure := by
  rcases heach : (closeEach t k.session.idle.reverse).run k.world with ⟨o, w⟩
  obtain ⟨attempts, failure, rfl, hfailure, hattempted, hnet, hclosed⟩ :=
    closeEach_attempts heach
  refine ⟨attempts, failure, _, close_of_closeEach hopen heach,
    ⟨hattempted, hnet, fun n => ?_, rfl⟩, hfailure⟩
  rw [hclosed, Session.lines, List.map_reverse, List.mem_reverse]

variable {L : Ledger t}

/-- The idle connections, and all that were closed, are on lines that were opened, and a closed
session has an empty pool. -/
structure WellKept (L : Ledger t) (k : Client σ) : Prop where
  idle : ∀ n ∈ k.session.lines, n ∈ (k.account L).opened
  closed : ∀ n ∈ k.world.closed, n ∈ (k.account L).opened
  empty : k.session.closed = true → k.session.idle = []

/-- The session is open again, and nothing was done on the network for that. -/
structure Reopened (k k' : Client σ) : Prop where
  net : k'.world.net = k.world.net
  closed : k'.world.closed = k.world.closed
  session : k'.session = { k.session with closed := false }

variable [Clock τ]

/-- How reaching the server from an empty pool can go. The outcome is that of the dial, and a new
connection is all that the pool can have afterwards. -/
inductive Reached (t : Transport σ τ) (k : Client σ) : Except Failure Unit → Client σ → Prop where
  | unreachable {e : Failure} {k' : Client σ} (hdial : (dial t).run k = (.error e, k'))
      (hsession : k'.session = k.session) : Reached t k (.error e) k'
  | pooled {c : Connection} {k₁ k' : Client σ} (hdial : (dial t).run k = (.ok c, k₁))
      (hroom : 0 < k.session.maxIdle) (hopen : c.line ∉ k'.world.closed)
      (hsession : k'.session = { k.session with idle := [c] }) : Reached t k (.ok ()) k'
  | surplus {c : Connection} {k₁ k' : Client σ} (hdial : (dial t).run k = (.ok c, k₁))
      (hnone : k.session.maxIdle = 0) (hclosed : c.line ∈ k'.world.closed)
      (hsession : k'.session = k.session) : Reached t k (.ok ()) k'

theorem connect_reached {k k' : Client σ} {o : Except Failure Unit}
    (hopened : ∀ n ∈ k.world.closed, n ∈ (k.account L).opened)
    (hsession : k.session.closed = false ∧ k.session.idle = [])
    (h : (connect t).run k = (o, k')) : Reached t k o k' := by
  obtain ⟨hopen, hidle⟩ := hsession
  obtain ⟨c, k₁, hdial, hrelease⟩ | ⟨e, hdial, rfl⟩ := run_bind_cases h
  · obtain ⟨hdialed, hkept⟩ := dial_dialed (L := L) hdial
    have hfresh : c.line ∉ (k₁.account L).closed := by
      generalize hod : (Except.ok c : Except Failure Connection) = od at hdialed
      generalize k₁.account L = a₁ at hdialed
      cases hdialed with
      | greeted n hfresh =>
          cases hod
          exact mt (hopened n) hfresh
      | _ => cases hod
    obtain ⟨rfl, hreleased⟩ := release_released (L := L) hrelease
    generalize ha' : k'.account L = a' at hreleased
    generalize hs' : k'.session = s' at hreleased
    have hroom : k₁.session.hasRoom = decide (0 < k.session.maxIdle) := by
      simp [Session.hasRoom, hkept, hopen, hidle]
    cases hreleased with
    | already hclosed => exact absurd hclosed hfresh
    | pooled _ hhas =>
        refine .pooled hdial (by simpa [hroom] using hhas) ?_ ?_
        · exact fun hclosed => hfresh (ha' ▸ hclosed)
        · rw [hs', Session.push, hkept, hidle]
    | surplus _ hfull =>
        refine .surplus hdial (by simpa [hroom] using hfull) ?_ (hs'.trans hkept)
        have hshut : c.line ∈ (k'.account L).closed := by simp [ha']
        exact hshut
  · exact .unreachable hdial (dial_dialed (L := L) hdial).2

omit [Clock τ] in
/-- Closing as reconnecting does it: a session that is closed is emptied already. -/
theorem close_emptied {k k' : Client σ} {o : Except Failure Unit}
    (hempty : k.session.closed = true → k.session.idle = []) (h : (close t).run k = (o, k')) :
    ∃ attempts, Emptied t k attempts k' := by
  cases hclosed : k.session.closed with
  | true =>
      rw [close_of_closed hclosed] at h
      cases h
      have hidle := hempty hclosed
      refine ⟨[], by simp [hidle, stillOpen], .done _, by simp [Session.lines, hidle], ?_⟩
      rw [← hclosed, ← hidle]
  | false =>
      obtain ⟨attempts, failure, k₁, hrun, hemptied, -⟩ := close_of_open (t := t) hclosed
      rw [hrun] at h
      cases h
      exact ⟨attempts, hemptied⟩

/-- The new line is another one than all that were closed, those of the old pool included. -/
theorem Reopened.reached {k k₁ k₂ k' : Client σ} {attempts : List Attempt}
    {o : Except Failure Unit} (hreopened : Reopened k₁ k₂) (hemptied : Emptied t k attempts k₁)
    (hk : k.WellKept L) (h : (connect t).run k₂ = (o, k')) : Reached t k₂ o k' := by
  refine connect_reached (L := L) (fun n hn => ?_) ?_ h
  · have hopened : (k₂.account L).opened = (k.account L).opened := by
      change L.opened k₂.world.net = L.opened k.world.net
      rw [hreopened.net, hemptied.net.opened L]
    rw [hreopened.closed, hemptied.closed] at hn
    rw [hopened]
    exact hn.elim (hk.closed n) (hk.idle n)
  · rw [hreopened.session, hemptied.session]
    exact ⟨rfl, rfl⟩

theorem reconnect_reached {k k' : Client σ} {o : Except Failure Unit} (hk : k.WellKept L)
    (h : (reconnect t).run k = (o, k')) :
    ∃ attempts k₁ k₂, Emptied t k attempts k₁ ∧ Reopened k₁ k₂ ∧ Reached t k₂ o k' := by
  rcases hclose : (close t).run k with ⟨oc, k₁⟩
  obtain ⟨attempts, hemptied⟩ := close_emptied hk.empty hclose
  rw [reconnect, run_bind_of_ok (Action.run_observe hclose)] at h
  cases oc with
  | ok u =>
      have hreopened : Reopened k₁ { k₁ with session := { k₁.session with closed := false } } :=
        ⟨rfl, rfl, rfl⟩
      exact ⟨attempts, k₁, _, hemptied, hreopened, hreopened.reached hemptied hk h⟩
  | error e =>
      have hreopened : Reopened k₁
          { k₁ with
            world := { k₁.world with journal := k₁.world.journal.record .closeErrorIgnored }
            session := { k₁.session with closed := false } } := ⟨rfl, rfl, rfl⟩
      exact ⟨attempts, k₁, _, hemptied, hreopened, hreopened.reached hemptied hk h⟩

omit [Clock τ] in
/-- A pool whose connections are open and on lines of their own is emptied altogether. -/
theorem Emptied.attempted_all {k k' : Client σ} {attempts : List Attempt}
    (h : Emptied t k attempts k') (hnodup : k.session.lines.Nodup)
    (hopen : ∀ n ∈ k.session.lines, n ∉ k.world.closed) :
    attempts.map Prod.fst = k.session.idle.reverse := by
  rw [h.attempted]
  refine stillOpen_eq_self ?_ fun c hc => hopen _ (List.mem_map_of_mem (List.mem_reverse.1 hc))
  rw [List.map_reverse, List.nodup_reverse]
  exact hnodup

end Client

/-- What every history of managed operations keeps. -/
theorem System.Reaches.wellKept [Clock τ] {L : Ledger t} {k : Client σ}
    (h : System.Reaches t L k) : k.WellKept L := by
  obtain ⟨s, ops, hs, hops, rfl⟩ := h
  have hplay : (s.play t ops).2.Sound L _ := hs.sound.play hops
  exact ⟨fun n hn => (hplay.ready (List.mem_append_left _ hn)).opened,
    hplay.custody.opened_of_closed, hplay.empty⟩

/-- Closing an open session tells the transport once to hang up on every idle connection that is
open, whatever it answered before, closes the session and empties the pool. It fails if and only
if one of the attempts did, with the error of the last of them, and closing once more does
nothing. Reconnecting empties the pool in the same way, and then its outcome and its pool are
those of one dial. -/
theorem Client.close_and_reconnect [Clock τ] (L : Ledger t) (k : Client σ) :
    (k.session.closed = false → ∃ attempts failure k',
      (close t).run k = (failure.elim (.ok ()) .error, k') ∧ Emptied t k attempts k' ∧
      (k.session.lines.Nodup → (∀ n ∈ k.session.lines, n ∉ k.world.closed) →
        attempts.map Prod.fst = k.session.idle.reverse) ∧
      ComesTo attempts failure ∧
      ((∃ e, failure = some (.driver e) ∧ e.category = .network) ↔
        ∃ a ∈ attempts, a.2 ≠ .ok ()) ∧
      (close t).run k' = (.ok (), k')) ∧
    (k.session.closed = true → (close t).run k = (.ok (), k)) ∧
    (k.WellKept L → ∃ attempts k₁ k₂, Emptied t k attempts k₁ ∧ Reopened k₁ k₂ ∧
      k₂.session = { k.session with closed := false, idle := [] } ∧
      Reached t k₂ ((reconnect t).run k).1 ((reconnect t).run k).2) := by
  refine ⟨fun hopen => ?_, close_of_closed, fun hk => ?_⟩
  · obtain ⟨attempts, failure, k', hrun, hemptied, hfailure⟩ := close_of_open (t := t) hopen
    refine ⟨attempts, failure, k', hrun, hemptied, hemptied.attempted_all, hfailure, ?_,
      close_of_closed (by rw [hemptied.session])⟩
    rw [← hfailure.isSome_iff]
    constructor
    · rintro ⟨e, rfl, -⟩
      rfl
    · intro hsome
      obtain ⟨f, rfl⟩ := Option.isSome_iff_exists.1 hsome
      obtain ⟨e, rfl, hcategory⟩ := hfailure.category rfl
      exact ⟨e, rfl, hcategory⟩
  · obtain ⟨attempts, k₁, k₂, hemptied, hreopened, hreached⟩ :=
      reconnect_reached (L := L) (t := t) hk rfl
    refine ⟨attempts, k₁, k₂, hemptied, hreopened, ?_, hreached⟩
    rw [hreopened.session, hemptied.session]

/-- A system with two connections in its pool. The one that is closed first cannot be closed
properly. -/
def System.stubborn : System Script :=
  ((System.scripted [.plain, { DialPlan.plain with closeFails := true }]
    [[.response partOfMore 0], [.response lastOfRows 0], [.response lastOfRows 0]]).play
      Script.transport fillPool).2

/-- The failure of the first connection keeps the second one from nothing and is what closing
ends with; to reconnect it is no obstacle. -/
theorem Client.close_and_reconnect_stubborn :
    System.stubborn.client.WellKept Script.ledger ∧
    (∃ attempts e k', (close Script.transport).run System.stubborn.client =
        (.error (.driver e), k') ∧ e.category = .network ∧
      Emptied Script.transport System.stubborn.client attempts k' ∧
      attempts.map (fun a => a.1.line) = [2, 1] ∧
      (close Script.transport).run k' = (.ok (), k')) ∧
    ∃ c k₂, Reached Script.transport k₂ (.ok ())
        ((reconnect Script.transport).run System.stubborn.client).2 ∧
      ((reconnect Script.transport).run System.stubborn.client).2.session =
        { System.stubborn.client.session with closed := false, idle := [c] } := by
  have hops : ∀ op ∈ fillPool, op.Managed := by simp [fillPool, Operation.Managed]
  have hreached : System.Reaches Script.transport Script.ledger System.stubborn.client :=
    ⟨_, fillPool, System.begins_scripted _ _, hops, rfl⟩
  have hopen : System.stubborn.client.session.closed = false := by decide +kernel
  have hlines : System.stubborn.client.session.lines = [1, 2] := by decide +kernel
  have hfails : ((close Script.transport).run System.stubborn.client).1.isOk = false := by
    decide +kernel
  have hok : ((reconnect Script.transport).run System.stubborn.client).1.isOk = true := by
    decide +kernel
  have hroom : System.stubborn.client.session.maxIdle = 5 := by decide +kernel
  obtain ⟨hclose, -, hreconnects⟩ :=
    close_and_reconnect Script.ledger System.stubborn.client
  obtain ⟨-, k₁, k₂, -, -, hsession, hreconnect⟩ := hreconnects hreached.wellKept
  obtain ⟨attempts, failure, k', hrun, hemptied, hall, hfailure, -, hagain⟩ := hclose hopen
  obtain ⟨hnodup, hready⟩ := hreached.pool
  refine ⟨hreached.wellKept, ?_, ?_⟩
  · have hmap : attempts.map (fun a => a.1.line) = [2, 1] := by
      have hfst := congrArg (List.map Connection.line) (hall hnodup hready)
      rw [Session.lines] at hlines
      rw [List.map_map, List.map_reverse, hlines] at hfst
      exact hfst
    rw [hrun] at hfails
    cases failure with
    | none => cases hfails
    | some f =>
        obtain ⟨e, rfl, hcategory⟩ := hfailure.category rfl
        exact ⟨attempts, e, k', hrun, hcategory, hemptied, hmap, hagain⟩
  · rcases hrun : (reconnect Script.transport).run System.stubborn.client with ⟨o, k'⟩
    rw [hrun] at hreconnect hok
    cases hreconnect with
    | unreachable => cases hok
    | @pooled c _ _ hdial hroom hfresh hpool =>
        exact ⟨c, k₂, .pooled hdial hroom hfresh hpool, by rw [hpool, hsession]⟩
    | surplus _ hnone =>
        rw [hsession] at hnone
        exact absurd (hroom.symm.trans hnone) (by decide)

end QueryDriver
