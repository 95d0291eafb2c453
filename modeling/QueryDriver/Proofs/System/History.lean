import QueryDriver.Operation
import QueryDriver.Proofs.Session.Opening
import QueryDriver.Proofs.System.Reading

/-!
# Histories

A system begins with a session that has never been used, over a network without a line,
and with no cursors. A history is what operations make of it. Every history of managed
operations is sound: of operations, that is, that leave the connections to the driver and
send no query that the caller has made up.

Systems stay smooth as long as no refusal comes out of an operation. What an operation can do
to a system is listed by `Performed`, from which every invariant of histories follows.
-/

namespace QueryDriver

open Net

variable {σ τ : Type} {t : Transport σ τ}

/-- The operation leaves connections and tokens to the driver. -/
def Operation.Managed : Operation → Prop
  | .session (.borrow _) => False
  | .session (.execute _) => False
  | .session (.executeClosed _) => False
  | _ => True

/-- The outcome of an operation shows a refusal: it has failed by one, or it is an
iteration that ended with one. -/
def ShowsRefusal : Option (Except Failure Answer) → Prop
  | some (.error e) => e.IsRefusal
  | some (.ok (.rows _ (some f))) => f.IsRefusal
  | _ => False

/-- The session has never been used. -/
structure Session.Fresh (s : Session) : Prop where
  idle : s.idle = []
  token : s.token = 0

/-- A session that is made of settings has never been used. -/
theorem Session.fresh_of_ofValues {address database timeout maxIdle : Value} {s : Session}
    (h : ofValues address database timeout maxIdle = .ok s) : s.Fresh := by
  obtain ⟨maxIdle, -, h⟩ := bind_ok h
  obtain ⟨peer, -, h⟩ := bind_ok h
  obtain ⟨database, -, h⟩ := bind_ok h
  obtain ⟨timeout, -, h⟩ := bind_ok h
  cases h
  exact ⟨rfl, rfl⟩

/-- The session that is made of the defaults, with no bound on round trips. -/
def Session.unbounded : Session :=
  ⟨defaultAddress, ⟨"localhost", 28015⟩, defaultDatabase, none, defaultMaxIdle, 0, [], false⟩

theorem Session.ofValues_unbounded :
    ofValues (.text defaultAddress) (.text defaultDatabase) .null (.int defaultMaxIdle) =
      .ok unbounded := rfl

/-- Nothing has happened on the network. -/
def Net.Account.blank : Account := ⟨[], [], [], []⟩

variable {L : Ledger t}

theorem Sound.blank {s : Session} (hs : s.Fresh) : Sound True s.token [] .blank s [] where
  custody := by
    rw [Session.lines, hs.idle]
    refine ⟨.nil, ?_, ?_, ?_, ?_, ?_⟩ <;> intro _ h <;> cases h
  talk := .nil
  backed c hc := absurd hc List.not_mem_nil
  latest_le := le_rfl
  bounded := by
    rw [hs.idle]
    exact Nat.zero_le _
  empty _ := hs.idle

/-- The pool is as it was, and no token has become free again. -/
structure Session.Kept (s s' : Session) : Prop where
  idle : s'.idle = s.idle
  token : s.token ≤ s'.token
  maxIdle : s'.maxIdle = s.maxIdle
  closed : s'.closed = s.closed

theorem Session.Kept.refl (s : Session) : s.Kept s := ⟨rfl, le_rfl, rfl, rfl⟩

/-- A change of the settings leaves the account, the pool and the tokens alone. -/
theorem Client.setting_kept {α : Type} {k k' : Client σ} {o : Except Failure Unit}
    {value : Except Failure α} {f : α → Session → Session}
    (hrun : (do
      let x ← Client.Action.settle value
      Client.Action.modifySession (f x)).run k = (o, k'))
    (hf : ∀ (x : α) (s : Session), s.Kept (f x s)) :
    k'.account L = k.account L ∧ k.session.Kept k'.session := by
  obtain ⟨x, k₁, hsettle, hrun⟩ | ⟨e, hsettle, -⟩ := run_bind_cases hrun <;>
    rw [Client.Action.run_settle] at hsettle <;> cases hsettle
  · cases hrun
    exact ⟨rfl, hf x k.session⟩
  · exact ⟨rfl, .refl _⟩

/-- A cursor stands between the ones in front of it and the ones behind it, and so does the one
that takes its place. -/
theorem exists_split_of_getElem? {cursors : List Cursor} {i : Nat} {c : Cursor}
    (hc : cursors[i]? = some c) (d : Cursor) :
    ∃ pre post, cursors = pre ++ c :: post ∧ cursors.set i d = pre ++ d :: post := by
  obtain ⟨hlt, rfl⟩ := List.getElem?_eq_some_iff.1 hc
  obtain ⟨pre, post, hpre, -, hset⟩ : ∃ pre post, cursors = pre ++ cursors[i] :: post ∧
      pre.length = i ∧ cursors.set i d = pre ++ d :: post := List.exists_of_set hlt
  exact ⟨pre, post, hpre, hset⟩

variable [Clock τ]

/-- A system with a fresh session over a network on which nothing has happened, which may
have been connected, and with no cursors. -/
structure System.Begins (L : Ledger t) (s : System σ) : Prop where
  cursors : s.cursors = []
  client : ∃ k : Client σ, k.session.Fresh ∧ k.account L = .blank ∧
    (s.client = k ∨ (Client.connect t).run k = (.ok (), s.client))

namespace System

/-- What becomes of the lines and queries of a system. -/
def account (L : Ledger t) (s : System σ) : Account := s.client.account L

/-- What every history keeps. -/
def Sound (L : Ledger t) (smooth : Prop) (s : System σ) : Prop :=
  QueryDriver.Sound smooth s.client.session.token [] (s.account L) s.client.session s.cursors

/-- A system over a script that has not begun, with the session of the defaults. -/
def scripted (dials : List DialPlan) (replies : List (List ReplyItem)) : System Script :=
  ⟨⟨⟨Script.start dials replies, [], maxFrame, Journal.fresh⟩, .unbounded⟩, []⟩

theorem begins_scripted (dials : List DialPlan) (replies : List (List ReplyItem)) :
    (scripted dials replies).Begins Script.ledger :=
  ⟨rfl, _, Session.fresh_of_ofValues Session.ofValues_unbounded, rfl, .inl rfl⟩

theorem Begins.sound {s : System σ} (h : s.Begins L) : s.Sound L True := by
  obtain ⟨hcursors, k, hsession, haccount, hk⟩ := h
  have hblank := Sound.blank hsession
  rw [System.Sound, hcursors, account]
  obtain rfl | hconnect := hk
  · rw [haccount]
    exact hblank
  · have hconnected := Client.connect_connected (L := L) hconnect
    rw [haccount] at hconnected
    exact (hblank.connect hconnected).counted.mono fun _ => ⟨trivial, not_refused_ok _⟩

end System

theorem CursorOperation.keeps (op : CursorOperation) :
    Reading.Keeps L (fun o => ShowsRefusal (some o)) (op.perform t) := by
  cases op with
  | look => exact .pure _
  | next => exact Reading.Keeps.next.seq (fun _ => .pure _) fun _ => id
  | scan => exact Reading.Keeps.scan.seq (fun _ => .pure _) fun _ => id
  | one => exact Reading.Keeps.one.seq (fun _ => .pure _) fun _ => id
  | all => exact Reading.Keeps.all.seq (fun _ => .pure _) fun _ => id
  | exhaust => exact Reading.Keeps.exhaust.seq (fun _ => .pure _) fun _ => id
  | close => exact Reading.Keeps.close.seq (fun _ => .pure _) fun _ => id
  | iterate limit =>
      refine (Reading.Keeps.iterate limit).bind (fun _ => .pure _) (fun x hx => .pure ?_) ?_
      · obtain hx | ⟨vs, f, hx, hf⟩ := hx
        · exact absurd hx (not_refused_ok _)
        · cases hx
          exact hf
      · rintro e (he | ⟨vs, f, he, -⟩)
        · exact (refused_error e).1 he
        · cases he
  | visit count => exact (Reading.Keeps.visit count).seq (fun _ => .pure _) fun _ => id

namespace SessionOperation

/-- What a managed operation on a session can do to it and to the lines. -/
inductive Handled (a : Account) (s : Session) : Except Failure Answer → Account → Session → Prop
  | kept {o : Except Failure Answer} {s' : Session} (hkept : s.Kept s') : Handled a s o a s'
  | shut {o : Except Failure Answer} {a' : Account} {s' : Session}
      (hshut : Client.Shut a s a' s') : Handled a s o a' s'
  | reconnected {o : Except Failure Unit} {a₁ a' : Account} {s₁ s' : Session}
      (hshut : Client.Shut a s a₁ s₁)
      (hconnected : Client.Connected a₁ { s₁ with closed := false } o a' s') :
      Handled a s (o.map fun _ => .nothing) a' s'

theorem handled_of_perform {op : SessionOperation} (hop : (Operation.session op).Managed)
    {k k' : Client σ} {o : Except Failure Answer} (h : (op.perform t).run k = (o, k')) :
    Handled (k.account L) k.session o (k'.account L) k'.session := by
  cases op with
  | borrow count => exact hop.elim
  | execute query => exact hop.elim
  | executeClosed query => exact hop.elim
  | look =>
      cases h
      exact .kept (.refl _)
  | scope =>
      cases h
      exact .kept (.refl _)
  | nextToken =>
      cases h
      exact .kept ⟨rfl, Nat.le_succ _, rfl, rfl⟩
  | compile v =>
      rw [perform, run_bind_of_ok (Client.Action.run_session k)] at h
      obtain ⟨oc, hcompile, -⟩ := run_bind_pure h
      obtain ⟨haccount, hsession⟩ :=
        Client.compiling_cases (L := L) (Compiling.Aside.compile v _ _) hcompile
      rw [haccount, hsession]
      exact .kept (.refl _)
  | close =>
      obtain ⟨oc, hclose, -⟩ := run_bind_pure h
      exact .shut (Client.close_shut (L := L) hclose).2
  | reconnect =>
      obtain ⟨oc, hreconnect, rfl⟩ := run_bind_pure h
      obtain ⟨a, s, hshut, hconnected⟩ := Client.reconnect_connected (L := L) hreconnect
      exact .reconnected hshut hconnected
  | use database =>
      obtain ⟨oc, huse, -⟩ := run_bind_pure h
      obtain ⟨haccount, hkept⟩ := Client.setting_kept (L := L) huse fun _ _ => ⟨rfl, le_rfl, rfl, rfl⟩
      rw [haccount]
      exact .kept hkept
  | setTimeout timeout =>
      obtain ⟨oc, hset, -⟩ := run_bind_pure h
      obtain ⟨haccount, hkept⟩ := Client.setting_kept (L := L) hset fun _ _ => ⟨rfl, le_rfl, rfl, rfl⟩
      rw [haccount]
      exact .kept hkept

variable {a a' : Account} {s s' : Session} {o : Except Failure Answer}

theorem Handled.sound {smooth : Prop} {latest : Nat} {cursors : List Cursor}
    (h : Handled a s o a' s') (hsound : Sound smooth latest [] a s cursors) :
    Sound (smooth ∧ ¬ ShowsRefusal (some o)) latest [] a' s' cursors := by
  cases h with
  | kept hkept =>
      have hlater := hsound.of_session hkept.idle hkept.token hkept.maxIdle
        fun hclosed => .inl (hkept.closed ▸ hclosed)
      exact hlater.mono And.left
  | shut hshut => exact (hsound.shut hshut).1.mono And.left
  | @reconnected oc _ _ _ _ hshut hconnected =>
      refine (hsound.reconnect hshut hconnected).mono fun hs => ⟨hs.1, ?_⟩
      cases oc with
      | ok u => exact not_refused_ok _
      | error e => exact (refused_error e).not.2 hs.2

/-- What a caller does with a session sends no query. -/
theorem Handled.rounds (h : Handled a s o a' s') : a'.rounds = a.rounds := by
  cases h with
  | kept hkept => rfl
  | shut hshut => exact hshut.rounds
  | reconnected hshut hconnected => exact hconnected.rounds.trans hshut.rounds

end SessionOperation

namespace System

/-- What an operation does to a system. -/
inductive Performed (t : Transport σ τ) (s : System σ) :
    Operation → Option (Except Failure Answer) → System σ → Prop
  | opened {v : Value} {c : Cursor} {k : Client σ}
      (hrun : (Client.run t v).run s.client = (.ok c, k)) :
    Performed t s (.run v) (some (.ok (.handedOut s.cursors.length))) ⟨k, s.cursors ++ [c]⟩
  | unopened {v : Value} {e : Failure} {k : Client σ}
      (hrun : (Client.run t v).run s.client = (.error e, k)) :
    Performed t s (.run v) (some (.error e)) ⟨k, s.cursors⟩
  /-- There is no cursor of the number. -/
  | idle {i : Nat} {op : CursorOperation} (hnone : s.cursors[i]? = none) :
    Performed t s (.cursor i op) none s
  | read {i : Nat} {op : CursorOperation} {c : Cursor} {o : Except Failure Answer} {r : Reader σ}
      (hc : s.cursors[i]? = some c) (hrun : (op.perform t).run ⟨s.client, c⟩ = (o, r)) :
    Performed t s (.cursor i op) (some o) ⟨r.client, s.cursors.set i r.cursor⟩
  | kept {op : SessionOperation} {o : Except Failure Answer} {k : Client σ}
      (hrun : (op.perform t).run s.client = (o, k)) :
    Performed t s (.session op) (some o) ⟨k, s.cursors⟩

theorem performed_of_perform {s s' : System σ} {op : Operation}
    {o : Option (Except Failure Answer)} (h : s.perform t op = (o, s')) :
    Performed t s op o s' := by
  cases op with
  | run v =>
      rcases hrun : (Client.run t v).run s.client with ⟨e | c, k⟩ <;>
        rw [System.perform, hrun] at h <;> cases h
      · exact .unopened hrun
      · exact .opened hrun
  | cursor i op =>
      rw [System.perform] at h
      cases hc : s.cursors[i]? with
      | none =>
          rw [hc] at h
          cases h
          exact .idle hc
      | some c =>
          rcases hrun : (op.perform t).run ⟨s.client, c⟩ with ⟨oc, r⟩
          simp only [hc, hrun] at h
          cases h
          exact .read hc hrun
  | session op =>
      rcases hrun : (op.perform t).run s.client with ⟨os, k⟩
      simp only [System.perform, hrun] at h
      cases h
      exact .kept hrun

theorem Sound.perform {smooth : Prop} {s s' : System σ} {op : Operation}
    {o : Option (Except Failure Answer)} (h : s.Sound L smooth) (hop : op.Managed)
    (hrun : s.perform t op = (o, s')) : s'.Sound L (smooth ∧ ¬ ShowsRefusal o) := by
  cases performed_of_perform hrun with
  | opened hr =>
      obtain ⟨hok, -⟩ := QueryDriver.Sound.run h (Client.run_ran hr)
      exact (hok _ rfl).mono And.left
  | unopened hr =>
      obtain ⟨-, herror⟩ := QueryDriver.Sound.run h (Client.run_ran hr)
      exact herror _ rfl
  | idle hnone => exact QueryDriver.Sound.mono h And.left
  | @read i op c _ r hc hr =>
      obtain ⟨pre, post, hpre, hset⟩ := exists_split_of_getElem? hc r.cursor
      rw [System.Sound, hpre] at h
      obtain ⟨hsound, -⟩ := op.keeps hr h
      rw [System.Sound, hset]
      exact hsound.counted
  | @kept op _ k hr =>
      exact ((SessionOperation.handled_of_perform (L := L) hop hr).sound h).counted

theorem Sound.play {smooth : Prop} {s : System σ} {ops : List Operation} (h : s.Sound L smooth)
    (hops : ∀ op ∈ ops, op.Managed) :
    (s.play t ops).2.Sound L (smooth ∧ ∀ o ∈ (s.play t ops).1, ¬ ShowsRefusal o) := by
  induction ops generalizing smooth s with
  | nil => exact QueryDriver.Sound.mono h And.left
  | cons op ops ih =>
      obtain ⟨hop, hops⟩ := List.forall_mem_cons.1 hops
      have hlater := ih (h.perform hop rfl) hops
      refine QueryDriver.Sound.mono hlater fun hs => ?_
      obtain ⟨hsmooth, hall⟩ := hs
      obtain ⟨hfirst, hrest⟩ := List.forall_mem_cons.1 hall
      exact ⟨⟨hsmooth, hfirst⟩, hrest⟩

end System

end QueryDriver
