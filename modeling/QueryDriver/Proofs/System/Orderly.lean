import QueryDriver.Proofs.Session.Opening
import QueryDriver.Proofs.System.Moving
import QueryDriver.Proofs.System.Streams

/-!
# Orderly systems

Every history of managed operations leaves a system in order: its cursors are apt, and the ones
that an answer was made into have tokens of their own. So a query for one cursor is nothing to the
others, and nothing to a cursor that holds no connection. A cursor that is spent stays as it is,
whatever is done with the system.
-/

namespace QueryDriver

open Net Wire

variable {σ τ : Type} {t : Transport σ τ} {L : Ledger t}

namespace Net.Account

/-- Rounds with other tokens are no part of a dialogue. -/
theorem dialogue_eq_of_ne {a a' : Account} {token : Int64} {new : List Round}
    (hrounds : a'.rounds = new ++ a.rounds) (hnew : ∀ x ∈ new, x.token ≠ token) :
    a'.dialogue token = a.dialogue token := by
  have hnone : new.reverse.filter (fun x => x.token = token) = [] := by
    simpa [List.filter_eq_nil_iff] using hnew
  rw [dialogue, dialogue, chronicle, chronicle, hrounds, List.reverse_append, List.filter_append,
    hnone, List.append_nil]

end Net.Account

namespace Client

variable {a a' : Account} {s s' : Session}

theorem Acquired.counted {o : Except Failure Connection} (h : Acquired a s o a' s') :
    s'.token = s.token := by
  cases h <;> rfl

theorem Answered.counted {c : Connection} {token : Int64} {r : Response} {cur : Cursor}
    (h : Answered c token r a s cur a' s') : s'.token = s.token := by
  cases h with
  | kept v timeFormat hshape => rfl
  | whole v timeFormat shape a' s' hshape hwhole hrelease => exact hrelease.counted
  | reported e a' s' hshape hrelease => exact hrelease.counted
  | unexpected e hshape => rfl

/-- The cursors that answers are made into are apt, and have the token of the query if there are
rows to it. -/
theorem Answered.apt {c : Connection} {token : Int64} {r : Response} {cur : Cursor}
    (h : Answered c token r a s cur a' s') :
    cur.Apt ∧ (cur.shape = none ∧ cur.token = 0 ∨ cur.shape ≠ none ∧ cur.token = token) := by
  cases h with
  | kept v timeFormat hshape =>
      have hmore : false = true ↔ some c = none := by simp
      exact ⟨.start hmore v timeFormat, .inr ⟨Option.some_ne_none _, rfl⟩⟩
  | whole v timeFormat shape a' s' hshape hwhole hrelease =>
      exact ⟨.start ⟨fun _ => rfl, fun _ => rfl⟩ v timeFormat, .inr ⟨Option.some_ne_none _, rfl⟩⟩
  | reported e a' s' hshape hrelease => exact ⟨.failed e, .inl ⟨rfl, rfl⟩⟩
  | unexpected e hshape => exact ⟨.failed e, .inl ⟨rfl, rfl⟩⟩

/-- The cursor that a run hands out has the token that the run has counted. -/
theorem Ran.apt {cur : Cursor} (h : Ran a s (.ok cur) a' s') :
    cur.Apt ∧ (cur.shape = none ∧ cur.token = 0 ∨
      cur.shape ≠ none ∧ cur.token.toInt = s.token + 1 ∧ s'.token = s.token + 1) := by
  cases h with
  | uncompiled e => exact ⟨.failed e, .inl ⟨rfl, rfl⟩⟩
  | answered c query r cur a₁ a₂ a' s₁ s' hacquired hstart htoken hexchanged hanswered =>
      obtain ⟨hapt, hnumber⟩ := hanswered.apt
      refine ⟨hapt, hnumber.imp_right fun hnumber => ⟨hnumber.1, ?_, ?_⟩⟩
      · rw [hnumber.2, htoken]
      · rw [hanswered.counted, hacquired.counted]
        rfl

/-- The query that a run has begun, if it has, has the token that the run has counted. -/
theorem Ran.asked {o : Except Failure Cursor} (h : Ran a s o a' s') :
    s.token ≤ s'.token ∧ ∃ new, a'.rounds = new ++ a.rounds ∧
      ∀ x ∈ new, x.token.toInt = s.token + 1 := by
  cases h with
  | uncompiled e => exact ⟨le_rfl, [], rfl, List.forall_mem_nil _⟩
  | uncounted e => exact ⟨le_rfl, [], rfl, List.forall_mem_nil _⟩
  | unsent e => exact ⟨Nat.le_succ _, [], rfl, List.forall_mem_nil _⟩
  | unconnected e a' s' hacquired =>
      exact ⟨hacquired.counted ▸ Nat.le_succ _, [], hacquired.rounds, List.forall_mem_nil _⟩
  | unanswered c query e a₁ a' s' hacquired hstart htoken hexchanged =>
      obtain ⟨new, hnew, hall⟩ := hexchanged.asked
      refine ⟨hacquired.counted ▸ Nat.le_succ _, new, ?_, fun x hx => (hall x hx) ▸ htoken⟩
      rw [Account.rounds_shut, hnew, hacquired.rounds]
  | answered c query r cur a₁ a₂ a' s₁ s' hacquired hstart htoken hexchanged hanswered =>
      obtain ⟨new, hnew, hall⟩ := hexchanged.asked
      refine ⟨(hanswered.counted.trans hacquired.counted) ▸ Nat.le_succ _, new, ?_,
        fun x hx => (hall x hx) ▸ htoken⟩
      rw [hanswered.rounds, hnew, hacquired.rounds]

end Client

/-- The operation is about another cursor than the one of a number, or about none. -/
def Operation.Spares (i : Nat) : Operation → Prop
  | .cursor j _ => j ≠ i
  | _ => True

variable [Clock τ]

namespace System

variable {s s' : System σ}

omit [Clock τ]

/-- The cursors of a system are apt, and those that have rows have tokens of their own. -/
structure Orderly (s : System σ) : Prop where
  apt : ∀ (i : Nat) (c : Cursor), s.cursors[i]? = some c → c.Apt
  numbered : ∀ (i : Nat) (c : Cursor), s.cursors[i]? = some c → c.shape = none ∧ c.token = 0 ∨
    c.shape ≠ none ∧ 0 < c.token.toInt ∧ c.token.toInt ≤ s.client.session.token
  apart : ∀ (i j : Nat) (c d : Cursor), s.cursors[i]? = some c → s.cursors[j]? = some d →
    c.shape ≠ none → d.shape ≠ none → c.token = d.token → i = j

theorem Begins.orderly [Clock τ] (h : s.Begins L) : s.Orderly := by
  refine ⟨?_, ?_, ?_⟩ <;> simp [h.cursors]

/-- A query for one cursor is no query for another one. -/
theorem Orderly.token_ne (h : s.Orderly) {i j : Nat} {c d : Cursor} (hc : s.cursors[i]? = some c)
    (hd : s.cursors[j]? = some d) (hij : j ≠ i) (hshape : d.shape ≠ none) : d.token ≠ c.token := by
  intro heq
  obtain ⟨hnone, hzero⟩ | ⟨hcshape, -⟩ := h.numbered i c hc
  · obtain ⟨hnone, -⟩ | ⟨-, hpos, -⟩ := h.numbered j d hd
    · exact hshape hnone
    · rw [heq, hzero] at hpos
      exact absurd hpos (by decide)
  · exact hij (h.apart j i d c hd hc hshape hcshape heq)

/-- Tokens may be counted on. -/
theorem Orderly.mono (h : s.Orderly) (hcursors : s'.cursors = s.cursors)
    (hcounted : s.client.session.token ≤ s'.client.session.token) : s'.Orderly := by
  refine ⟨?_, ?_, ?_⟩ <;> rw [hcursors]
  · exact h.apt
  · exact fun i c hc => (h.numbered i c hc).imp_right fun hn =>
      ⟨hn.1, hn.2.1, hn.2.2.trans (Int.ofNat_le.2 hcounted)⟩
  · exact h.apart

/-- One more cursor fits in if it has no rows or the token that was counted for it. -/
theorem Orderly.concat (h : s.Orderly) {cur : Cursor} (hcursors : s'.cursors = s.cursors ++ [cur])
    (hcounted : s.client.session.token ≤ s'.client.session.token) (hapt : cur.Apt)
    (hnumber : cur.shape = none ∧ cur.token = 0 ∨
      cur.shape ≠ none ∧ cur.token.toInt = s.client.session.token + 1 ∧
        s'.client.session.token = s.client.session.token + 1) : s'.Orderly := by
  -- the token of a cursor that was there is one that was counted before
  have hnewer {i : Nat} {c : Cursor} (hc : s.cursors[i]? = some c) (hshape : c.shape ≠ none)
      (hcur : cur.shape ≠ none) : c.token ≠ cur.token := by
    intro heq
    obtain ⟨hnone, -⟩ | ⟨-, -, hle⟩ := h.numbered i c hc
    · exact hshape hnone
    · obtain ⟨hnone, -⟩ | ⟨-, hnext, -⟩ := hnumber
      · exact hcur hnone
      · rw [heq, hnext] at hle
        omega
  refine ⟨?_, ?_, ?_⟩ <;> rw [hcursors]
  · intro i c hc
    obtain hc | ⟨-, rfl⟩ := getElem?_concat_cases hc
    · exact h.apt i c hc
    · exact hapt
  · intro i c hc
    obtain hc | ⟨-, rfl⟩ := getElem?_concat_cases hc
    · exact (h.numbered i c hc).imp_right fun hn => ⟨hn.1, hn.2.1, by omega⟩
    · exact hnumber.imp_right fun hn => ⟨hn.1, by omega, by omega⟩
  · intro i j c d hc hd hcs hds heq
    obtain hc' | ⟨rfl, rfl⟩ := getElem?_concat_cases hc <;>
      obtain hd' | ⟨rfl, rfl⟩ := getElem?_concat_cases hd
    · exact h.apart i j c d hc' hd' hcs hds heq
    · exact absurd heq (hnewer hc' hcs hds)
    · exact absurd heq.symm (hnewer hd' hds hcs)
    · rfl

/-- A cursor may be replaced by one with its token and its shape. -/
theorem Orderly.set (h : s.Orderly) {i : Nat} {c c' : Cursor} (hc : s.cursors[i]? = some c)
    (hcursors : s'.cursors = s.cursors.set i c')
    (hcounted : s'.client.session.token = s.client.session.token) (hapt : c'.Apt)
    (hsame : c.Same c') : s'.Orderly := by
  refine ⟨?_, ?_, ?_⟩ <;> rw [hcursors]
  · intro j d hd
    obtain ⟨-, rfl⟩ | ⟨-, hd⟩ := getElem?_set_cases hd
    · exact hapt
    · exact h.apt j d hd
  · intro j d hd
    rw [hcounted]
    obtain ⟨-, rfl⟩ | ⟨-, hd⟩ := getElem?_set_cases hd
    · rw [hsame.shape, hsame.token]
      exact h.numbered i c hc
    · exact h.numbered j d hd
  · intro j k d e hd he hds hes heq
    obtain ⟨rfl, rfl⟩ | ⟨-, hd'⟩ := getElem?_set_cases hd <;>
      obtain ⟨rfl, rfl⟩ | ⟨-, he'⟩ := getElem?_set_cases he
    · rfl
    · rw [hsame.shape] at hds
      rw [hsame.token] at heq
      exact h.apart _ k c e hc he' hds hes heq
    · rw [hsame.shape] at hes
      rw [hsame.token] at heq
      exact h.apart j _ d c hd' hc hds hes heq
    · exact h.apart j k d e hd' he' hds hes heq

variable [Clock τ]

/-- A cursor that an operation is not about is left as it is. -/
theorem getElem?_perform {i : Nat} {c : Cursor} {op : Operation}
    {o : Option (Except Failure Answer)} (hop : op.Spares i) (hc : s.cursors[i]? = some c)
    (hrun : s.perform t op = (o, s')) : s'.cursors[i]? = some c := by
  cases performed_of_perform hrun with
  | opened hr => exact (List.getElem?_append_left (List.getElem?_eq_some_iff.1 hc).1).trans hc
  | unopened hr => exact hc
  | idle hnone => exact hc
  | read hd hr => exact (List.getElem?_set_ne hop).trans hc
  | kept hr => exact hc

/-- What an operation on a cursor has made of the system. -/
theorem perform_cursor {i : Nat} {c : Cursor} {op : CursorOperation}
    {o : Option (Except Failure Answer)} (hc : s.cursors[i]? = some c)
    (hrun : s.perform t (.cursor i op) = (o, s')) :
    ∃ oc r, (op.perform t).run ⟨s.client, c⟩ = (oc, r) ∧ o = some oc ∧ s'.client = r.client ∧
      s'.cursors = s.cursors.set i r.cursor ∧ s'.cursors[i]? = some r.cursor := by
  cases performed_of_perform hrun with
  | idle hnone => cases hc.symm.trans hnone
  | read hc' hr =>
      cases hc.symm.trans hc'
      exact ⟨_, _, hr, rfl, rfl, rfl, List.getElem?_set_self (List.getElem?_eq_some_iff.1 hc).1⟩

/-- A run that hands out a cursor says so. -/
theorem perform_run_of_length {v : Value} {o : Option (Except Failure Answer)}
    (hrun : s.perform t (.run v) = (o, s')) (hlength : s.cursors.length < s'.cursors.length) :
    o = some (.ok (.handedOut s.cursors.length)) := by
  cases performed_of_perform hrun with
  | opened hr => rfl
  | unopened hr => exact absurd hlength (lt_irrefl _)

/-- What an operation counts and asks, as long as it is left to the driver. -/
structure Asked (L : Ledger t) (s : System σ) (op : Operation) (s' : System σ) : Prop where
  counted : s.client.session.token ≤ s'.client.session.token
  /-- A query that was begun is the one of a run, or one for a cursor that held a connection. -/
  rounds : ∃ new, (s'.account L).rounds = new ++ (s.account L).rounds ∧ ∀ x ∈ new,
    x.token.toInt = s.client.session.token + 1 ∨
      ∃ j operation d, op = .cursor j operation ∧ s.cursors[j]? = some d ∧ d.connection ≠ none ∧
        x.token = d.token

theorem Orderly.perform {smooth : Prop} {op : Operation} {o : Option (Except Failure Answer)}
    (h : s.Orderly) (hsound : s.Sound L smooth) (hop : op.Managed)
    (hrun : s.perform t op = (o, s')) : s'.Orderly ∧ s.Asked L op s' := by
  cases performed_of_perform hrun with
  | opened hr =>
      have hran := Client.run_ran (L := L) hr
      obtain ⟨hcounted, new, hnew, htoken⟩ := hran.asked
      obtain ⟨hapt, hnumber⟩ := hran.apt
      exact ⟨h.concat rfl hcounted hapt hnumber, hcounted, new, hnew,
        fun x hx => .inl (htoken x hx)⟩
  | unopened hr =>
      obtain ⟨hcounted, new, hnew, htoken⟩ := (Client.run_ran (L := L) hr).asked
      exact ⟨h.mono rfl hcounted, hcounted, new, hnew, fun x hx => .inl (htoken x hx)⟩
  | idle hnone => exact ⟨h, le_rfl, [], rfl, List.forall_mem_nil _⟩
  | @read i operation c _ r hc hr =>
      have hmoves := (Reading.leads_perform (L := L) operation).run hr (h.apt i c hc)
      obtain ⟨new, hnew, htoken, hnone⟩ := hmoves.asked
      have hheld {x : Round} (hx : x ∈ new) : c.connection ≠ none := by
        intro hconn
        rw [hnone hconn] at hx
        exact absurd hx List.not_mem_nil
      exact ⟨h.set hc rfl hmoves.counted hmoves.apt hmoves.same, le_of_eq hmoves.counted.symm, new,
        hnew, fun x hx => .inr ⟨i, operation, c, rfl, hc, hheld hx, htoken x hx⟩⟩
  | @kept operation _ k hr =>
      have hhandled := SessionOperation.handled_of_perform (L := L) hop hr
      have hcounted := (hhandled.sound hsound).latest_le
      exact ⟨h.mono rfl hcounted, hcounted, [], hhandled.rounds, List.forall_mem_nil _⟩

omit [Clock τ] in
/-- Queries that an operation begins are none for a cursor that it is not about, and none for a
cursor that holds no connection. -/
theorem Orderly.others {op : Operation} (h : s.Orderly) (hasked : s.Asked L op s') {i : Nat}
    {c : Cursor} (hc : s.cursors[i]? = some c) (hother : op.Spares i ∨ c.connection = none) :
    ∃ new, (s'.account L).rounds = new ++ (s.account L).rounds ∧
      ∀ x ∈ new, x.token ≠ c.token := by
  obtain ⟨new, hnew, htoken⟩ := hasked.rounds
  refine ⟨new, hnew, fun x hx heq => ?_⟩
  obtain hnext | ⟨j, operation, d, rfl, hd, hheld, hd'⟩ := htoken x hx
  · rw [heq] at hnext
    obtain ⟨-, hzero⟩ | ⟨-, -, hle⟩ := h.numbered i c hc
    · rw [hzero] at hnext
      change (0 : Int) = _ at hnext
      omega
    · omega
  · obtain ⟨conn, hconn⟩ := Option.ne_none_iff_exists'.1 hheld
    by_cases hij : j = i
    · subst hij
      cases hc.symm.trans hd
      exact hother.elim (fun hspares => hspares rfl) hheld
    · exact h.token_ne hc hd hij ((h.apt j d hd).shape_ne hconn) (hd'.symm.trans heq)

/-- A cursor that is spent stays so, with the error that it has, and no query is sent for it. -/
theorem Orderly.spent_perform {smooth : Prop} {op : Operation}
    {o : Option (Except Failure Answer)} (h : s.Orderly) (hsound : s.Sound L smooth)
    (hop : op.Managed) {i : Nat} {c : Cursor} (hc : s.cursors[i]? = some c) (hspent : c.Spent)
    (hrun : s.perform t op = (o, s')) :
    ∃ c', s'.cursors[i]? = some c' ∧ c'.Spent ∧ c'.error = c.error ∧ c.Same c' ∧
      (s'.account L).dialogue c.token = (s.account L).dialogue c.token := by
  obtain ⟨-, hasked⟩ := h.perform hsound hop hrun
  have hnone : c.connection = none := (h.apt i c hc).open_ hspent.1
  obtain ⟨new, hnew, hne⟩ := h.others hasked hc (.inr hnone)
  have hdialogue := Account.dialogue_eq_of_ne hnew hne
  by_cases hspares : op.Spares i
  · exact ⟨c, getElem?_perform hspares hc hrun, hspent, rfl, .refl c, hdialogue⟩
  · obtain ⟨operation, rfl⟩ : ∃ operation, op = .cursor i operation := by
      cases op with
      | run v => exact absurd trivial hspares
      | cursor j operation => exact ⟨operation, by rw [not_not.1 hspares]⟩
      | session operation => exact absurd trivial hspares
    obtain ⟨oc, r, hr, -, -, -, hget⟩ := perform_cursor hc hrun
    have hmoves := (Reading.leads_perform (L := L) operation).run hr (h.apt i c hc)
    obtain ⟨hspent', herror⟩ := hmoves.spent hspent
    exact ⟨r.cursor, hget, hspent', herror, hmoves.same, hdialogue⟩

theorem Orderly.play {smooth : Prop} {ops : List Operation} (h : s.Orderly)
    (hsound : s.Sound L smooth) (hops : ∀ op ∈ ops, op.Managed) : (s.play t ops).2.Orderly := by
  induction ops generalizing smooth s with
  | nil => exact h
  | cons op ops ih =>
      obtain ⟨hop, hops⟩ := List.forall_mem_cons.1 hops
      exact ih (h.perform hsound hop rfl).1 (hsound.perform hop rfl) hops

theorem Orderly.spent_play {smooth : Prop} {ops : List Operation} (h : s.Orderly)
    (hsound : s.Sound L smooth) (hops : ∀ op ∈ ops, op.Managed) {i : Nat} {c : Cursor}
    (hc : s.cursors[i]? = some c) (hspent : c.Spent) :
    ∃ c', (s.play t ops).2.cursors[i]? = some c' ∧ c'.Spent ∧ c'.error = c.error ∧ c.Same c' ∧
      ((s.play t ops).2.account L).dialogue c.token = (s.account L).dialogue c.token := by
  induction ops generalizing smooth s c with
  | nil => exact ⟨c, hc, hspent, rfl, .refl c, rfl⟩
  | cons op ops ih =>
      obtain ⟨hop, hops⟩ := List.forall_mem_cons.1 hops
      obtain ⟨c₁, hc₁, hspent₁, herror₁, hsame₁, hdialogue₁⟩ :=
        h.spent_perform (L := L) hsound hop hc hspent rfl
      obtain ⟨c', hc', hspent', herror', hsame', hdialogue'⟩ :=
        ih (h.perform hsound hop rfl).1 (hsound.perform hop rfl) hops hc₁ hspent₁
      rw [hsame₁.token] at hdialogue'
      exact ⟨c', hc', hspent', herror'.trans herror₁, hsame₁.trans hsame',
        hdialogue'.trans hdialogue₁⟩

end System

end QueryDriver
