import QueryDriver.Proofs.System.Streams
import QueryDriver.Proofs.System.Traffic

/-!
# What streams deliver

In a history of runs and of reading, on a server that keeps to its plan, every cursor
delivers the rows that the server has for it, in order, however it is read and whatever is
done with other cursors in between. To drain it takes a query to start and a query to
continue for every batch but the first, and none to stop; and its connection is given back
once, when the last batch has arrived.
-/

namespace QueryDriver

open Net Wire

variable {σ τ : Type} {t : Transport σ τ} {L : Ledger t}

/-- What the operations of a history have done with a cursor. -/
def dealings (i : Nat) (ops : List Operation) (outcomes : List (Option (Except Failure Answer))) :
    List (CursorOperation × Except Failure Answer) :=
  (ops.zip outcomes).flatMap fun x => dealing i x.1 x.2

theorem dealings_cons (i : Nat) (op : Operation) (ops : List Operation)
    (o : Option (Except Failure Answer)) (outcomes : List (Option (Except Failure Answer))) :
    dealings i (op :: ops) (o :: outcomes) = dealing i op o ++ dealings i ops outcomes := rfl

namespace System

variable [Clock τ] {plan : Plan} {readers : Nat → RowReader} {s s' : System σ}
  {ops : List Operation}

theorem play_cons (t : Transport σ τ) (s : System σ) (op : Operation) (ops : List Operation) :
    s.play t (op :: ops) = ((s.perform t op).1 :: ((s.perform t op).2.play t ops).1,
      ((s.perform t op).2.play t ops).2) := rfl

theorem Sound.onward_play {smooth : Prop} (h : s.Sound L smooth)
    (hops : ∀ op ∈ ops, op.Managed) :
    s.Onward L (s.play t ops).2 := by
  induction ops generalizing s smooth with
  | nil => exact .refl s
  | cons op ops ih =>
      obtain ⟨hop, hops⟩ := List.forall_mem_cons.1 hops
      exact (h.onward hop rfl).trans (ih (h.perform hop rfl) hops)

/-- Histories of runs and of reading keep `Streams`, with the readers moved on, and cursors
answer as their readers do. -/
theorem Streams.play (hmetered : Metered t) (h : s.Streams L plan readers)
    (hops : ∀ op ∈ ops, op.Reads) (hplan : ∀ token, plan token ≠ [])
    (hserved : Served plan ((s.play t ops).2.account L).rounds)
    (hnew : ∀ i c, s.cursors.length ≤ i → (s.play t ops).2.cursors[i]? = some c →
      c.shape ≠ none → ∃ vs, readers i = .start vs ∧ c.Decodes plan vs) :
    (s.play t ops).2.Streams L plan
        (fun i => (readers i).after ((dealings i ops (s.play t ops).1).map Prod.fst)) ∧
      ∀ i c, (s.play t ops).2.cursors[i]? = some c → c.shape ≠ none →
        (dealings i ops (s.play t ops).1).map Prod.snd =
          (readers i).answers ((dealings i ops (s.play t ops).1).map Prod.fst) := by
  induction ops generalizing s readers with
  | nil => exact ⟨h, fun i c hc hshape => rfl⟩
  | cons op ops ih =>
      obtain ⟨hop, hops⟩ := List.forall_mem_cons.1 hops
      obtain ⟨smooth, hsound⟩ := h.sound
      rw [play_cons] at hserved hnew ⊢
      rcases hrun : s.perform t op with ⟨o, s₁⟩
      rw [hrun] at hserved hnew
      have hsound₁ := hsound.perform hop.managed hrun
      have honward := hsound₁.onward_play (t := t) fun op hop => (hops op hop).managed
      have hdid := h.did hmetered hop hplan hrun (hserved.mono honward.rounds)
      have hstreams : s₁.Streams L plan (readersAfter readers op o) := by
        refine hdid.streams h ⟨_, hsound₁⟩ fun c hc hshape => ?_
        obtain ⟨c', hc', hsame⟩ := honward.same _ c hc
        obtain ⟨vs, hstart, hvs⟩ := hnew _ c' le_rfl hc' (hsame.shape ▸ hshape)
        exact ⟨vs, hstart, hvs.of_same hsame⟩
      have hlen := (hsound.onward hop.managed hrun).length_le
      have hnew' (i : Nat) (c : Cursor) (hi : s₁.cursors.length ≤ i)
          (hc : (s₁.play t ops).2.cursors[i]? = some c) (hshape : c.shape ≠ none) :
          ∃ vs, readersAfter readers op o i = .start vs ∧ c.Decodes plan vs := by
        rw [readersAfter, hdid.dealing_eq_nil (List.getElem?_eq_none (hlen.trans hi))]
        exact hnew i c (hlen.trans hi) hc hshape
      obtain ⟨hlater, hanswers⟩ := ih hstreams hops hserved hnew'
      simp only [dealings_cons, List.map_append, RowReader.after_append, RowReader.answers_append]
      refine ⟨hlater, fun i c hc hshape => ?_⟩
      rw [hanswers i c hc hshape, hdid.answers fun d hd => ?_, readersAfter]
      obtain ⟨c₁, hc₁, hsame₁⟩ := (hsound.onward hop.managed hrun).same i d hd
      obtain ⟨c', hc', hsame⟩ := honward.same i c₁ hc₁
      cases hc.symm.trans hc'
      rw [← (hsame₁.trans hsame).shape]
      exact hshape

theorem play_append (t : Transport σ τ) (s : System σ) (ops ops' : List Operation) :
    (s.play t (ops ++ ops')).2 = ((s.play t ops).2.play t ops').2 := by
  induction ops generalizing s with
  | nil => rfl
  | cons op ops ih => exact ih _

theorem Sound.onward_take {smooth : Prop} (h : s.Sound L smooth) (hops : ∀ op ∈ ops, op.Reads)
    (k : Nat) : (s.play t (ops.take k)).2.Onward L (s.play t ops).2 := by
  have hmanaged : ∀ op ∈ ops.take k, op.Managed :=
    fun op hop => (hops op (List.mem_of_mem_take hop)).managed
  have hdrop : ∀ op ∈ ops.drop k, op.Managed :=
    fun op hop => (hops op (List.mem_of_mem_drop hop)).managed
  have honward := (h.play (t := t) hmanaged).onward_play (t := t) hdrop
  rwa [← play_append, List.take_append_drop] at honward

theorem Streams.did_of_play (hmetered : Metered t) (h : s.Streams L plan readers)
    (hops : ∀ op ∈ ops, op.Reads) (hplan : ∀ token, plan token ≠ [])
    (hserved : Served plan ((s.play t ops).2.account L).rounds)
    (hnew : ∀ i c, s.cursors.length ≤ i → (s.play t ops).2.cursors[i]? = some c →
      c.shape ≠ none → ∃ vs, readers i = .start vs ∧ c.Decodes plan vs)
    {k : Nat} {op : Operation} (hk : ops[k]? = some op) :
    ∃ readers' o, (s.play t (ops.take k)).2.Did L plan readers' op o
      (s.play t (ops.take (k + 1))).2 := by
  obtain ⟨smooth, hsound⟩ := h.sound
  have honward := hsound.onward_take (t := t) hops
  obtain ⟨hstreams, -⟩ := h.play (t := t) hmetered
    (fun op hop => hops op (List.mem_of_mem_take hop)) hplan (hserved.mono (honward k).rounds)
    fun i c hi hc hshape => by
      obtain ⟨c', hc', hsame⟩ := (honward k).same i c hc
      obtain ⟨vs, hstart, hvs⟩ := hnew i c' hi hc' (hsame.shape ▸ hshape)
      exact ⟨vs, hstart, hvs.of_same hsame⟩
  have hserved₁ := hserved.mono (honward (k + 1)).rounds
  rw [List.take_add_one, hk, Option.toList_some, play_append] at hserved₁ ⊢
  exact ⟨_, _, hstreams.did hmetered (hops op (List.mem_of_getElem? hk)) hplan rfl hserved₁⟩

/-- The cursor was handed out, and holds no connection. -/
def IsFree (i : Nat) (s : System σ) : Prop :=
  ∃ c, s.cursors[i]? = some c ∧ c.connection = none

/-- The connection of a cursor is given back, because the last of its batches has arrived. -/
inductive HandsBack (L : Ledger t) (i : Nat) (s s' : System σ) : Prop
  /-- The first batch is the only one, and the cursor is handed out without its connection. -/
  | whole (conn : Connection) (c : Cursor) (x : Round) (a : Account) (session : Session)
      (hnone : s.cursors[i]? = none) (hc : s'.cursors[i]? = some c) (hfree : c.connection = none)
      (hacquired : Client.Acquired (s.account L) s.client.session.counted (.ok conn) a session)
      (hopen : conn.line ∉ a.closed) (hline : x.line = conn.line) (hstart : x.IsOf .start)
      (htoken : x.token = c.token) (hfull : x.AnsweredFully)
      (hrelease : Client.Released conn (a.begin x) session (s'.account L) s'.client.session)
  | last (conn : Connection) (c c' : Cursor) (x : Round) (new : List Round)
      (hc : s.cursors[i]? = some c) (hheld : c.connection = some conn)
      (hc' : s'.cursors[i]? = some c') (hfree : c'.connection = none)
      (hopen : conn.line ∉ (s.account L).closed)
      (hlast : x.Continues conn c.token ∧ x.AnsweredFully)
      (hnew : ∀ x ∈ new, x.Continues conn c.token ∧ x.AnsweredPartially)
      (hrelease : Client.Released conn
        { s.account L with rounds := x :: (new ++ (s.account L).rounds) } s.client.session
        (s'.account L) s'.client.session)

omit [Clock τ] in
theorem HandsBack.flips {i : Nat} (h : HandsBack L i s s') : ¬ s.IsFree i ∧ s'.IsFree i := by
  cases h with
  | whole conn c x a session hnone hc hfree _ _ _ _ _ _ _ =>
      refine ⟨?_, c, hc, hfree⟩
      rintro ⟨d, hd, -⟩
      cases hnone.symm.trans hd
  | last conn c c' x new hc hheld hc' hfree _ _ _ _ =>
      refine ⟨?_, c', hc', hfree⟩
      rintro ⟨d, hd, hnone⟩
      cases hc.symm.trans hd
      cases hheld.symm.trans hnone

omit [Clock τ] in
theorem Sound.open_of_held {smooth : Prop} (h : s.Sound L smooth) {i : Nat} {c : Cursor}
    {conn : Connection} (hc : s.cursors[i]? = some c) (hconn : c.connection = some conn) :
    conn.line ∉ (s.account L).closed := by
  have hline : conn.line ∈ c.lines := by simp [Cursor.lines, hconn]
  have hheld : conn.line ∈ s.client.session.lines ++ heldBy s.cursors :=
    List.mem_append_right _ (List.mem_flatMap.2 ⟨c, List.mem_of_getElem? hc, hline⟩)
  exact (h.custody.ready conn.line hheld).open_

variable {op : Operation} {o : Option (Except Failure Answer)}

omit [Clock τ] in
/-- A cursor that holds no connection is given none. -/
theorem Did.isFree (hdid : s.Did L plan readers op o s') {i : Nat} (h : s.IsFree i) :
    s'.IsFree i := by
  obtain ⟨d, hd, hnone⟩ := h
  have hlt := (List.getElem?_eq_some_iff.1 hd).1
  cases hdid with
  | @read j op c r hc hshape hfed hshows hdrawn hsame =>
      by_cases hji : j = i
      · subst hji
        cases hc.symm.trans hd
        rw [hnone] at hdrawn
        exact ⟨r.cursor, List.getElem?_set_self hlt, hdrawn.of_none.1⟩
      · exact ⟨d, (List.getElem?_set_ne hji).trans hd, hnone⟩
  | idle hc ho => exact ⟨d, hd, hnone⟩
  | opened hopened => exact ⟨d, (List.getElem?_append_left hlt).trans hd, hnone⟩
  | reported haccount => exact ⟨d, (List.getElem?_append_left hlt).trans hd, hnone⟩
  | failed hrounds => exact ⟨d, hd, hnone⟩

omit [Clock τ] in
/-- Where a cursor comes to hold no connection, the connection is given back. -/
theorem Did.handsBack {smooth : Prop} (hdid : s.Did L plan readers op o s')
    (hsound : s.Sound L smooth) {i : Nat} (hheld : ¬ s.IsFree i) (hfree : s'.IsFree i)
    (hshape : ∀ c, s'.cursors[i]? = some c → c.shape ≠ none) : HandsBack L i s s' := by
  obtain ⟨d, hd, hnone⟩ := hfree
  cases hdid with
  | @read j op c r hc _ hfed hshows hdrawn hsame =>
      by_cases hji : j = i
      · subst hji
        have hlt := (List.getElem?_eq_some_iff.1 hc).1
        cases (List.getElem?_set_self hlt).symm.trans hd
        obtain ⟨conn, hconn⟩ : ∃ conn, c.connection = some conn :=
          Option.ne_none_iff_exists'.1 fun hconn => hheld ⟨c, hc, hconn⟩
        rw [hconn, hnone] at hdrawn
        obtain ⟨x, new, hlast, hnew, hrelease⟩ := hdrawn.handedBack_of_none
        exact .last conn c r.cursor x new hc hconn hd hnone (hsound.open_of_held hc hconn) hlast
          hnew hrelease
      · exact absurd ⟨d, (List.getElem?_set_ne hji).symm.trans hd, hnone⟩ hheld
  | idle hc ho => exact absurd ⟨d, hd, hnone⟩ hheld
  | opened hopened =>
      obtain hold | ⟨rfl, rfl⟩ := getElem?_concat_cases hd
      · exact absurd ⟨d, hold, hnone⟩ hheld
      · obtain ⟨conn, x, a, session, hacquired, hline, hstart, htoken, hfull, hrelease⟩ :=
          hopened.handedBack_of_none hnone
        exact .whole conn d x a session (by simp) hd hnone hacquired
          (hsound.open_of_acquired hacquired) hline hstart htoken hfull hrelease
  | reported haccount =>
      obtain hold | ⟨rfl, rfl⟩ := getElem?_concat_cases hd
      · exact absurd ⟨d, hold, hnone⟩ hheld
      · exact absurd rfl (hshape _ hd)
  | failed hrounds => exact absurd ⟨d, hd, hnone⟩ hheld

omit [Clock τ] in
/-- Reading a cursor without giving back its connection leaves the pool and the lines alone. -/
theorem Did.steady {smooth : Prop} {i : Nat} {op : CursorOperation}
    (hdid : s.Did L plan readers (.cursor i op) o s') (hsound : s.Sound L smooth)
    (hkept : ¬ HandsBack L i s s') :
    s'.client.session = s.client.session ∧ (s'.account L).closed = (s.account L).closed := by
  have hdid' := hdid
  cases hdid with
  | @read j op c r hc hshape hfed hshows hdrawn hsame =>
      refine hdrawn.steady fun hheld hnone => hkept ?_
      have hlt := (List.getElem?_eq_some_iff.1 hc).1
      have hget : (s.cursors.set i r.cursor)[i]? = some r.cursor := List.getElem?_set_self hlt
      refine hdid'.handsBack hsound ?_ ⟨r.cursor, hget, hnone⟩ fun d hd => ?_
      · rintro ⟨d, hd, hfree⟩
        cases hc.symm.trans hd
        exact hheld hfree
      · cases hget.symm.trans hd
        rw [hsame.shape]
        exact hshape
  | idle hc ho => exact ⟨rfl, rfl⟩

omit [Clock τ] in
/-- What begins and is never taken back begins at one step. -/
theorem existsUnique_step {P : Nat → Prop} {n : Nat} (hfirst : ¬ P 0) (hlast : P n)
    (hkept : ∀ k < n, P k → P (k + 1)) : ∃! k, k < n ∧ ¬ P k ∧ P (k + 1) := by
  have hlater (j k : Nat) (hjk : j ≤ k) (hk : k ≤ n) (hj : P j) : P k := by
    induction k, hjk using Nat.le_induction with
    | base => exact hj
    | succ k hjk ih => exact hkept k hk (ih (Nat.le_of_succ_le hk))
  obtain ⟨k, hkn, hk, hk'⟩ : ∃ k < n, ¬ P k ∧ P (k + 1) := by
    by_contra hnone
    have hnever (k : Nat) (hk : k ≤ n) : ¬ P k := by
      induction k with
      | zero => exact hfirst
      | succ k ih => exact fun hP => hnone ⟨k, hk, ih (Nat.le_of_succ_le hk), hP⟩
    exact hnever n le_rfl hlast
  refine ⟨k, ⟨hkn, hk, hk'⟩, ?_⟩
  rintro j ⟨hjn, hj, hj'⟩
  obtain hlt | heq | hlt := lt_trichotomy j k
  · exact absurd (hlater (j + 1) k hlt hkn.le hj') hk
  · exact heq
  · exact absurd (hlater (k + 1) j hlt hjn.le hk') hj

/-- A system that begins has no cursors, and whatever readers there are will do. -/
theorem Begins.streams (h : s.Begins L) (plan : Plan) (readers : Nat → RowReader) :
    s.Streams L plan readers := by
  have hsound := h.sound
  obtain ⟨hcursors, k, -, haccount, hk⟩ := h
  have hrounds : (s.account L).rounds = [] := by
    rw [account]
    obtain rfl | hconnect := hk
    · rw [haccount]
      rfl
    · rw [(Client.connect_connected (L := L) hconnect).rounds, haccount]
      rfl
  refine ⟨⟨True, hsound⟩, ?_, ?_, ?_, ?_, ?_⟩ <;> simp [hcursors, hrounds]

/-- The cursor was read until there were no more rows. -/
def IsDrained (t : Transport σ τ) (s : System σ) (ops : List Operation) (i : Nat) : Prop :=
  ∃ d ∈ dealings i ops (s.play t ops).1, ReachesEnd d

/-- A history delivers the rows of a cursor, which are `vs`. -/
structure Delivers (t : Transport σ τ) (L : Ledger t) (plan : Plan) (s : System σ)
    (ops : List Operation) (i : Nat) (c : Cursor) (vs : List Value) : Prop where
  answers : (dealings i ops (s.play t ops).1).map Prod.snd =
    (RowReader.start vs).answers ((dealings i ops (s.play t ops).1).map Prod.fst)
  given : Attentive (dealings i ops (s.play t ops).1) →
    allRowsGiven (dealings i ops (s.play t ops).1) <+: vs
  givenAll : Attentive (dealings i ops (s.play t ops).1) → IsDrained t s ops i →
    allRowsGiven (dealings i ops (s.play t ops).1) = vs
  /-- One query to start, and one to continue for every batch but the first. -/
  asked : IsDrained t s ops i → ∃ first more,
    ((s.play t ops).2.account L).dialogue c.token = first :: more ∧ first.IsOf .start ∧
      (∀ x ∈ more, x.IsOf .continue) ∧ more.length + 1 = (plan c.token).length
  /-- The connection is given back at one step, and stays as it is at the others. -/
  handedBack : IsDrained t s ops i → ∃! k, k < ops.length ∧
    HandsBack L i (s.play t (ops.take k)).2 (s.play t (ops.take (k + 1))).2
  steady : ∀ k op, ops[k]? = some (.cursor i op) →
    ¬ HandsBack L i (s.play t (ops.take k)).2 (s.play t (ops.take (k + 1))).2 →
      (s.play t (ops.take (k + 1))).2.client.session = (s.play t (ops.take k)).2.client.session ∧
        ((s.play t (ops.take (k + 1))).2.account L).closed =
          ((s.play t (ops.take k)).2.account L).closed

omit [Clock τ] in
/-- What was asked for when a cursor holds no connection any more. -/
theorem Streams.asked_of_none (h : s.Streams L plan readers) {i : Nat} {c : Cursor}
    (hc : s.cursors[i]? = some c) (hshape : c.shape ≠ none) (hnone : c.connection = none) :
    ∃ first more, (s.account L).dialogue c.token = first :: more ∧ first.IsOf .start ∧
      (∀ x ∈ more, x.IsOf .continue) ∧ more.length + 1 = (plan c.token).length := by
  obtain ⟨smooth, hsound⟩ := h.sound
  have hfed := h.fed i c hc hshape
  have hbegun : ((s.account L).dialogue c.token).length = begun c.token (s.account L).rounds := by
    rw [Account.dialogue, Account.chronicle, ← List.countP_eq_length_filter, List.countP_reverse,
      begun]
  have hplan : begun c.token (s.account L).rounds = (plan c.token).length :=
    le_antisymm hfed.asked (List.drop_eq_nil_iff.1 (hfed.held.1 hnone))
  have hkinds : ∀ x ∈ (s.account L).dialogue c.token, x.IsOf .start ∨ x.IsOf .continue :=
    fun x hx => h.kinds x (List.mem_reverse.1 (List.mem_of_mem_filter hx))
  obtain hnil | ⟨first, middle, last, hword, hfirst, hmiddle, hlast⟩ :=
    (hsound.talk.dialogue c.token).word
  · rw [hnil] at hbegun
    exact absurd hbegun.symm (Nat.ne_of_gt hfed.begun)
  · obtain rfl | ⟨x, rfl, hstop⟩ := hlast
    · rw [List.append_nil] at hword
      refine ⟨first, middle, hword, hfirst, hmiddle, ?_⟩
      rw [← hplan, ← hbegun, hword, List.length_cons]
    · obtain hstart | hcontinue := hkinds x (by simp [hword])
      · cases hstart.unique hstop
      · cases hcontinue.unique hstop

/-- On a server that keeps to its plan, every cursor of a history of runs and of reading
delivers its rows. -/
theorem delivery_of_play (hmetered : Metered t) (hs : s.Begins L) (hops : ∀ op ∈ ops, op.Reads)
    (hplan : ∀ token, plan token ≠ [])
    (hserved : Served plan ((s.play t ops).2.account L).rounds) {rows : Nat → List Value}
    (hrows : ∀ (i : Nat) (c : Cursor), (s.play t ops).2.cursors[i]? = some c → c.shape ≠ none →
      c.Decodes plan (rows i))
    {i : Nat} {c : Cursor} (hc : (s.play t ops).2.cursors[i]? = some c) (hshape : c.shape ≠ none) :
    Delivers t L plan s ops i c (rows i) := by
  have hbegins := hs.streams plan fun i => .start (rows i)
  have hnew (j : Nat) (d : Cursor) (_ : s.cursors.length ≤ j)
      (hd : (s.play t ops).2.cursors[j]? = some d) (hdshape : d.shape ≠ none) :
      ∃ vs, RowReader.start (rows j) = .start vs ∧ d.Decodes plan vs :=
    ⟨rows j, rfl, hrows j d hd hdshape⟩
  obtain ⟨hfinal, hanswers⟩ := hbegins.play hmetered hops hplan hserved hnew
  have hanswers := hanswers i c hc hshape
  have hdid {k : Nat} {op : Operation} (hk : ops[k]? = some op) :=
    hbegins.did_of_play hmetered hops hplan hserved hnew hk
  have hsound (k : Nat) : ∃ smooth, (s.play t (ops.take k)).2.Sound L smooth :=
    ⟨_, hs.sound.play fun op hop => (hops op (List.mem_of_mem_take hop)).managed⟩
  have hnone (hdrained : IsDrained t s ops i) : c.connection = none := by
    obtain ⟨d, hd, hend⟩ := hdrained
    exact (hfinal.shows i c hc hshape).ended (RowReader.after_of_reachesEnd hanswers hd hend)
  refine ⟨hanswers, fun hattentive => ?_, fun hattentive hdrained => ?_, fun hdrained => ?_,
    fun hdrained => ?_, fun k op hk hkept => ?_⟩
  · exact ⟨_, RowReader.given_append_rest hattentive hanswers⟩
  · have hgiven := RowReader.given_append_rest hattentive hanswers
    obtain ⟨d, hd, hend⟩ := hdrained
    rw [RowReader.after_of_reachesEnd hanswers hd hend] at hgiven
    exact (List.append_nil _).symm.trans hgiven
  · exact hfinal.asked_of_none hc hshape (hnone hdrained)
  · have hfirst : ¬ (s.play t (ops.take 0)).2.IsFree i := by
      rintro ⟨d, hd, -⟩
      rw [List.take_zero, System.play, hs.cursors] at hd
      cases hd
    have hlast : (s.play t (ops.take ops.length)).2.IsFree i := by
      rw [List.take_length]
      exact ⟨c, hc, hnone hdrained⟩
    have hstep : ∀ k < ops.length, (s.play t (ops.take k)).2.IsFree i →
        (s.play t (ops.take (k + 1))).2.IsFree i := by
      intro k hk hfree
      obtain ⟨readers', o, hdid⟩ := hdid (List.getElem?_eq_getElem hk)
      exact hdid.isFree hfree
    obtain ⟨k, ⟨hk, hheld, hfree⟩, hunique⟩ := existsUnique_step hfirst hlast hstep
    refine ⟨k, ⟨hk, ?_⟩, fun j hj => hunique j ⟨hj.1, hj.2.flips⟩⟩
    obtain ⟨readers', o, hdid⟩ := hdid (List.getElem?_eq_getElem hk)
    obtain ⟨smooth, hsound⟩ := hsound k
    refine hdid.handsBack hsound hheld hfree fun d hd => ?_
    obtain ⟨c', hc', hsame⟩ := (hs.sound.onward_take (t := t) hops (k + 1)).same i d hd
    cases hc.symm.trans hc'
    rw [← hsame.shape]
    exact hshape
  · obtain ⟨readers', o, hdid⟩ := hdid hk
    obtain ⟨smooth, hsound⟩ := hsound k
    exact hdid.steady hsound hkept

end System

/-- A response of one row, the last one. -/
def lastOfRows : Wire.Response :=
  { Wire.Response.empty with
    tag := some Wire.ResponseType.sequence.code
    values := [.ofText "last"] }

/-- Two batches for the first token, and one for the others. -/
def twoThenOne : Plan := fun token =>
  if token = 1 then [partOfMore.values, lastOfRows.values] else [lastOfRows.values]

/-- Two cursors, read in turn. -/
def readInTurn : List Operation :=
  [.run .null, .run .null, .cursor 0 .next, .cursor 1 .all, .cursor 0 .scan, .cursor 0 .all]

/-- A system over a script that serves them. -/
def System.servedInTurn : System Script :=
  scripted [.plain, .plain]
    [[.response partOfMore 0], [.response lastOfRows 0], [.response lastOfRows 0]]

namespace System

/-- The text of a datum that is a text and nothing else. -/
def textOf? : Datum → Option String
  | ⟨tag, none, none, some s, [], []⟩ => if tag = some DatumType.text.code then some s else none
  | _ => none

theorem eq_ofText_of_textOf? {d : Datum} {s : String} (h : textOf? d = some s) : d = .ofText s := by
  unfold textOf? at h
  split at h
  · split at h
    · rename_i htag
      cases h
      rw [htag]
      rfl
    · cases h
  · cases h

/-- What an answer tells when its rows are texts. -/
def answerOf (x : Round) : Option (Option Shape × List (Option String)) :=
  x.answer.map fun r => (Shape.ofResponse? r, r.values.map textOf?)

theorem brings_of_answerOf {x : Round} {text : String} {last : Bool}
    (h : answerOf x = some (some (if last then .sequence else .partialSequence), [some text])) :
    x.Brings [.ofText text] last := by
  obtain ⟨r, hanswer, hr⟩ := Option.map_eq_some_iff.1 h
  obtain ⟨hshape, hvalues⟩ := Prod.mk.inj hr
  obtain ⟨d, ds, hds, hd, hnil⟩ := List.map_eq_cons_iff.1 hvalues
  rw [List.map_eq_nil_iff.1 hnil, eq_ofText_of_textOf? hd] at hds
  exact ⟨r, hanswer, hds, hshape⟩

theorem served_in_turn :
    Served twoThenOne ((servedInTurn.play Script.transport readInTurn).2.account
      Script.ledger).rounds := by
  have hview : ((servedInTurn.play Script.transport readInTurn).2.account
      Script.ledger).rounds.map (fun x => (x.token, answerOf x)) =
        [(1, some (some .sequence, [some "last"])), (2, some (some .sequence, [some "last"])),
          (1, some (some .partialSequence, [some "row"]))] := by
    decide +kernel
  generalize ((servedInTurn.play Script.transport readInTurn).2.account
      Script.ledger).rounds = rounds at hview
  obtain ⟨x₃, _, rfl, hx₃, hview⟩ := List.map_eq_cons_iff.1 hview
  obtain ⟨x₂, _, rfl, hx₂, hview⟩ := List.map_eq_cons_iff.1 hview
  obtain ⟨x₁, _, rfl, hx₁, hview⟩ := List.map_eq_cons_iff.1 hview
  obtain ⟨ht₃, ha₃⟩ := Prod.mk.inj hx₃
  obtain ⟨ht₂, ha₂⟩ := Prod.mk.inj hx₂
  obtain ⟨ht₁, ha₁⟩ := Prod.mk.inj hx₁
  rw [List.map_eq_nil_iff.1 hview]
  refine (((served_nil _).cons fun rows later h => ?_).cons fun rows later h => ?_).cons
    fun rows later h => ?_
  · rw [ht₁] at h
    obtain ⟨rfl, rfl⟩ := List.cons.inj h
    exact brings_of_answerOf ha₁
  · have hbegun : begun x₂.token [x₁] = 0 := by simp [begun, ht₁, ht₂]
    rw [hbegun, ht₂] at h
    obtain ⟨rfl, rfl⟩ := List.cons.inj h
    exact brings_of_answerOf ha₂
  · have hbegun : begun x₃.token [x₂, x₁] = 1 := by simp [begun, ht₁, ht₂, ht₃]
    rw [hbegun, ht₃] at h
    obtain ⟨rfl, rfl⟩ := List.cons.inj h
    exact brings_of_answerOf ha₃

/-- The rows of two cursors that are read in turn. -/
theorem delivery_of_read_in_turn :
    (∀ op ∈ readInTurn, op.Reads) ∧ (∀ token, twoThenOne token ≠ []) ∧
      Served twoThenOne ((servedInTurn.play Script.transport readInTurn).2.account
        Script.ledger).rounds ∧
      ∃ c, (servedInTurn.play Script.transport readInTurn).2.cursors[0]? = some c ∧
        c.shape ≠ none ∧ Delivers Script.transport Script.ledger twoThenOne servedInTurn readInTurn
          0 c [.text "row", .text "last"] := by
  have hops : ∀ op ∈ readInTurn, op.Reads := by
    simp [readInTurn, Operation.Reads, CursorOperation.Reads]
  have hplan : ∀ token, twoThenOne token ≠ [] := by
    intro token
    unfold twoThenOne
    split <;> exact List.cons_ne_nil _ _
  have hview : (servedInTurn.play Script.transport readInTurn).2.cursors.map
      (fun c => (c.token, c.timeFormat, c.shape)) =
        [(1, .native, some .partialSequence), (2, .native, some .sequence)] := by
    decide +kernel
  obtain ⟨c₀, _, hcursors, hc₀, hview⟩ := List.map_eq_cons_iff.1 hview
  obtain ⟨c₁, _, rfl, hc₁, hview⟩ := List.map_eq_cons_iff.1 hview
  rw [List.map_eq_nil_iff.1 hview] at hcursors
  obtain ⟨ht₀, hc₀⟩ := Prod.mk.inj hc₀
  obtain ⟨hf₀, hs₀⟩ := Prod.mk.inj hc₀
  obtain ⟨ht₁, hc₁⟩ := Prod.mk.inj hc₁
  obtain ⟨hf₁, hs₁⟩ := Prod.mk.inj hc₁
  have hrows (i : Nat) (c : Cursor) (hc : [c₀, c₁][i]? = some c) (_ : c.shape ≠ none) :
      c.Decodes twoThenOne (if i = 0 then [.text "row", .text "last"] else [.text "last"]) := by
    cases i with
    | zero =>
        cases hc
        rw [Cursor.Decodes, ht₀, hf₀]
        rfl
    | succ i =>
        cases i with
        | zero =>
            cases hc
            rw [Cursor.Decodes, ht₁, hf₁]
            rfl
        | succ i => cases hc
  have hget : (servedInTurn.play Script.transport readInTurn).2.cursors[0]? = some c₀ := by
    rw [hcursors]
    rfl
  have hshape : c₀.shape ≠ none := by
    rw [hs₀]
    exact Option.some_ne_none _
  rw [← hcursors] at hrows
  exact ⟨hops, hplan, served_in_turn, c₀, hget, hshape,
    delivery_of_play Script.metered (begins_scripted _ _) hops hplan served_in_turn hrows hget
      hshape⟩

end System

end QueryDriver
