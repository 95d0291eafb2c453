import QueryDriver.Proofs.Cursor.Serving
import QueryDriver.Proofs.Net.Spending
import QueryDriver.Proofs.System.Reading

/-!
# Reading from a server that keeps to its plan

On a server that keeps to its plan, in a sound system, reading never fails on its own
account: going on finds the next row of the cursor, whether it has arrived or has to be
fetched behind any number of empty batches, and says that there is none exactly if there is
none. Reading to the end gives all the rows that are left.

The loops are bounded. A step that fetches takes a byte at least from what can still
arrive, and a row that is found is one of those that have arrived or bytes of what could,
so the bounds are not reached. `Reader.weight` is what decreases.
-/

namespace QueryDriver

open Net Wire

variable {σ τ α β : Type} {t : Transport σ τ} {L : Ledger t}

namespace Cursor

/-- The row that was read last, as a value if it can be read. -/
def value (c : Cursor) : Option (Except Failure Value) :=
  c.current.map fun d => d.unmarshal c.timeFormat 0

/-- The rows that have not been read, as values. -/
def Left (plan : Plan) (rounds : List Round) (vs : List Value) (c : Cursor) : Prop :=
  List.Forall₂ (fun d v => d.unmarshal c.timeFormat 0 = .ok v) (c.unread plan rounds) vs

end Cursor

namespace Reader

/-- The rows of the cursor that have not been read. -/
def unread (L : Ledger t) (plan : Plan) (r : Reader σ) : List Datum :=
  r.cursor.unread plan (r.rounds L)

/-- The rows that have arrived and the bytes that can still arrive. -/
def weight (t : Transport σ τ) (r : Reader σ) : Nat :=
  r.cursor.buffer.length + t.supply r.client.world.net

/-- A cursor of a sound system, on a server that keeps to its plan. -/
structure Ready (L : Ledger t) (plan : Plan) (pre post : List Cursor) (r : Reader σ) : Prop where
  sound : ∃ smooth latest, r.Sound L smooth latest pre post
  fed : r.cursor.Fed plan (r.rounds L)

/-- What reading has done: the cursor is the same one, and its connection has been used as
`Drawn` says. -/
structure Advanced (L : Ledger t) (plan : Plan) (pre post : List Cursor) (r r' : Reader σ) :
    Prop where
  ready : r'.Ready L plan pre post
  drawn : Cursor.Drawn r.cursor.token (r.client.account L) r.client.session r.cursor.connection
    r'.cursor.connection (r'.client.account L) r'.client.session
  same : r.cursor.Same r'.cursor

variable {plan : Plan} {pre post : List Cursor} {r r₁ r' : Reader σ}

theorem Advanced.trans (h : r.Advanced L plan pre post r₁) (h' : r₁.Advanced L plan pre post r') :
    r.Advanced L plan pre post r' where
  ready := h'.ready
  drawn := by
    have hdrawn := h'.drawn
    rw [h.same.token] at hdrawn
    exact h.drawn.trans hdrawn
  same := h.same.trans h'.same

namespace Ready

theorem attached (h : r.Ready L plan pre post) : r.cursor.attached = true := by
  obtain ⟨smooth, latest, hsound⟩ := h.sound
  exact hsound.backed.attached

/-- A cursor that holds a connection is open, and so is the line. -/
theorem open_ (h : r.Ready L plan pre post) {conn : Connection}
    (hconn : r.cursor.connection = some conn) :
    r.cursor.closed = false ∧ conn.line ∉ (r.client.account L).closed := by
  obtain ⟨smooth, latest, hsound⟩ := h.sound
  refine ⟨hsound.backed.open_ conn hconn, ?_⟩
  have hheld : conn.line ∈ [] ++ (r.client.session.lines ++ heldBy (pre ++ r.cursor :: post)) := by
    simp [heldBy, Cursor.lines, hconn]
  exact (QueryDriver.Sound.custody hsound |>.ready conn.line hheld).open_

theorem unread_of_none (h : r.Ready L plan pre post) (hconn : r.cursor.connection = none) :
    r.unread L plan = r.cursor.buffer := by
  rw [unread, Cursor.unread, h.fed.held.1 hconn, List.flatten_nil, List.append_nil]

theorem kept (h : r.Ready L plan pre post) {rough : Except Failure α → Prop}
    {action : Reading σ α} {o : Except Failure α} (ha : Reading.Keeps L rough action)
    (hrun : action.run r = (o, r')) :
    (∃ smooth latest, r'.Sound L smooth latest pre post) ∧ r.Onward L r' := by
  obtain ⟨smooth, latest, hsound⟩ := h.sound
  obtain ⟨hsound', honward⟩ := ha hrun hsound
  exact ⟨⟨_, _, hsound'⟩, honward⟩

/-- What a sequence does after its first part takes back no round. -/
theorem suffix_of_bind (h : r.Ready L plan pre post) {rough : Except Failure α → Prop}
    {rough' : Except Failure β → Prop} {a : Reading σ α} {f : α → Reading σ β}
    {oa : Except Failure α} {o : Except Failure β} (ha : Reading.Keeps L rough a)
    (hf : ∀ x, Reading.Keeps L rough' (f x)) (hfirst : a.run r = (oa, r₁))
    (hrun : (a >>= f).run r = (o, r')) : r₁.rounds L <:+ r'.rounds L := by
  obtain ⟨x, r₂, hfirst', hrun⟩ | ⟨e, hfirst', -⟩ := run_bind_cases hrun <;>
    cases hfirst.symm.trans hfirst'
  · obtain ⟨⟨smooth, latest, hsound⟩, -⟩ := h.kept ha hfirst
    exact (hf x hrun hsound).2.rounds
  · exact List.suffix_rfl

/-- The cursor changes in what has nothing to do with its connection. -/
theorem advanced (h : r.Ready L plan pre post) {c : Cursor}
    (hsound : ∃ smooth latest, ({ r with cursor := c } : Reader σ).Sound L smooth latest pre post)
    (hsame : r.cursor.Same c) (herror : c.error = r.cursor.error)
    (hconn : c.connection = r.cursor.connection) (hcomplete : c.complete = r.cursor.complete) :
    r.Advanced L plan pre post { r with cursor := c } where
  ready := ⟨hsound, h.fed.of_same hsame.token hsame.shape herror hconn hcomplete⟩
  drawn := by
    rw [hconn]
    exact .idle _
  same := hsame

theorem refl (h : r.Ready L plan pre post) : r.Advanced L plan pre post r :=
  h.advanced h.sound ⟨rfl, rfl, rfl⟩ rfl rfl rfl

end Ready

end Reader

namespace Reading

open Reader

variable {plan : Plan} {pre post : List Cursor} {r r₁ r' : Reader σ}

/-- What is accepted as the answer to a query for more is given to the cursor. -/
theorem Accepted.weight_le (hmetered : Metered t) {conn : Connection} {a : Response}
    (h : Accepted t L conn a r (.ok ()) r') : r'.weight t ≤ r.weight t + a.values.length := by
  cases h with
  | more hshape =>
      simp only [weight, Cursor.fed, List.length_append]
      omega
  | last hshape hrelease =>
      have hsupply := Client.supply_release_le hmetered hrelease
      simp only [weight, Cursor.fed, Cursor.finished, List.length_append]
      omega

variable [Clock τ]

/-- A fetch takes more bytes than it gives rows. -/
theorem Fetched.weight_lt (hmetered : Metered t) (h : Fetched t L r (.ok ()) r') :
    r'.weight t < r.weight t := by
  cases h with
  | answered hconn hround haccepted =>
      have hspent := Client.supply_roundTrip_le hmetered hround
      have haccept := haccepted.weight_le hmetered
      simp only [weight] at haccept ⊢
      omega

theorem advanced_ended (h : r.Ready L plan pre post) (hconn : r.cursor.connection = none) :
    r.Advanced L plan pre post { r with cursor := r.cursor.ended } :=
  h.advanced (h.kept Keeps.close (run_close hconn)).1 ⟨rfl, rfl, rfl⟩ rfl rfl rfl

/-- What a step toward the next row has done: it found a row, it found that there is none,
or it has fetched a batch that has to be looked at. -/
inductive Stepped (t : Transport σ τ) (L : Ledger t) (plan : Plan) (pre post : List Cursor)
    (r : Reader σ) : Option Bool → Reader σ → Prop
  | found (d : Datum) (ds : List Datum) (hbuffer : r.cursor.buffer = d :: ds) :
    Stepped t L plan pre post r (some true)
      { r with cursor := { r.cursor with buffer := ds, current := some d } }
  | ended (hbuffer : r.cursor.buffer = []) (hconn : r.cursor.connection = none) :
    Stepped t L plan pre post r (some false) { r with cursor := r.cursor.ended }
  | fetched (r' : Reader σ) (hbuffer : r.cursor.buffer = [])
      (hadvanced : r.Advanced L plan pre post r') (hunread : r'.unread L plan = r.unread L plan)
      (hcurrent : r'.cursor.current = r.cursor.current) (hweight : r'.weight t < r.weight t) :
    Stepped t L plan pre post r none r'

theorem step_stepped (hmetered : Metered t) (h : r.Ready L plan pre post)
    {o : Except Failure (Option Bool)} (hrun : (step t).run r = (o, r'))
    (hserved : Served plan (r'.rounds L)) :
    ∃ found, o = .ok found ∧ Stepped t L plan pre post r found r' := by
  have hserving {conn : Connection} {of : Except Failure Unit} {r₁ : Reader σ}
      (hconn : r.cursor.connection = some conn) (hfetch : (fetchMore t).run r = (of, r₁)) :=
    (fetchMore_fetching (L := L) h.attached hfetch).served h.fed hconn (h.open_ hconn).2
  cases stepping_of_step (L := L) h.attached h.fed.complete hrun with
  | found hbuffer => exact ⟨_, rfl, .found _ _ hbuffer⟩
  | ended hbuffer hconn => exact ⟨_, rfl, .ended hbuffer hconn⟩
  | fetched hbuffer hconn hfetch =>
      obtain ⟨⟨smooth, latest, hsound⟩, honward⟩ := h.kept Keeps.fetchMore hfetch
      obtain ⟨-, hfed, hdrawn, hunread, hcurrent⟩ := hserving hconn hfetch hserved
      have hfetched := fetched_of_fetchMore (L := L) h.attached hfetch
      exact ⟨_, rfl, .fetched _ hbuffer ⟨⟨⟨_, _, hsound⟩, hfed⟩, hdrawn, honward.same⟩
        hunread hcurrent (hfetched.weight_lt hmetered)⟩
  | failed hbuffer hconn hfetch haccount hsession hquery =>
      -- what is done when a fetch has failed takes back no round
      rw [Reader.rounds, haccount] at hserved
      cases (hserving hconn hfetch hserved).1
  | refused hbuffer hconn hfetch => cases (hserving hconn hfetch hserved).1

/-- What going on to the next row has done: the next row is the current one, or there is none
and the connection was given back. -/
inductive Went (t : Transport σ τ) (L : Ledger t) (plan : Plan) (r r' : Reader σ) : Bool → Prop
  | found (d : Datum) (hrows : r.unread L plan = d :: r'.unread L plan)
      (hcurrent : r'.cursor.current = some d) (hweight : r'.weight t < r.weight t) :
    Went t L plan r r' true
  | ended (hrows : r.unread L plan = []) (hrows' : r'.unread L plan = [])
      (hcurrent : r'.cursor.current = none) (hconn : r'.cursor.connection = none) :
    Went t L plan r r' false

theorem nextWithin_went (hmetered : Metered t) {fuel : Nat} (h : r.Ready L plan pre post)
    (hnone : r.cursor.current = none) (hfuel : t.supply r.client.world.net < fuel)
    {o : Except Failure Bool}
    (hrun : (nextWithin t fuel).run r = (o, r')) (hserved : Served plan (r'.rounds L)) :
    ∃ found, o = .ok found ∧ r.Advanced L plan pre post r' ∧ Went t L plan r r' found := by
  induction fuel generalizing r with
  | zero => exact absurd hfuel (Nat.not_lt_zero _)
  | succ fuel ih =>
      rw [nextWithin] at hrun
      rcases hstep : (step t).run r with ⟨os, r₁⟩
      have hsuffix : r₁.rounds L <:+ r'.rounds L := by
        refine h.suffix_of_bind Keeps.step (fun found => (?_ : Keeps L Refused _)) hstep hrun
        cases found with
        | some b => exact .pure _
        | none => exact .nextWithin fuel
      obtain ⟨found, rfl, hstepped⟩ := step_stepped hmetered h hstep (hserved.mono hsuffix)
      obtain ⟨hsound, -⟩ := h.kept Keeps.step hstep
      rw [run_bind_of_ok hstep] at hrun
      cases hstepped with
      | found d ds hbuffer =>
          cases hrun
          refine ⟨true, rfl, h.advanced hsound ⟨rfl, rfl, rfl⟩ rfl rfl rfl, ?_⟩
          refine .found d ?_ rfl ?_
          · simp only [unread, Cursor.unread, hbuffer, List.cons_append]
            rfl
          · simp only [weight, hbuffer, List.length_cons]
            omega
      | ended hbuffer hconn =>
          cases hrun
          have hadvanced := advanced_ended h hconn
          refine ⟨false, rfl, hadvanced, .ended ?_ ?_ hnone hconn⟩
          · rw [h.unread_of_none hconn, hbuffer]
          · rw [hadvanced.ready.unread_of_none hconn]
            rfl
      | fetched r₁ hbuffer hadvanced hunread hcurrent hweight =>
          have hless : t.supply r₁.client.world.net < fuel := by
            simp only [weight, hbuffer, List.length_nil] at hweight
            omega
          obtain ⟨found, ho, hlater, hwent⟩ :=
            ih hadvanced.ready (hcurrent.trans hnone) hless hrun
          refine ⟨found, ho, hadvanced.trans hlater, ?_⟩
          cases hwent with
          | found d hrows hcurrent' hweight' =>
              exact .found d (hunread ▸ hrows) hcurrent' (hweight'.trans hweight)
          | ended hrows hrows' hcurrent' hconn =>
              exact .ended (hunread ▸ hrows) hrows' hcurrent' hconn

/-- Going on finds the next row if there is one, and otherwise no row is the current one. -/
theorem next_went (hmetered : Metered t) (h : r.Ready L plan pre post)
    {o : Except Failure Bool} (hrun : (next t).run r = (o, r'))
    (hserved : Served plan (r'.rounds L)) :
    ∃ found, o = .ok found ∧ r.Advanced L plan pre post r' ∧ Went t L plan r r' found := by
  rw [next, run_bind_of_ok (run_update _ _), run_bind_of_ok (run_cursor _)] at hrun
  have hforgotten : r.Advanced L plan pre post
      { r with cursor := { r.cursor with current := none } } :=
    h.advanced (h.kept Keeps.forget rfl).1 ⟨rfl, rfl, rfl⟩ rfl rfl rfl
  split at hrun
  · rename_i hdone
    cases hrun
    obtain ⟨hclosed, hempty⟩ : r.cursor.closed = true ∧ r.cursor.buffer = [] := by
      simpa [Cursor.isDone, h.fed.error] using hdone
    have hconn : r.cursor.connection = none := by
      by_contra hheld
      obtain ⟨conn, hconn⟩ := Option.ne_none_iff_exists'.1 hheld
      exact absurd ((h.open_ hconn).1.symm.trans hclosed) Bool.false_ne_true
    have hrows : r.unread L plan = [] := (h.unread_of_none hconn).trans hempty
    exact ⟨false, rfl, hforgotten, .ended hrows hrows rfl hconn⟩
  · have hsupply (r : Reader σ) : (supply t : Reading σ Nat).run r =
        (.ok (t.supply r.client.world.net), r) := rfl
    rw [run_bind_of_ok (hsupply _)] at hrun
    obtain ⟨found, ho, hlater, hwent⟩ :=
      nextWithin_went hmetered hforgotten.ready rfl (by dsimp only; omega) hrun hserved
    refine ⟨found, ho, hforgotten.trans hlater, ?_⟩
    cases hwent with
    | found d hrows hcurrent hweight => exact .found d hrows hcurrent hweight
    | ended hrows hrows' hcurrent hconn => exact .ended hrows hrows' hcurrent hconn

/-- What reading to the end has done: there are no more rows, and the connection was given
back. -/
structure Drained (L : Ledger t) (plan : Plan) (pre post : List Cursor) (r r' : Reader σ) :
    Prop where
  advanced : r.Advanced L plan pre post r'
  unread : r'.unread L plan = []
  current : r'.cursor.current = none
  connection : r'.cursor.connection = none

omit [Clock τ] in
theorem Drained.of_advanced (hfirst : r.Advanced L plan pre post r₁)
    (h : Drained L plan pre post r₁ r') : Drained L plan pre post r r' :=
  { h with advanced := hfirst.trans h.advanced }

/-- A drained cursor stays so when it is closed. -/
theorem Drained.close (h : Drained L plan pre post r r') :
    Drained L plan pre post r { r' with cursor := r'.cursor.ended } := by
  have hended := advanced_ended h.advanced.ready h.connection
  refine ⟨h.advanced.trans hended, ?_, h.current, h.connection⟩
  rw [hended.ready.unread_of_none h.connection]
  rfl

theorem run_scan :
    (scan : Reading σ Value).run r =
      (r.cursor.value.getD (.error (.ofCause .noCurrentRow)), r) := by
  rw [scan, run_bind_of_ok (run_cursor r), Cursor.value]
  cases r.cursor.current with
  | none => rfl
  | some d => exact run_settle _ r

theorem run_raiseError (h : r.cursor.error = none) :
    (raiseError : Reading σ Unit).run r = (.ok (), r) := by
  rw [raiseError, run_bind_of_ok (run_cursor r), h]
  rfl

/-- Going on reads the next of the rows that are left, or finds that there are none. -/
theorem next_read (hmetered : Metered t) (h : r.Ready L plan pre post) {vs : List Value}
    (hvs : r.cursor.Left plan (r.rounds L) vs) {o : Except Failure Bool}
    (hrun : (next t).run r = (o, r'))
    (hserved : Served plan (r'.rounds L)) :
    (vs = [] ∧ o = .ok false ∧ Drained L plan pre post r r') ∨
      ∃ v later, vs = v :: later ∧ o = .ok true ∧ r.Advanced L plan pre post r' ∧
        r'.cursor.Left plan (r'.rounds L) later ∧ r'.cursor.value = some (.ok v) ∧
        r'.weight t < r.weight t := by
  obtain ⟨found, rfl, hadvanced, hwent⟩ := next_went hmetered h hrun hserved
  rw [Cursor.Left] at hvs
  cases hwent with
  | ended hrows hrows' hcurrent hconn =>
      rw [show r.cursor.unread plan (r.rounds L) = [] from hrows] at hvs
      cases hvs
      exact .inl ⟨rfl, rfl, hadvanced, hrows', hcurrent, hconn⟩
  | found d hrows hcurrent hweight =>
      rw [show r.cursor.unread plan (r.rounds L) = d :: r'.unread L plan from hrows] at hvs
      cases hvs with
      | cons hv hvs =>
          rw [← hadvanced.same.timeFormat] at hv hvs
          refine .inr ⟨_, _, rfl, rfl, hadvanced, hvs, ?_, hweight⟩
          rw [Cursor.value, hcurrent, Option.map_some, hv]

theorem rowsWithin_drained (hmetered : Metered t) {fuel : Nat} (h : r.Ready L plan pre post)
    (hfuel : r.weight t < fuel) {vs : List Value}
    (hvs : r.cursor.Left plan (r.rounds L) vs)
    {o : Except Failure (List Value)} (hrun : (rowsWithin t fuel).run r = (o, r'))
    (hserved : Served plan (r'.rounds L)) : o = .ok vs ∧ Drained L plan pre post r r' := by
  induction fuel generalizing r vs o with
  | zero => exact absurd hfuel (Nat.not_lt_zero _)
  | succ fuel ih =>
      rw [rowsWithin] at hrun
      rcases hnext : (next t).run r with ⟨on, r₁⟩
      have hsuffix : r₁.rounds L <:+ r'.rounds L := by
        refine h.suffix_of_bind Keeps.next (fun found => (?_ : Keeps L Refused _)) hnext hrun
        split
        · exact Keeps.scan.andThen fun v => (Keeps.rowsWithin fuel).andThen fun vs => .pure _
        · exact .pure _
      obtain ⟨rfl, rfl, hdrained⟩ | ⟨v, later, rfl, rfl, hadvanced, hleft, hvalue, hweight⟩ :=
        next_read hmetered h hvs hnext (hserved.mono hsuffix) <;>
        rw [run_bind_of_ok hnext] at hrun
      · cases hrun
        exact ⟨rfl, hdrained⟩
      · have hscan := run_scan (r := r₁)
        rw [hvalue] at hscan
        rw [if_pos rfl, run_bind_of_ok hscan] at hrun
        obtain ⟨vs, r₂, hrest, hrun⟩ | ⟨e, hrest, rfl⟩ := run_bind_cases hrun
        · cases hrun
          obtain ⟨ho, hdrained⟩ := ih hadvanced.ready (by omega) hleft hrest
          cases ho
          exact ⟨rfl, hdrained.of_advanced hadvanced⟩
        · obtain ⟨ho, -⟩ := ih hadvanced.ready (by omega) hleft hrest
          cases ho

omit [Clock τ] in
theorem run_rowBound :
    (rowBound t).run r = (.ok (r.weight t + 1), r) := rfl

theorem closingAfter_cases {action : Reading σ α} {o : Except Failure α}
    (hrun : (closingAfter t action).run r = (o, r')) :
    ∃ oa r₁, action.run r = (oa, r₁) ∧ (do
      close t
      settle oa : Reading σ α).run r₁ = (o, r') := by
  rcases haction : action.run r with ⟨oa, r₁⟩
  rw [closingAfter, run_bind_of_ok (run_observe haction)] at hrun
  exact ⟨oa, r₁, rfl, hrun⟩

/-- An action that drains the cursor does so when the cursor is closed behind it. -/
theorem closingAfter_drained {action : Reading σ α} {x : α}
    (h : r.Ready L plan pre post) (ha : Keeps L Refused action)
    (hdrains : ∀ oa r₁, action.run r = (oa, r₁) → Served plan (r₁.rounds L) →
      oa = .ok x ∧ Drained L plan pre post r r₁) {o : Except Failure α}
    (hrun : (closingAfter t action).run r = (o, r')) (hserved : Served plan (r'.rounds L)) :
    o = .ok x ∧ Drained L plan pre post r r' := by
  obtain ⟨oa, r₁, haction, hclose⟩ := closingAfter_cases hrun
  obtain ⟨⟨smooth, latest, hsound⟩, -⟩ := h.kept ha haction
  have hsuffix : r₁.rounds L <:+ r'.rounds L :=
    ((Keeps.close.andThen fun _ => .settle oa) hclose hsound).2.rounds
  obtain ⟨rfl, hdrained⟩ := hdrains oa r₁ haction (hserved.mono hsuffix)
  rw [run_bind_of_ok (run_close hdrained.connection), run_settle] at hclose
  cases hclose
  exact ⟨rfl, hdrained.close⟩

theorem all_drained (hmetered : Metered t) (h : r.Ready L plan pre post) {vs : List Value}
    (hvs : r.cursor.Left plan (r.rounds L) vs)
    {o : Except Failure (List Value)} (hrun : (all t).run r = (o, r'))
    (hserved : Served plan (r'.rounds L)) : o = .ok vs ∧ Drained L plan pre post r r' := by
  have hrows {oa : Except Failure (List Value)} {r₁ : Reader σ} (hrun : (do
      let rows ← rowsWithin t (← rowBound t)
      raiseError
      return rows : Reading σ (List Value)).run r = (oa, r₁))
      (hserved : Served plan (r₁.rounds L)) :
      oa = .ok vs ∧ Drained L plan pre post r r₁ := by
    rw [run_bind_of_ok run_rowBound] at hrun
    rcases hread : (rowsWithin t (r.weight t + 1)).run r with ⟨orows, r₂⟩
    have hsuffix : r₂.rounds L <:+ r₁.rounds L :=
      h.suffix_of_bind (Keeps.rowsWithin _)
        (fun rows => Keeps.raiseError.andThen fun _ => .pure rows) hread hrun
    obtain ⟨rfl, hdrained⟩ := rowsWithin_drained hmetered h (Nat.lt_succ_self _) hvs hread
      (hserved.mono hsuffix)
    rw [run_bind_of_ok hread, run_bind_of_ok (run_raiseError hdrained.advanced.ready.fed.error)]
      at hrun
    cases hrun
    exact ⟨rfl, hdrained⟩
  refine closingAfter_drained h Keeps.remaining (fun oa r₁ hrun hserved => ?_) hrun hserved
  rw [remaining, run_bind_of_ok (run_raiseError h.fed.error), run_bind_of_ok (run_cursor r)] at hrun
  obtain hshape | hshape := h.fed.streams <;> rw [hshape] at hrun <;> exact hrows hrun hserved

theorem takeWithin_drained (hmetered : Metered t) {fuel : Nat} (h : r.Ready L plan pre post)
    (hfuel : r.weight t < fuel) {vs : List Value}
    (hvs : r.cursor.Left plan (r.rounds L) vs)
    {o : Except Failure (List Value × Except Failure Bool)}
    (hrun : (takeWithin t fuel).run r = (o, r')) (hserved : Served plan (r'.rounds L)) :
    o = .ok (vs, .ok true) ∧ Drained L plan pre post r r' := by
  induction fuel generalizing r vs o with
  | zero => exact absurd hfuel (Nat.not_lt_zero _)
  | succ fuel ih =>
      rw [takeWithin] at hrun
      rcases hnext : (next t).run r with ⟨on, r₁⟩
      rw [run_bind_of_ok (run_observe hnext)] at hrun
      have hsuffix : r₁.rounds L <:+ r'.rounds L := by
        obtain ⟨⟨smooth, latest, hsound⟩, -⟩ := h.kept Keeps.next hnext
        rcases on with f | _ | _
        · cases hrun
          exact List.suffix_rfl
        · cases hrun
          exact List.suffix_rfl
        · rcases hscan : (scan : Reading σ Value).run r₁ with ⟨f | v, r₂⟩ <;>
            obtain ⟨hsound₂, ⟨hsuffix, -⟩⟩ := Keeps.scan hscan hsound <;>
            dsimp only at hrun <;> rw [run_bind_of_ok (run_observe hscan)] at hrun
          · cases hrun
            exact hsuffix
          · obtain ⟨x, r₃, htake, hrun⟩ | ⟨e, htake, -⟩ := run_bind_cases hrun
            · cases hrun
              exact hsuffix.trans (Keeps.takeWithin fuel htake hsound₂).2.rounds
            · exact hsuffix.trans (Keeps.takeWithin fuel htake hsound₂).2.rounds
      obtain ⟨rfl, rfl, hdrained⟩ | ⟨v, later, rfl, rfl, hadvanced, hleft, hvalue, hweight⟩ :=
        next_read hmetered h hvs hnext (hserved.mono hsuffix)
      · cases hrun
        exact ⟨rfl, hdrained⟩
      · have hscan := run_scan (r := r₁)
        rw [hvalue] at hscan
        dsimp only at hrun
        rw [run_bind_of_ok (run_observe hscan)] at hrun
        obtain ⟨x, r₂, htake, hrun⟩ | ⟨e, htake, rfl⟩ := run_bind_cases hrun
        · cases hrun
          obtain ⟨ho, hdrained⟩ := ih hadvanced.ready (by omega) hleft htake
          cases ho
          exact ⟨rfl, hdrained.of_advanced hadvanced⟩
        · obtain ⟨ho, -⟩ := ih hadvanced.ready (by omega) hleft htake
          cases ho

theorem iterate_drained (hmetered : Metered t) (h : r.Ready L plan pre post) {vs : List Value}
    (hvs : r.cursor.Left plan (r.rounds L) vs)
    {o : Except Failure (List Value × Option Failure)}
    (hrun : (iterate t none).run r = (o, r')) (hserved : Served plan (r'.rounds L)) :
    o = .ok (vs, none) ∧ Drained L plan pre post r r' := by
  rw [iterate, if_neg (fun h => by cases h), run_bind_of_ok run_rowBound] at hrun
  rcases htake : (takeWithin t (r.weight t + 1)).run r with ⟨ot, r₁⟩
  have hsuffix : r₁.rounds L <:+ r'.rounds L :=
    h.suffix_of_bind (Keeps.takeWithin _) (fun x => Keeps.endIteration x.1 x.2) htake hrun
  obtain ⟨rfl, hdrained⟩ := takeWithin_drained hmetered h (Nat.lt_succ_self _) hvs htake
    (hserved.mono hsuffix)
  rw [Option.getD_none, run_bind_of_ok htake] at hrun
  dsimp only at hrun
  have hclose : (closingAfter t (settle (.ok true) : Reading σ Bool)).run r₁ =
      (.ok true, { r₁ with cursor := r₁.cursor.ended }) := by
    rw [closingAfter, run_bind_of_ok (run_observe (run_settle (.ok true) r₁)),
      run_bind_of_ok (run_close hdrained.connection), run_settle]
  have hended := hdrained.close
  have herror : (raiseError : Reading σ Unit).run { r₁ with cursor := r₁.cursor.ended } =
      (.ok (), { r₁ with cursor := r₁.cursor.ended }) :=
    run_raiseError hended.advanced.ready.fed.error
  have hraise : (do if ← settle (.ok true) then raiseError : Reading σ Unit).run
      { r₁ with cursor := r₁.cursor.ended } = (.ok (), { r₁ with cursor := r₁.cursor.ended }) := by
    rw [run_bind_of_ok (run_settle (.ok true) _)]
    exact herror
  rw [endIteration, run_bind_of_ok (run_observe hclose), run_bind_of_ok (run_observe hraise)]
    at hrun
  cases hrun
  exact ⟨rfl, hended⟩

end Reading

end QueryDriver
