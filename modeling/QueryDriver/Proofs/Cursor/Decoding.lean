import QueryDriver.Proofs.Codec.Misreading
import QueryDriver.Proofs.Cursor.Fetching
import QueryDriver.Proofs.System.History

/-!
# Faults while rows are read

An operation on a cursor may be brought down by a line that would not be armed, or by a row that
was misread. Nothing else brings it down, whatever the network does. The row that was misread is
the one the cursor holds when the operation is over, also when the cursor was closed after it:
closing drops the rows that have not been read, and not the one that was.
-/

namespace QueryDriver

open Net Wire

variable {S α β : Type}

/-- Every fault of the action is one of `P`, in the state in which the action ends. -/
structure Faults (P : S → Fault → Prop) (a : ExceptT Failure (StateM S) α) : Prop where
  fault : ∀ {s f s'}, a.run s = (.error (.fault f), s') → P s' f

namespace Faults

variable {P : S → Fault → Prop}

protected theorem pure (x : α) : Faults P (pure x) where
  fault h := by cases h

theorem throw_driver (e : DriverError) :
    Faults P (throw (.driver e) : ExceptT Failure (StateM S) α) where
  fault h := by cases h

protected theorem bind {a : ExceptT Failure (StateM S) α}
    {g : α → ExceptT Failure (StateM S) β} (ha : Faults P a) (hg : ∀ x, Faults P (g x)) :
    Faults P (a >>= g) where
  fault h := by
    obtain ⟨x, s₁, -, h⟩ | ⟨e, h, he⟩ := run_bind_cases h
    · exact (hg x).fault h
    · cases he
      exact ha.fault h

/-- An action that always ends has no fault. -/
theorem of_ok {a : ExceptT Failure (StateM S) α} (h : ∀ s, ∃ x s', a.run s = (.ok x, s')) :
    Faults P a where
  fault {s f s'} hrun := by
    obtain ⟨x, s₁, hok⟩ := h s
    rw [hok] at hrun
    cases hrun

theorem mapM {a : α → ExceptT Failure (StateM S) β} (h : ∀ x, Faults P (a x)) (xs : List α) :
    Faults P (xs.mapM a) := by
  induction xs with
  | nil => exact .pure _
  | cons x xs ih =>
      rw [List.mapM_cons]
      exact (h x).bind fun _ => ih.bind fun _ => .pure _

end Faults

variable {σ τ : Type} {t : Transport σ τ}

namespace Client

/-- The faults of an action of a client are refusals. -/
abbrev OnlyRefuses (a : Action σ α) : Prop := Faults (fun _ f => f.IsRefusal) a

theorem onlyRefuses_discard (c : Connection) : OnlyRefuses (discard t c) := by
  refine .bind (.of_ok fun k => ⟨_, _, Action.run_observe rfl⟩) fun o => ?_
  cases o with
  | ok u => exact .pure _
  | error e => exact .of_ok fun k => ⟨_, _, rfl⟩

theorem onlyRefuses_release (c : Connection) : OnlyRefuses (release t c) := by
  refine .bind (.of_ok fun k => ⟨_, _, rfl⟩) fun closed => ?_
  split
  · exact .pure _
  · refine .bind (.of_ok fun k => ⟨_, _, rfl⟩) fun s => ?_
    split
    · exact .of_ok fun k => ⟨_, _, rfl⟩
    · exact .bind (.of_ok fun k => ⟨_, _, rfl⟩) fun _ => onlyRefuses_discard c

variable [Clock τ]

/-- The network brings a round trip down only by not arming the line. -/
theorem onlyRefuses_roundTrip (c : Connection) (query : Query) :
    OnlyRefuses (roundTrip t c query) := by
  refine ⟨fun {k f k'} h => ?_⟩
  rw [roundTrip, run_bind_of_ok (Action.run_session k)] at h
  rcases hexecute : (c.execute t query (k.session.timeout.map Clock.ofSeconds)).run k.world with
    ⟨o, w⟩
  rw [Action.run_onWorld hexecute] at h
  cases h
  by_cases hclosed : c.line ∈ k.world.closed
  · rw [Connection.run_execute_closed hclosed] at hexecute
    cases hexecute
  · -- nothing has to be read off the network, so nothing of it has to be left alone
    have hawaits : AwaitsFreely t c.line fun _ : World σ => () :=
      ⟨fun _ _ => rfl, fun _ _ => rfl, fun _ _ => rfl⟩
    obtain ⟨deadline, w₁, hexchange, -⟩ := Connection.execute_preserves hawaits
      ⟨fun _ => rfl, fun _ _ => rfl⟩ (fun _ _ => rfl) hclosed hexecute
    exact (Connection.preserves_exchange hawaits (fun _ _ _ => rfl) query).refusal hexchange

end Client

/-- A zone strays in the row that the cursor holds, and times are read as moments. -/
def Cursor.Misread (c : Cursor) (f : Fault) : Prop :=
  ∃ d, c.current = some d ∧ d.Strays c.timeFormat 0 f

theorem Cursor.Misread.of_same {c c' : Cursor} {f : Fault} (h : c.Misread f)
    (hcurrent : c'.current = c.current) (hformat : c'.timeFormat = c.timeFormat) :
    c'.Misread f := by
  rw [Misread, hcurrent, hformat]
  exact h

namespace Reading

/-- The line would not be armed, or the row that the cursor holds was misread. -/
def Accounted (r : Reader σ) (f : Fault) : Prop := f.IsRefusal ∨ r.cursor.Misread f

/-- The faults of an action on a cursor are refusals and rows that were misread. -/
abbrev Decodes (a : Reading σ α) : Prop := Faults Accounted a

theorem decodes_cursor : Decodes (cursor : Reading σ Cursor) := .of_ok fun _ => ⟨_, _, rfl⟩

theorem decodes_update (f : Cursor → Cursor) : Decodes (update f : Reading σ Unit) :=
  .of_ok fun _ => ⟨_, _, rfl⟩

theorem decodes_supply : Decodes (supply t) := .of_ok fun _ => ⟨_, _, rfl⟩

theorem decodes_onClient {a : Client.Action σ α} (h : Client.OnlyRefuses a) :
    Decodes (onClient a) := by
  refine ⟨fun {r f r'} hrun => ?_⟩
  rcases ha : a.run r.client with ⟨o, k⟩
  rw [run_onClient (c := r.cursor) ha] at hrun
  cases hrun
  exact .inl (h.fault ha)

/-- An outcome that is looked at and whose fault is passed on. -/
theorem Decodes.observed {a : Reading σ α} {g : Except Failure α → Reading σ β} (ha : Decodes a)
    (hok : ∀ x, Decodes (g (.ok x))) (hdriver : ∀ e, Decodes (g (.error (.driver e))))
    (hfault : ∀ f, g (.error (.fault f)) = throw (.fault f)) : Decodes (observe a >>= g) := by
  refine ⟨fun {r f r'} h => ?_⟩
  rcases hrun : a.run r with ⟨(e | f') | x, r₁⟩ <;>
    rw [run_bind_of_ok (run_observe hrun)] at h
  · exact (hdriver e).fault h
  · rw [hfault] at h
    cases h
    exact ha.fault hrun
  · exact (hok x).fault h

theorem decodes_renderedQuery : Decodes (renderedQuery : Reading σ (Option String)) := by
  refine decodes_cursor.bind fun c => ?_
  split
  · exact .pure _
  · split
    · exact .pure _
    · exact (decodes_onClient (.of_ok fun k => ⟨_, _, rfl⟩)).bind fun text =>
        (decodes_update _).bind fun _ => .pure _

theorem decodes_failHere (cause : Cause) : Decodes (failHere cause : Reading σ α) :=
  decodes_renderedQuery.bind fun _ => .throw_driver _

theorem decodes_raiseError : Decodes (raiseError : Reading σ Unit) := by
  refine decodes_cursor.bind fun c => ?_
  split
  · exact .throw_driver _
  · exact .pure _

/-- Only a row that strays brings the decoder down. -/
theorem decodes_scan : Decodes (scan : Reading σ Value) := by
  refine ⟨fun {r f r'} h => ?_⟩
  rw [scan, run_bind_of_ok (run_cursor r)] at h
  cases hcurrent : r.cursor.current with
  | none =>
      rw [hcurrent] at h
      cases h
  | some d =>
      rw [hcurrent, run_settle] at h
      obtain ⟨hfault, rfl⟩ := Prod.mk.inj h
      exact .inr ⟨d, hcurrent, Datum.unmarshal_eq_fault_iff.1 hfault⟩

theorem decodes_requireSession : Decodes (requireSession : Reading σ Unit) := by
  refine decodes_cursor.bind fun c => ?_
  split
  · exact .pure _
  · exact .throw_driver _

theorem decodes_handBack (conn : Connection) : Decodes (handBack t conn) :=
  decodes_requireSession.bind fun _ => decodes_onClient (Client.onlyRefuses_release conn)

theorem decodes_accept (conn : Connection) (a : Response) : Decodes (accept t conn a) := by
  have hrelease := decodes_onClient (Client.onlyRefuses_release (t := t) conn)
  unfold accept
  split
  · exact decodes_update _
  · exact (decodes_update _).bind fun _ => (decodes_update _).bind fun _ => hrelease
  · refine (decodes_update _).bind fun _ => ?_
    split
    · exact hrelease.bind fun _ => decodes_renderedQuery.bind fun _ => .throw_driver _
    · exact (decodes_onClient (Client.onlyRefuses_discard conn)).bind fun _ => .throw_driver _

theorem decodes_rowBound : Decodes (rowBound t) :=
  decodes_cursor.bind fun _ => decodes_supply.bind fun _ => .pure _

variable [Clock τ]

theorem decodes_followUp (conn : Connection) (type : QueryType) :
    Decodes (followUp t conn type) :=
  decodes_requireSession.bind fun _ => decodes_cursor.bind fun _ =>
    decodes_onClient (Client.onlyRefuses_roundTrip conn _)

theorem decodes_stop (conn : Connection) : Decodes (stop t conn) :=
  (decodes_update _).bind fun _ => (decodes_followUp conn .stop).observed
    (fun _ => decodes_handBack conn)
    (fun _ => decodes_cursor.bind fun _ => decodes_onClient (.of_ok fun _ => ⟨_, _, rfl⟩))
    fun _ => rfl

theorem decodes_close : Decodes (close t) := by
  refine (decodes_update _).bind fun _ => decodes_cursor.bind fun c => ?_
  split
  · exact .pure _
  · refine (decodes_update _).bind fun _ => ?_
    split
    · exact .pure _
    · split
      · exact decodes_handBack _
      · exact decodes_stop _

theorem decodes_fetchMore : Decodes (fetchMore t) := by
  refine decodes_cursor.bind fun c => ?_
  split
  · exact .throw_driver _
  · exact decodes_requireSession.bind fun _ => (decodes_followUp _ .continue).observed
      (decodes_accept _) (fun _ => (decodes_update _).bind fun _ => .throw_driver _) fun _ => rfl

theorem decodes_step : Decodes (step t) := by
  refine decodes_cursor.bind fun c => ?_
  split
  · exact (decodes_update _).bind fun _ => .pure _
  · split
    · exact decodes_close.bind fun _ => .pure _
    · exact decodes_fetchMore.observed (fun _ => .pure _)
        (fun _ => decodes_renderedQuery.bind fun _ => (decodes_update _).bind fun _ =>
          decodes_close.bind fun _ => .pure _) fun _ => rfl

theorem decodes_nextWithin (fuel : Nat) : Decodes (nextWithin t fuel) := by
  induction fuel with
  | zero => exact .pure _
  | succ fuel ih =>
      refine decodes_step.bind fun found => ?_
      cases found with
      | some found => exact .pure _
      | none => exact ih

theorem decodes_next : Decodes (next t) := by
  refine (decodes_update _).bind fun _ => decodes_cursor.bind fun c => ?_
  split
  · exact .pure _
  · exact decodes_supply.bind fun _ => decodes_nextWithin _

theorem decodes_rowsWithin (fuel : Nat) : Decodes (rowsWithin t fuel) := by
  induction fuel with
  | zero => exact .pure _
  | succ fuel ih =>
      refine decodes_next.bind fun found => ?_
      split
      · exact decodes_scan.bind fun _ => ih.bind fun _ => .pure _
      · exact .pure _

theorem decodes_skipWithin (fuel : Nat) : Decodes (skipWithin t fuel) := by
  induction fuel with
  | zero => exact .pure _
  | succ fuel ih =>
      refine decodes_next.bind fun found => ?_
      split
      · exact ih
      · exact .pure _

/-! ### Closing -/

/-- The action leaves the row that was read last as it is, and how it is read. -/
structure KeepsRow (a : Reading σ α) : Prop where
  current : ∀ {r o r'}, a.run r = (o, r') → r'.cursor.current = r.cursor.current
  timeFormat : ∀ {r o r'}, a.run r = (o, r') → r'.cursor.timeFormat = r.cursor.timeFormat

namespace KeepsRow

omit [Clock τ]

/-- An action that does nothing to the cursor. -/
theorem of_same {a : Reading σ α} (h : ∀ r, (a.run r).2.cursor = r.cursor) : KeepsRow a where
  current {r o r'} hrun := by
    have hr := h r
    rw [hrun] at hr
    rw [hr]
  timeFormat {r o r'} hrun := by
    have hr := h r
    rw [hrun] at hr
    rw [hr]

protected theorem update {g : Cursor → Cursor} (hcurrent : ∀ c, (g c).current = c.current)
    (hformat : ∀ c, (g c).timeFormat = c.timeFormat) : KeepsRow (update g : Reading σ Unit) where
  current h := by cases h; exact hcurrent _
  timeFormat h := by cases h; exact hformat _

protected theorem bind {a : Reading σ α} {g : α → Reading σ β} (ha : KeepsRow a)
    (hg : ∀ x, KeepsRow (g x)) : KeepsRow (a >>= g) where
  current h := by
    obtain ⟨x, r₁, h₁, h₂⟩ | ⟨e, h₁, -⟩ := run_bind_cases h
    · exact ((hg x).current h₂).trans (ha.current h₁)
    · exact ha.current h₁
  timeFormat h := by
    obtain ⟨x, r₁, h₁, h₂⟩ | ⟨e, h₁, -⟩ := run_bind_cases h
    · exact ((hg x).timeFormat h₂).trans (ha.timeFormat h₁)
    · exact ha.timeFormat h₁

theorem observe {a : Reading σ α} (h : KeepsRow a) : KeepsRow (Reading.observe a) where
  current hrun := by cases hrun; exact h.current rfl
  timeFormat hrun := by cases hrun; exact h.timeFormat rfl

end KeepsRow

omit [Clock τ] in
theorem keepsRow_requireSession : KeepsRow (requireSession : Reading σ Unit) := by
  refine .bind (.of_same fun _ => rfl) fun c => ?_
  split <;> exact .of_same fun _ => rfl

omit [Clock τ] in
theorem keepsRow_handBack (conn : Connection) : KeepsRow (handBack t conn) :=
  keepsRow_requireSession.bind fun _ => .of_same fun _ => rfl

theorem keepsRow_followUp (conn : Connection) (type : QueryType) :
    KeepsRow (followUp t conn type) :=
  keepsRow_requireSession.bind fun _ => .bind (.of_same fun _ => rfl) fun _ =>
    .of_same fun _ => rfl

theorem keepsRow_stop (conn : Connection) : KeepsRow (stop t conn) := by
  refine .bind (.update (fun _ => rfl) fun _ => rfl) fun _ =>
    .bind (keepsRow_followUp conn .stop).observe fun o => ?_
  split
  · exact keepsRow_handBack conn
  · exact .bind (.of_same fun _ => rfl) fun _ => .of_same fun _ => rfl
  · exact .of_same fun _ => rfl

theorem keepsRow_close : KeepsRow (close t) := by
  refine .bind (.update (fun _ => rfl) fun _ => rfl) fun _ => .bind (.of_same fun _ => rfl)
    fun c => ?_
  split
  · exact .of_same fun _ => rfl
  · refine .bind (.update (fun _ => rfl) fun _ => rfl) fun _ => ?_
    split
    · exact .of_same fun _ => rfl
    · split
      · exact keepsRow_handBack _
      · exact keepsRow_stop _

variable {r r₁ r' : Reader σ} {f : Fault}

/-- Closing the cursor after an action takes nothing away from what accounts for its fault. -/
theorem closingAfter_accounted {a : Reading σ α} {o o' : Except Failure α}
    (ha : a.run r = (o, r₁)) (ho : ∀ f, o = .error (.fault f) → Accounted r₁ f)
    (h : (closingAfter t a).run r = (o', r')) (hf : o' = .error (.fault f)) :
    Accounted r' f := by
  rw [closingAfter, run_bind_of_ok (run_observe ha)] at h
  obtain ⟨u, r₂, hclose, h⟩ | ⟨e, hclose, he⟩ := run_bind_cases h
  · rw [run_settle] at h
    cases h
    obtain hrefusal | hmisread := ho f hf
    · exact .inl hrefusal
    · exact .inr
        (hmisread.of_same (keepsRow_close.current hclose) (keepsRow_close.timeFormat hclose))
  · cases he.symm.trans hf
    exact decodes_close.fault hclose

theorem decodes_closingAfter {a : Reading σ α} (ha : Decodes a) :
    Decodes (closingAfter t a) where
  fault {r f r'} h := by
    rcases hrun : a.run r with ⟨o, r₁⟩
    refine closingAfter_accounted hrun (fun f hf => ?_) h rfl
    rw [hf] at hrun
    exact ha.fault hrun

/-! ### Reading to the end -/

theorem decodes_one : Decodes (one t) := by
  refine (decodes_closingAfter (decodes_raiseError.bind fun _ => decodes_cursor.bind
    fun c => ?_)).bind fun v => ?_
  · have hrest : Decodes (do
        if ← next t then scan
        else
          raiseError
          failHere .noRows : Reading σ Value) := by
      refine decodes_next.bind fun found => ?_
      split
      · exact decodes_scan
      · exact decodes_raiseError.bind fun _ => decodes_failHere _
    split
    · exact (decodes_failHere _).bind fun _ => hrest
    · exact hrest
  · split
    · exact (decodes_failHere _).bind fun _ => .pure _
    · exact .pure _

omit [Clock τ] in
theorem decodes_items (v : Value) : Decodes (items v : Reading σ (List Value)) := by
  unfold items
  split
  · exact .pure _
  · exact .pure _
  · exact decodes_failHere _

theorem decodes_remaining : Decodes (remaining t) := by
  refine decodes_raiseError.bind fun _ => decodes_cursor.bind fun c => ?_
  split
  · refine decodes_next.bind fun found => ?_
    split
    · exact decodes_scan.bind decodes_items
    · exact (Faults.pure _).bind decodes_items
  · exact decodes_failHere _
  · exact decodes_rowBound.bind fun _ => (decodes_rowsWithin _).bind fun _ =>
      decodes_raiseError.bind fun _ => .pure _

theorem decodes_exhaust : Decodes (exhaust t) :=
  decodes_closingAfter (decodes_rowBound.bind fun _ => (decodes_skipWithin _).bind fun _ =>
    decodes_raiseError)

theorem decodes_visit (count : Nat) : Decodes (visit t count) :=
  decodes_closingAfter (.mapM (fun _ => decodes_next) _)

/-! ### Iterating -/

/-- Taking rows always ends, and says what it ended with. -/
theorem takeWithin_accounted (fuel : Nat)
    {o : Except Failure (List Value × Except Failure Bool)}
    (h : (takeWithin t fuel).run r = (o, r')) :
    ∃ vs ended, o = .ok (vs, ended) ∧ ∀ f, ended = .error (.fault f) → Accounted r' f := by
  induction fuel generalizing r r' o with
  | zero =>
      cases h
      exact ⟨_, _, rfl, nofun⟩
  | succ fuel ih =>
      rw [takeWithin] at h
      rcases hnext : (next t).run r with ⟨e | found, r₁⟩ <;>
        rw [run_bind_of_ok (run_observe hnext)] at h
      · cases h
        refine ⟨_, _, rfl, fun f hf => ?_⟩
        cases hf
        exact decodes_next.fault hnext
      · cases found with
        | false =>
            cases h
            exact ⟨_, _, rfl, nofun⟩
        | true =>
            dsimp only at h
            rcases hscan : (scan : Reading σ Value).run r₁ with ⟨e | v, r₂⟩ <;>
              rw [run_bind_of_ok (run_observe hscan)] at h
            · cases h
              refine ⟨_, _, rfl, fun f hf => ?_⟩
              cases hf
              exact decodes_scan.fault hscan
            · dsimp only at h
              rcases htake : (takeWithin t fuel).run r₂ with ⟨ot, r₃⟩
              obtain ⟨vs, ended, rfl, hended⟩ := ih htake
              rw [run_bind_of_ok htake] at h
              cases h
              exact ⟨_, _, rfl, hended⟩

theorem endIteration_accounted {rows : List Value} {ended : Except Failure Bool}
    (hended : ∀ f, ended = .error (.fault f) → Accounted r f)
    {o : Except Failure (List Value × Option Failure)}
    (h : (endIteration t rows ended).run r = (o, r')) :
    ∃ e, o = .ok (rows, e) ∧ ∀ f, e = some (.fault f) → Accounted r' f := by
  rcases hclose : (closingAfter t (settle ended)).run r with ⟨oc, r₁⟩
  rw [endIteration, run_bind_of_ok (run_observe hclose)] at h
  rcases hraise : (do
    if ← settle oc then raiseError : Reading σ Unit).run r₁ with ⟨oe, r₂⟩
  rw [run_bind_of_ok (run_observe hraise)] at h
  cases h
  refine ⟨_, rfl, fun f hf => ?_⟩
  obtain rfl : oe = .error (.fault f) := by
    cases oe <;> cases hf
    rfl
  obtain ⟨reached, r₂, hsettle, hraise⟩ | ⟨e, hsettle, he⟩ := run_bind_cases hraise
  · split at hraise
    · exact decodes_raiseError.fault hraise
    · cases hraise
  · cases he
    rw [run_settle] at hsettle
    cases hsettle
    exact closingAfter_accounted (run_settle ended r) hended hclose rfl

theorem iterate_accounted (limit : Option Nat)
    {o : Except Failure (List Value × Option Failure)}
    (h : (iterate t limit).run r = (o, r')) :
    ∃ rows e, o = .ok (rows, e) ∧ ∀ f, e = some (.fault f) → Accounted r' f := by
  have hbound : ∃ n, (rowBound t).run r = (.ok n, r) := ⟨_, rfl⟩
  obtain ⟨n, hbound⟩ := hbound
  rw [iterate] at h
  split at h
  · cases h
    exact ⟨_, _, rfl, fun f hf => (by cases hf)⟩
  · rcases htake : (takeWithin t (limit.getD n)).run r with ⟨ot, r₁⟩
    obtain ⟨rows, ended, rfl, hended⟩ := takeWithin_accounted _ htake
    rw [run_bind_of_ok hbound, run_bind_of_ok htake] at h
    exact ⟨rows, endIteration_accounted hended h⟩

end Reading

/-- The failure that an operation on a cursor raises, also at the end of an iteration. -/
def failureRaised : Except Failure Answer → Option Failure
  | .error e => some e
  | .ok (.rows _ e) => e
  | .ok _ => none

namespace CursorOperation

open Reading

variable [Clock τ] {r r' : Reader σ}

/-- Whatever brings an operation on a cursor down is accounted for. -/
theorem perform_accounted {op : CursorOperation} {o : Except Failure Answer} {f : Fault}
    (h : (op.perform t).run r = (o, r')) (hf : failureRaised o = some (.fault f)) :
    Accounted r' f := by
  -- but for iterations, the answer of an operation holds no failure
  have hplain {α : Type} {a : Reading σ α} {g : α → Answer} (ha : Decodes a)
      (hg : ∀ x, failureRaised (.ok (g x)) = none)
      (h : (do return g (← a) : Reading σ Answer).run r = (o, r')) : Accounted r' f := by
    obtain ⟨oa, ha', rfl⟩ := run_bind_pure h
    cases oa with
    | error e =>
        cases hf
        exact ha.fault ha'
    | ok x => cases (hg x).symm.trans hf
  cases op with
  | look =>
      cases h
      cases hf
  | next => exact hplain decodes_next (fun _ => rfl) h
  | scan => exact hplain decodes_scan (fun _ => rfl) h
  | one => exact hplain decodes_one (fun _ => rfl) h
  | all => exact hplain (decodes_closingAfter decodes_remaining) (fun _ => rfl) h
  | exhaust => exact hplain decodes_exhaust (fun _ => rfl) h
  | close => exact hplain decodes_close (fun _ => rfl) h
  | iterate limit =>
      rcases hiterate : (Reading.iterate t limit).run r with ⟨oi, r₁⟩
      obtain ⟨rows, e, rfl, he⟩ := iterate_accounted limit hiterate
      rw [perform, run_bind_of_ok hiterate] at h
      cases h
      exact he f hf
  | visit count => exact hplain (decodes_visit count) (fun _ => rfl) h

end CursorOperation

/-- Reading a datum or a term at a depth ends with a value or with an error of the codec, unless
times are read as moments and the first thing that cannot be read is a zone that strays: the zone
of a time is no text, or it is a day away. It is the same in operations on cursors. What brings
such an operation down is a line that would not be armed, or a zone that strays in the row that
the cursor holds then, which is what scanning reads. -/
theorem decoding_outcome [Clock τ] (t : Transport σ τ) (format : TimeFormat) (depth : Int)
    (d : Datum) (x : Term) (r : Reader σ) (op : CursorOperation) :
    (∀ e, d.unmarshal format depth = .error e →
      e.IsUnmarshalable ∨ ∃ f, e = .fault f ∧ format = .native ∧ d.Strays format depth f) ∧
    (∀ e, x.unmarshal format depth = .error e →
      e.IsUnmarshalable ∨ ∃ f, e = .fault f ∧ format = .native ∧ x.Strays format depth f) ∧
    (∀ f, d.Strays format depth f → d.unmarshal format depth = .error (.fault f)) ∧
    (∀ f, x.Strays format depth f → x.unmarshal format depth = .error (.fault f)) ∧
    (∀ d, r.cursor.current = some d →
      (Reading.scan : Reading σ Value).run r = (d.unmarshal r.cursor.timeFormat 0, r)) ∧
    ∀ o r', (op.perform t).run r = (o, r') → ∀ f, failureRaised o = some (.fault f) →
      f.IsRefusal ∨ ∃ d, r'.cursor.current = some d ∧ d.Strays r'.cursor.timeFormat 0 f := by
  refine ⟨fun e => Datum.unmarshal_error, fun e => Term.unmarshal_error,
    fun f => Datum.unmarshal_eq_fault_iff.2, fun f => Term.unmarshal_eq_fault_iff.2,
    fun d hd => ?_, fun o r' h f hf => CursorOperation.perform_accounted h hf⟩
  rw [Reading.scan, run_bind_of_ok (Reading.run_cursor r), hd]
  exact Reading.run_settle _ r

/-- A time in a zone that is a day away. -/
def dayAway : Datum :=
  .ofEntries [("$reql_type$", .ofText "TIME"), ("epoch_time", .ofDouble Double.zero),
    ("timezone", .ofText "+24:00")]

theorem strays_dayAway : dayAway.Strays .native 0 (.offsetOutOfRange ⟨86400000000⟩) := by
  refine .time (by decide) rfl rfl rfl ⟨by decide, .inl ⟨_, rfl⟩, _, rfl, ?_⟩
  exact .beyond rfl (by decide)

/-- A cursor whose one row is such a time. -/
def readerOfDayAway : Reader Script :=
  ⟨(System.scripted [] []).client, .start true none 1 (some .atom) [dayAway] true .null .native⟩

/-- It brings the decoder down, by itself and as the only row of a cursor. -/
theorem decoding_outcome_dayAway :
    dayAway.Strays .native 0 (.offsetOutOfRange ⟨86400000000⟩) ∧
    dayAway.unmarshal .native 0 = .error (.fault (.offsetOutOfRange ⟨86400000000⟩)) ∧
    (∀ e, dayAway.unmarshal .raw 0 = .error e → e.IsUnmarshalable) ∧
    failureRaised ((CursorOperation.one.perform Script.transport).run readerOfDayAway).1 =
      some (.fault (.offsetOutOfRange ⟨86400000000⟩)) ∧
    ∃ d, ((CursorOperation.one.perform Script.transport).run readerOfDayAway).2.cursor.current =
      some d ∧ d.Strays .native 0 (.offsetOutOfRange ⟨86400000000⟩) := by
  obtain ⟨-, -, hdatum, -, -, hone⟩ :=
    decoding_outcome Script.transport .native 0 dayAway .empty readerOfDayAway .one
  obtain ⟨hraw, -⟩ :=
    decoding_outcome Script.transport .raw 0 dayAway .empty readerOfDayAway .one
  have hraised : failureRaised
      ((CursorOperation.one.perform Script.transport).run readerOfDayAway).1 =
        some (.fault (.offsetOutOfRange ⟨86400000000⟩)) := rfl
  refine ⟨strays_dayAway, hdatum _ strays_dayAway, fun e he => ?_, hraised, ?_⟩
  · obtain hcodec | ⟨f, -, hnative, -⟩ := hraw e he
    · exact hcodec
    · cases hnative
  · obtain ⟨text, htext⟩ | hmisread := hone _ _ rfl _ hraised
    · cases htext
    · exact hmisread


end QueryDriver
