import QueryDriver.Proofs.Cursor.Within
import QueryDriver.Proofs.System.Draining

/-!
# The course of a cursor

Whatever a server does, a cursor that a run has handed out takes one of a few steps when it is
gone on with. It shows the next of its rows. When it has none it asks for more, and it takes what
comes, or it keeps the error that has come instead, lets go of its connection and is closed. Only a
line that would not be armed brings it down, and then it stays as it is.

`Fetch` and `Step` say so, with the answer and the error themselves, for cursors that are `Apt`.
All cursors are.
-/

namespace QueryDriver

open Net Wire

variable {σ τ α : Type} {t : Transport σ τ} {L : Ledger t}

namespace Cursor

/-- A cursor that tells its rendering, if it tells anything, asks for the same text. -/
theorem query_or_rendering {c : Cursor} (h : ∀ q, c.query = some q → c.rendering = some q) :
    c.query.or c.rendering = c.rendering := by
  cases hquery : c.query with
  | none => rfl
  | some q => exact (h q hquery).symm

theorem told_of_query {c : Cursor} {query : Option String}
    (h : ∀ q, c.query = some q → c.rendering = some q)
    (hquery : query = c.query ∨ query = c.rendering) :
    ∀ q, query = some q → c.rendering = some q := by
  obtain rfl | rfl := hquery
  · exact h
  · exact fun _ => id

/-- What holds of every cursor that a run hands out, in whatever way it is read. -/
structure Apt (c : Cursor) : Prop where
  attached : c.attached = true
  /-- There are more rows as long as there is a connection to ask over. -/
  held : c.complete = true ↔ c.connection = none
  open_ : c.closed = true → c.connection = none
  latched : c.error ≠ none → c.closed = true ∧ c.buffer = []
  blank : c.shape = none → c.closed = true ∧ c.buffer = [] ∧ c.current = none
  told : ∀ q, c.query = some q → c.rendering = some q

/-- There is nothing left to be read, and nothing will be asked for. -/
def Spent (c : Cursor) : Prop := c.closed = true ∧ c.buffer = []

theorem Apt.connection_of_error {c : Cursor} (h : c.Apt) (he : c.error ≠ none) :
    c.connection = none := h.open_ (h.latched he).1

theorem Apt.isDone_iff {c : Cursor} (h : c.Apt) : c.isDone = true ↔ c.Spent := by
  rw [isDone, Bool.or_eq_true, Bool.and_eq_true, List.isEmpty_iff, Option.isSome_iff_ne_none]
  exact ⟨fun hdone => hdone.elim h.latched id, .inr⟩

/-- A cursor that holds a connection has more rows to ask for. -/
theorem Apt.incomplete {c : Cursor} (h : c.Apt) {conn : Connection}
    (hconn : c.connection = some conn) :
    c.complete = false ∧ c.closed = false ∧ c.error = none := by
  have hne : c.connection ≠ none := by simp [hconn]
  refine ⟨?_, ?_, ?_⟩
  · exact Bool.eq_false_iff.2 fun hcomplete => hne (h.held.1 hcomplete)
  · exact Bool.eq_false_iff.2 fun hclosed => hne (h.open_ hclosed)
  · by_contra he
    exact hne (h.connection_of_error he)

theorem Apt.shape_ne {c : Cursor} (h : c.Apt) {conn : Connection}
    (hconn : c.connection = some conn) : c.shape ≠ none := fun hshape =>
  Bool.false_ne_true ((h.incomplete hconn).2.1.symm.trans (h.blank hshape).1)

/-- A cursor drops rows, looks at another one of them, or changes what is only told. -/
theorem Apt.of_same {c c' : Cursor} (h : c.Apt) (hattached : c'.attached = c.attached)
    (hconn : c'.connection = c.connection) (hcomplete : c'.complete = c.complete)
    (hclosed : c'.closed = c.closed) (herror : c'.error = c.error) (hshape : c'.shape = c.shape)
    (hbuffer : c.buffer = [] → c'.buffer = [])
    (hcurrent : c.current = none → c.buffer = [] → c'.current = none)
    (htold : ∀ q, c'.query = some q → c'.rendering = some q) : c'.Apt where
  attached := hattached.trans h.attached
  held := by
    rw [hcomplete, hconn]
    exact h.held
  open_ := by
    rw [hclosed, hconn]
    exact h.open_
  latched := by
    rw [herror, hclosed]
    exact fun he => (h.latched he).imp_right hbuffer
  blank := by
    rw [hshape, hclosed]
    intro hs
    obtain ⟨hc, hb, hcur⟩ := h.blank hs
    exact ⟨hc, hbuffer hb, hcurrent hcur hb⟩
  told := htold

theorem Apt.finished {c : Cursor} (h : c.Apt) : c.finished.Apt where
  attached := h.attached
  held := ⟨fun _ => rfl, fun _ => rfl⟩
  open_ _ := rfl
  latched := h.latched
  blank := h.blank
  told := h.told

theorem Apt.ended {c : Cursor} (h : c.Apt) (hconn : c.connection = none) : c.ended.Apt where
  attached := h.attached
  held := h.held
  open_ _ := hconn
  latched _ := ⟨rfl, rfl⟩
  blank hs := ⟨rfl, rfl, (h.blank hs).2.2⟩
  told := h.told

/-- An error is kept by a cursor that is closed with it. -/
theorem Apt.latch_ended {c : Cursor} (h : c.Apt) (hconn : c.connection = none) (e : DriverError) :
    (c.latch e).ended.Apt where
  attached := h.attached
  held := h.held
  open_ _ := hconn
  latched _ := ⟨rfl, rfl⟩
  blank hs := ⟨rfl, rfl, (h.blank hs).2.2⟩
  told := h.told

/-- A cursor that has a connection, or none any more, may be given rows. -/
theorem Apt.fed {c : Cursor} (h : c.Apt) (hopen : c.closed = false) (herror : c.error = none)
    (rows : List Datum) : (c.fed rows).Apt where
  attached := h.attached
  held := h.held
  open_ := h.open_
  latched he := absurd herror he
  blank hs := absurd (hopen.symm.trans (h.blank hs).1) Bool.false_ne_true
  told := h.told

theorem Apt.dropped {c : Cursor} (h : c.Apt) (done : Bool)
    (hdone : done = true ∨ c.connection = none ∧ done = c.complete) :
    ({ c.dropped with complete := done } : Cursor).Apt where
  attached := h.attached
  held := by
    refine ⟨fun _ => rfl, fun _ => ?_⟩
    obtain hdone | ⟨hconn, hdone⟩ := hdone
    · exact hdone
    · exact hdone.trans (h.held.2 hconn)
  open_ _ := rfl
  latched _ := ⟨rfl, rfl⟩
  blank hs := ⟨rfl, rfl, (h.blank hs).2.2⟩
  told := h.told

theorem Apt.start {connection : Option Connection} {token : Int64} {shape : Shape}
    {rows : List Datum} {complete : Bool} (hcomplete : complete = true ↔ connection = none)
    (v : Value) (timeFormat : TimeFormat) :
    (Cursor.start true connection token (some shape) rows complete v timeFormat).Apt where
  attached := rfl
  held := hcomplete
  open_ hclosed := ((closed_start ..).1 hclosed).1
  latched he := absurd rfl he
  blank hs := by cases hs
  told q hq := by cases hq

theorem Apt.failed (e : DriverError) : (Cursor.failed true e).Apt where
  attached := rfl
  held := ⟨fun _ => rfl, fun _ => rfl⟩
  open_ _ := rfl
  latched _ := ⟨rfl, rfl⟩
  blank _ := ⟨rfl, rfl, rfl⟩
  told q hq := by cases hq

end Cursor

/-- What a cursor reports when the server answers with neither a part of the rows nor the rest. -/
def DriverError.ofContinuation (a : Response) (query : Option String) : DriverError :=
  if a.failure?.isSome then ofResponse a query
  else { ofCause (.unexpectedContinuation a.kind.toInt) with response := some a }

namespace Reading.Course

variable [Clock τ]

/-- What asking for more rows over a connection comes to. -/
inductive Fetch (t : Transport σ τ) (L : Ledger t) (conn : Connection) (r : Reader σ) :
    Except Failure Unit → Reader σ → Prop
  | more {a : Response} {k : Client σ}
      (hround : (Client.roundTrip t conn (.followUp .continue r.cursor.token)).run r.client =
        (.ok a, k))
      (hshape : Shape.ofResponse? a = some .partialSequence) :
    Fetch t L conn r (.ok ()) ⟨k, r.cursor.fed a.values⟩
  | last {a : Response} {k k' : Client σ}
      (hround : (Client.roundTrip t conn (.followUp .continue r.cursor.token)).run r.client =
        (.ok a, k))
      (hshape : Shape.ofResponse? a = some .sequence)
      (hrelease : (Client.release t conn).run k = (.ok (), k')) :
    Fetch t L conn r (.ok ()) ⟨k', r.cursor.finished.fed a.values⟩
  | unanswered {e : DriverError} {k : Client σ}
      (hround : (Client.roundTrip t conn (.followUp .continue r.cursor.token)).run r.client =
        (.error (.driver e), k)) :
    Fetch t L conn r (.error (.driver e)) ⟨k, r.cursor.finished⟩
  /-- The server reports an error. -/
  | reported {a : Response} {k k₁ k' : Client σ} {query : Option String}
      (hround : (Client.roundTrip t conn (.followUp .continue r.cursor.token)).run r.client =
        (.ok a, k))
      (hfailure : a.failure?.isSome = true)
      (hrelease : (Client.release t conn).run k = (.ok (), k₁))
      (haccount : k'.account L = k₁.account L) (hsession : k'.session = k₁.session)
      (htold : ∀ q, query = some q → r.cursor.rendering = some q) :
    Fetch t L conn r (.error (.driver (.ofContinuation a r.cursor.rendering)))
      ⟨k', { r.cursor.finished with query := query }⟩
  | unexpected {a : Response} {k k' : Client σ}
      (hround : (Client.roundTrip t conn (.followUp .continue r.cursor.token)).run r.client =
        (.ok a, k))
      (hshape : Shape.ofResponse? a = none ∨ Shape.ofResponse? a = some .atom)
      (hfailure : a.failure?.isSome = false)
      (hdiscard : (Client.discard t conn).run k = (.ok (), k')) :
    Fetch t L conn r (.error (.driver (.ofContinuation a r.cursor.rendering)))
      ⟨k', r.cursor.finished⟩
  /-- The line would not be armed. -/
  | refused {f : Fault} {k : Client σ}
      (hround : (Client.roundTrip t conn (.followUp .continue r.cursor.token)).run r.client =
        (.error (.fault f), k)) :
    Fetch t L conn r (.error (.fault f)) ⟨k, r.cursor⟩

theorem fetch_of_fetchMore {conn : Connection} {r r' : Reader σ} {o : Except Failure Unit}
    (h : r.cursor.Apt) (hconn : r.cursor.connection = some conn)
    (hrun : (fetchMore t).run r = (o, r')) : Fetch t L conn r o r' := by
  cases fetched_of_fetchMore (L := L) h.attached hrun with
  | lost hnone => cases hconn.symm.trans hnone
  | unanswered hconn' hround =>
      cases hconn.symm.trans hconn'
      exact .unanswered hround
  | refused hconn' hround =>
      cases hconn.symm.trans hconn'
      exact .refused hround
  | @answered _ a k _ _ hconn' hround haccepted =>
      cases hconn.symm.trans hconn'
      cases haccepted with
      | more hshape => exact .more hround hshape
      | last hshape hrelease => exact .last hround hshape hrelease
      | reported hshape hfailure hrelease haccount hsession hquery =>
          have herror : DriverError.ofResponse a (r.cursor.query.or r.cursor.rendering) =
              .ofContinuation a r.cursor.rendering := by
            rw [Cursor.query_or_rendering h.told, DriverError.ofContinuation, if_pos hfailure]
          dsimp only
          rw [herror]
          exact .reported hround hfailure hrelease haccount hsession
            (Cursor.told_of_query h.told hquery)
      | unexpected hshape hfailure hdiscard =>
          have herror : ({ DriverError.ofCause (.unexpectedContinuation a.kind.toInt) with
              response := some a } : DriverError) = .ofContinuation a r.cursor.rendering := by
            rw [DriverError.ofContinuation, hfailure, if_neg Bool.false_ne_true]
          rw [herror]
          exact .unexpected hround hshape hfailure hdiscard

/-- A step toward the next row. -/
inductive Step (t : Transport σ τ) (L : Ledger t) (r : Reader σ) :
    Except Failure (Option Bool) → Reader σ → Prop
  | found {d : Datum} {ds : List Datum} (hbuffer : r.cursor.buffer = d :: ds) :
    Step t L r (.ok (some true))
      { r with cursor := { r.cursor with buffer := ds, current := some d } }
  | ended (hbuffer : r.cursor.buffer = []) (hconn : r.cursor.connection = none) :
    Step t L r (.ok (some false)) { r with cursor := r.cursor.ended }
  | fetched {conn : Connection} {r' : Reader σ} (hbuffer : r.cursor.buffer = [])
      (hconn : r.cursor.connection = some conn) (hrun : (fetchMore t).run r = (.ok (), r'))
      (hfetch : Fetch t L conn r (.ok ()) r') : Step t L r (.ok none) r'
  /-- The error stays with the cursor. -/
  | failed {conn : Connection} {e : DriverError} {r₁ : Reader σ} {k : Client σ}
      {query : Option String} (hbuffer : r.cursor.buffer = [])
      (hconn : r.cursor.connection = some conn)
      (hfetch : Fetch t L conn r (.error (.driver e)) r₁)
      (haccount : k.account L = r₁.client.account L) (hsession : k.session = r₁.client.session)
      (htold : ∀ q, query = some q → r.cursor.rendering = some q) :
    Step t L r (.ok (some false)) ⟨k, (({ r₁.cursor with query := query } : Cursor).latch
      (e.withQuery r.cursor.rendering)).ended⟩
  | refused {conn : Connection} {f : Fault} {r' : Reader σ} (hbuffer : r.cursor.buffer = [])
      (hconn : r.cursor.connection = some conn)
      (hfetch : Fetch t L conn r (.error (.fault f)) r') : Step t L r (.error (.fault f)) r'

/-- After an error of the driver the cursor is one that has finished, on the same expression. -/
theorem Fetch.of_error {conn : Connection} {r r' : Reader σ} {e : DriverError} (h : r.cursor.Apt)
    (hfetch : Fetch t L conn r (.error (.driver e)) r') :
    ∃ query, r'.cursor = { r.cursor.finished with query := query } ∧
      ∀ q, query = some q → r.cursor.rendering = some q := by
  cases hfetch with
  | unanswered hround => exact ⟨r.cursor.query, rfl, h.told⟩
  | reported hround hfailure hrelease haccount hsession htold => exact ⟨_, rfl, htold⟩
  | unexpected hround hshape hfailure hdiscard => exact ⟨r.cursor.query, rfl, h.told⟩

theorem step_of_run {r r' : Reader σ} {o : Except Failure (Option Bool)} (h : r.cursor.Apt)
    (hrun : (step t).run r = (o, r')) : Step t L r o r' := by
  cases stepping_of_step (L := L) h.attached h.held hrun with
  | found hbuffer => exact .found hbuffer
  | ended hbuffer hconn => exact .ended hbuffer hconn
  | fetched hbuffer hconn hfetch =>
      exact .fetched hbuffer hconn hfetch (fetch_of_fetchMore h hconn hfetch)
  | @failed conn e r₁ k query hbuffer hconn hfetched haccount hsession hquery =>
      have hfetch : Fetch t L conn r (.error (.driver e)) r₁ := fetch_of_fetchMore h hconn hfetched
      obtain ⟨query₁, hcursor, htold⟩ := hfetch.of_error h
      have hrendering : r₁.cursor.rendering = r.cursor.rendering := by
        rw [hcursor]
        rfl
      have htold₁ : ∀ q, r₁.cursor.query = some q → r₁.cursor.rendering = some q := by
        rw [hrendering, hcursor]
        exact htold
      have htells := Cursor.told_of_query htold₁ hquery
      rw [hrendering] at htells
      rw [Cursor.query_or_rendering htold₁, hrendering]
      exact .failed hbuffer hconn hfetch haccount hsession htells
  | refused hbuffer hconn hfetch => exact .refused hbuffer hconn (fetch_of_fetchMore h hconn hfetch)

end Reading.Course

end QueryDriver
