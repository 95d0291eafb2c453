import Mathlib.Order.Defs.Unbundled
import QueryDriver.Operation
import QueryDriver.Proofs.Cursor.Fetching

/-!
# What reading stays within

Every operation on a cursor is made of three things: going on to the next row, rendering the
query, and closing the cursor. So what each of them does to a client and its cursor, however it
ends, the operations do, as long as it is a relation that can be put together from its parts.

`Within R` says that an action stays within such a relation `R`. The first part of an operation
that closes the cursor behind it needs no closing, and it has lemmas of its own.
-/

namespace QueryDriver.Reading

open Net

variable {σ τ α β : Type} {t : Transport σ τ} {R : Reader σ → Reader σ → Prop}

/-- However the action ends, it has led to something related. -/
def Within (R : Reader σ → Reader σ → Prop) (a : Reading σ α) : Prop := ∀ r, R r (a.run r).2

namespace Within

theorem mono {R' : Reader σ → Reader σ → Prop} {a : Reading σ α} (h : Within R a)
    (hR : ∀ r r', R r r' → R' r r') : Within R' a := fun r => hR r _ (h r)

theorem of_run {a : Reading σ α} (h : ∀ r o r', a.run r = (o, r') → R r r') : Within R a :=
  fun r => h r _ _ rfl

theorem run {a : Reading σ α} (h : Within R a) {r r' : Reader σ} {o : Except Failure α}
    (hrun : a.run r = (o, r')) : R r r' := by
  have hr := h r
  rwa [hrun] at hr

theorem observe {a : Reading σ α} (ha : Within R a) : Within R (observe a) := fun r => ha r

variable [IsPreorder (Reader σ) R]

theorem of_same {a : Reading σ α} (h : ∀ r, (a.run r).2 = r) : Within R a := fun r => by
  rw [h r]
  exact refl r

protected theorem pure (x : α) : Within R (pure x : Reading σ α) := of_same fun _ => rfl

protected theorem throw (e : Failure) : Within R (throw e : Reading σ α) := of_same fun _ => rfl

theorem settle (o : Except Failure α) : Within R (settle o : Reading σ α) :=
  of_same fun r => by rw [run_settle]

theorem cursor : Within R (cursor : Reading σ Cursor) := of_same fun _ => rfl

theorem supply : Within R (supply t) := of_same fun _ => rfl

protected theorem bind {a : Reading σ α} {f : α → Reading σ β} (ha : Within R a)
    (hf : ∀ x, Within R (f x)) : Within R (a >>= f) := by
  refine of_run fun r o r' hrun => ?_
  obtain ⟨x, r₁, h₁, h₂⟩ | ⟨e, h₁, -⟩ := run_bind_cases hrun
  · exact IsTrans.trans _ _ _ (ha.run h₁) ((hf x).run h₂)
  · exact ha.run h₁

theorem raiseError : Within R (raiseError : Reading σ Unit) := by
  refine cursor.bind fun c => ?_
  split
  · exact .throw _
  · exact .pure _

theorem scan : Within R (scan : Reading σ Value) := by
  refine cursor.bind fun c => ?_
  split
  · exact .settle _
  · exact .throw _

theorem rowBound : Within R (rowBound t) := cursor.bind fun _ => supply.bind fun _ => .pure _

section

variable (hquery : Within R (renderedQuery : Reading σ (Option String)))
include hquery

theorem failHere (cause : Cause) : Within R (failHere cause : Reading σ α) :=
  hquery.bind fun _ => .throw _

theorem items (v : Value) : Within R (items v : Reading σ (List Value)) := by
  unfold Reading.items
  split
  · exact .pure _
  · exact .pure _
  · exact hquery.failHere _

end

variable [Clock τ] (hnext : Within R (next t))
include hnext

theorem rowsWithin (fuel : Nat) : Within R (rowsWithin t fuel) := by
  induction fuel with
  | zero => exact .pure _
  | succ fuel ih =>
      refine hnext.bind fun found => ?_
      split
      · exact scan.bind fun v => ih.bind fun vs => .pure _
      · exact .pure _

theorem skipWithin (fuel : Nat) : Within R (skipWithin t fuel) := by
  induction fuel with
  | zero => exact .pure _
  | succ fuel ih =>
      refine hnext.bind fun found => ?_
      split
      · exact ih
      · exact .pure _

theorem takeWithin (fuel : Nat) : Within R (takeWithin t fuel) := by
  induction fuel with
  | zero => exact .pure _
  | succ fuel ih =>
      refine hnext.observe.bind fun o => ?_
      rcases o with f | _ | _
      · exact .pure _
      · exact .pure _
      · refine scan.observe.bind fun o => ?_
        cases o with
        | error f => exact .pure _
        | ok v => exact ih.bind fun x => .pure _

theorem passing : Within R (do
    Reading.skipWithin t (← Reading.rowBound t)
    Reading.raiseError : Reading σ Unit) :=
  rowBound.bind fun _ => (hnext.skipWithin _).bind fun _ => raiseError

theorem steps (count : Nat) :
    Within R ((List.replicate count ()).mapM fun _ => next t : Reading σ (List Bool)) := by
  induction count with
  | zero => exact .pure _
  | succ count ih =>
      rw [List.replicate_succ, List.mapM_cons]
      exact hnext.bind fun b => ih.bind fun bs => .pure _

variable (hquery : Within R (renderedQuery : Reading σ (Option String)))
include hquery

/-- What is read of an atom, before the cursor is closed. -/
theorem reading : Within R (do
    Reading.raiseError
    let c ← Reading.cursor
    if c.shape ≠ some .atom then Reading.failHere (.notAnAtom c.shapeWord)
    if ← next t then Reading.scan
    else
      Reading.raiseError
      Reading.failHere .noRows : Reading σ Value) := by
  have hread : Within R (do
      if ← next t then Reading.scan
      else
        Reading.raiseError
        Reading.failHere .noRows : Reading σ Value) := by
    refine hnext.bind fun found => ?_
    split
    · exact scan
    · exact raiseError.bind fun _ => hquery.failHere _
  refine raiseError.bind fun _ => cursor.bind fun c => ?_
  dsimp only
  split
  · exact (hquery.failHere _).bind fun _ => hread
  · exact hread

theorem remaining : Within R (remaining t) := by
  refine raiseError.bind fun _ => cursor.bind fun c => ?_
  split
  · refine hnext.bind fun found => ?_
    dsimp only
    split
    · exact scan.bind fun v => hquery.items v
    · exact Within.bind (.pure _) fun v => hquery.items v
  · exact hquery.failHere _
  · exact rowBound.bind fun _ => (hnext.rowsWithin _).bind fun _ => raiseError.bind fun _ => .pure _

variable (hclose : Within R (close t))
include hclose

omit hnext hquery in
theorem closingAfter {a : Reading σ α} (ha : Within R a) : Within R (closingAfter t a) :=
  ha.observe.bind fun o => hclose.bind fun _ => .settle o

/-- Every operation stays within what its three parts stay within. -/
theorem perform (op : CursorOperation) : Within R (op.perform t) := by
  cases op with
  | look => exact .pure _
  | next => exact hnext.bind fun _ => .pure _
  | scan => exact scan.bind fun _ => .pure _
  | one =>
      refine Within.bind (Within.bind (hclose.closingAfter (hnext.reading hquery)) fun v => ?_)
        fun _ => .pure _
      dsimp only
      split
      · exact (hquery.failHere _).bind fun _ => .pure _
      · exact .pure _
  | all => exact (hclose.closingAfter (hnext.remaining hquery)).bind fun _ => .pure _
  | exhaust => exact (hclose.closingAfter hnext.passing).bind fun _ => .pure _
  | close => exact hclose.bind fun _ => .pure _
  | iterate limit =>
      refine Within.bind ?_ fun _ => .pure _
      rw [Reading.iterate]
      split
      · exact .pure _
      refine rowBound.bind fun bound => (hnext.takeWithin _).bind fun x => ?_
      refine (hclose.closingAfter (.settle _)).observe.bind fun o => ?_
      refine (Within.bind (.settle o) fun ended => ?_).observe.bind fun o => .pure _
      split
      · exact raiseError
      · exact .pure _
  | visit count => exact (hclose.closingAfter (hnext.steps count)).bind fun _ => .pure _

end Within

end QueryDriver.Reading
