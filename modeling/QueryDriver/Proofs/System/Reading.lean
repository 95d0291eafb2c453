import QueryDriver.Proofs.System.Steps

/-!
# Reading in sound systems

`Keeps rough action` says that an action on a cursor keeps systems sound, whatever other
cursors there are, that it takes back no round and makes no other cursor of the one it is
about, and that a line is abandoned only when the outcome is `rough`. An action is usually
rough when it fails by a refusal. Where a failure is looked at instead of raised, and where
it is part of an answer, roughness follows it there.

A sequence passes the roughness of its first part on: the second part has to end rough if
the first one was (`Ends`). So a failure may be caught only by what fails in its turn.
-/

namespace QueryDriver

open Net Wire

variable {σ τ α β : Type} {t : Transport σ τ}

/-- The system of which the cursor is one, between the ones in `pre` and in `post`, is sound. -/
def Reader.Sound (L : Ledger t) (smooth : Prop) (latest : Nat) (pre post : List Cursor)
    (r : Reader σ) : Prop :=
  QueryDriver.Sound smooth latest [] (r.client.account L) r.client.session
    (pre ++ r.cursor :: post)

/-- The rounds of the reader's network, newest first. -/
def Reader.rounds (L : Ledger t) (r : Reader σ) : List Round := (r.client.account L).rounds

/-- The one reader has come from the other: no round was taken back, and the cursor is the
same one. -/
structure Reader.Onward (L : Ledger t) (r r' : Reader σ) : Prop where
  rounds : r.rounds L <:+ r'.rounds L
  same : r.cursor.Same r'.cursor

theorem Reader.Onward.refl (L : Ledger t) (r : Reader σ) : r.Onward L r :=
  ⟨List.suffix_rfl, .refl _⟩

theorem Reader.Onward.trans {L : Ledger t} {r r₁ r' : Reader σ} (h : r.Onward L r₁)
    (h' : r₁.Onward L r') : r.Onward L r' :=
  ⟨h.rounds.trans h'.rounds, h.same.trans h'.same⟩

theorem Reader.Sound.backed {L : Ledger t} {smooth : Prop} {latest : Nat} {pre post : List Cursor}
    {r : Reader σ} (h : r.Sound L smooth latest pre post) :
    r.cursor.Backed smooth latest (r.rounds L) :=
  QueryDriver.Sound.backed h r.cursor (by simp)

namespace Reading

variable (L : Ledger t)

/-- The action keeps systems sound and goes onward, and it abandons lines only when the
outcome is rough. -/
def Keeps (rough : Except Failure α → Prop) (action : Reading σ α) : Prop :=
  ∀ ⦃smooth : Prop⦄ ⦃latest : Nat⦄ ⦃pre post : List Cursor⦄ ⦃r : Reader σ⦄
    ⦃o : Except Failure α⦄ ⦃r' : Reader σ⦄, action.run r = (o, r') →
    r.Sound L smooth latest pre post →
      r'.Sound L (smooth ∧ ¬ rough o) latest pre post ∧ r.Onward L r'

/-- In sound systems the action has no outcome that is not rough. -/
def Ends (rough : Except Failure α → Prop) (action : Reading σ α) : Prop :=
  ∀ ⦃smooth : Prop⦄ ⦃latest : Nat⦄ ⦃pre post : List Cursor⦄ ⦃r : Reader σ⦄
    ⦃o : Except Failure α⦄ ⦃r' : Reader σ⦄, action.run r = (o, r') →
    r.Sound L smooth latest pre post → rough o

variable {L} {rough : Except Failure α → Prop}

theorem Ends.pure {x : α} (h : rough (.ok x)) : Ends L rough (pure x : Reading σ α) := by
  intro smooth latest pre post r o r' hrun _
  cases hrun
  exact h

theorem Ends.throw {e : Failure} (h : rough (.error e)) : Ends L rough (throw e : Reading σ α) := by
  intro smooth latest pre post r o r' hrun _
  cases hrun
  exact h

namespace Keeps

theorem of_same {action : Reading σ α} (h : ∀ r, (action.run r).2 = r) : Keeps L rough action := by
  intro smooth latest pre post r o r' hrun hsound
  have hsame : r' = r := (congrArg Prod.snd hrun).symm.trans (h r)
  rw [hsame]
  exact ⟨hsound.mono And.left, .refl L r⟩

protected theorem pure (x : α) : Keeps L rough (pure x : Reading σ α) := of_same fun _ => rfl

protected theorem throw (e : Failure) : Keeps L rough (throw e : Reading σ α) :=
  of_same fun _ => rfl

theorem settle (o : Except Failure α) : Keeps L rough (settle o : Reading σ α) :=
  of_same fun r => by rw [run_settle]

theorem cursor : Keeps L Refused (cursor : Reading σ Cursor) := of_same fun _ => rfl

theorem supply : Keeps L Refused (supply t) := of_same fun _ => rfl

/-- A sequence, whose second part passes the roughness of the first one on. -/
protected theorem bind {rough' : Except Failure β → Prop} {a : Reading σ α} {f : α → Reading σ β}
    (ha : Keeps L rough a) (hf : ∀ x, Keeps L rough' (f x))
    (hok : ∀ x, rough (.ok x) → Ends L rough' (f x))
    (herror : ∀ e, rough (.error e) → rough' (.error e)) : Keeps L rough' (a >>= f) := by
  intro smooth latest pre post r o r' hrun h
  obtain ⟨x, r₁, h₁, h₂⟩ | ⟨e, h₁, rfl⟩ := run_bind_cases hrun
  · obtain ⟨hsound₁, honward₁⟩ := ha h₁ h
    obtain ⟨hsound₂, honward₂⟩ := hf x h₂ hsound₁
    refine ⟨hsound₂.mono fun hs => ⟨⟨hs.1, fun hrough => hs.2 ?_⟩, hs.2⟩, honward₁.trans honward₂⟩
    exact hok x hrough h₂ hsound₁
  · obtain ⟨hsound₁, honward₁⟩ := ha h₁ h
    exact ⟨hsound₁.mono fun hs => ⟨hs.1, fun hrough => hs.2 (herror e hrough)⟩, honward₁⟩

/-- A sequence, whose first part is rough only when it fails. -/
theorem seq {rough : Except Failure β → Prop} {a : Reading σ α} {f : α → Reading σ β}
    (ha : Keeps L Refused a) (hf : ∀ x, Keeps L rough (f x))
    (herror : ∀ e, e.IsRefusal → rough (.error e)) : Keeps L rough (a >>= f) :=
  ha.bind hf (fun _ hrefused => absurd hrefused (not_refused_ok _))
    fun e hrefused => herror e ((refused_error e).1 hrefused)

/-- A sequence that is rough when it fails by a refusal. -/
theorem andThen {a : Reading σ α} {f : α → Reading σ β} (ha : Keeps L Refused a)
    (hf : ∀ x, Keeps L Refused (f x)) : Keeps L Refused (a >>= f) :=
  ha.seq hf fun e hrefusal => (refused_error e).2 hrefusal

/-- What looks at an outcome has to end rough if it was a refusal. -/
theorem observe_bind {rough : Except Failure β → Prop} {a : Reading σ α}
    {f : Except Failure α → Reading σ β} (ha : Keeps L Refused a)
    (hf : ∀ o, Keeps L rough (f o)) (hrefused : ∀ o, Refused o → Ends L rough (f o)) :
    Keeps L rough (observe a >>= f) := by
  have hobserve : Keeps L (fun o => ∃ oa, o = .ok oa ∧ Refused oa) (observe a) := by
    intro smooth latest pre post r o r' hrun h
    rcases ha' : a.run r with ⟨oa, r₁⟩
    rw [run_observe ha'] at hrun
    cases hrun
    obtain ⟨hsound, honward⟩ := ha ha' h
    exact ⟨hsound.mono fun hs => ⟨hs.1, fun hrough => hs.2 ⟨oa, rfl, hrough⟩⟩, honward⟩
  refine hobserve.bind hf ?_ ?_
  · rintro o ⟨oa, ho, hrough⟩
    cases ho
    exact hrefused o hrough
  · rintro e ⟨oa, ho, -⟩
    cases ho

/-- The cursor drops rows, looks at another one of them, or changes what is only told. -/
theorem update {f : Cursor → Cursor}
    (hsame : ∀ c : Cursor, c.Same (f c))
    (hheld : ∀ c, (f c).attached = c.attached ∧ (f c).connection = c.connection ∧
      (f c).complete = c.complete ∧ (f c).closed = c.closed)
    (hrows : ∀ c d, d ∈ (f c).buffer ∨ (f c).current = some d → d ∈ c.buffer ∨ c.current = some d) :
    Keeps L Refused (update f : Reading σ Unit) := by
  intro smooth latest pre post r o r' hrun h
  cases hrun
  obtain ⟨hattached, hconn, hcomplete, hclosed⟩ := hheld r.cursor
  have hbacked := h.backed.of_rows hattached hconn (hsame r.cursor).token hcomplete hclosed
    (hrows r.cursor)
  refine ⟨(Sound.replace h hbacked ?_).mono And.left, List.suffix_rfl, hsame r.cursor⟩
  rw [Cursor.lines, Cursor.lines, hconn]

theorem setError (f : Cursor → Option DriverError) :
    Keeps L Refused (Reading.update fun c => { c with error := f c } : Reading σ Unit) :=
  .update (fun _ => ⟨rfl, rfl, rfl⟩) (fun _ => ⟨rfl, rfl, rfl, rfl⟩) fun _ _ => id

theorem forget :
    Keeps L Refused (Reading.update fun c => { c with current := none } : Reading σ Unit) :=
  .update (fun _ => ⟨rfl, rfl, rfl⟩) (fun _ => ⟨rfl, rfl, rfl, rfl⟩) fun _ _ hd =>
    hd.imp_right fun hd => by cases hd

theorem renderedQuery : Keeps L Refused (renderedQuery : Reading σ (Option String)) := by
  intro smooth latest pre post r o r' hrun h
  obtain ⟨k, query, hquery, haccount, hsession, -⟩ := run_renderedQuery (L := L) r
  cases hquery.symm.trans hrun
  have hbacked : ({ r.cursor with query := query } : Cursor).Backed smooth latest (r.rounds L) :=
    h.backed.of_rows rfl rfl rfl rfl rfl fun _ => id
  have hsound : (⟨k, { r.cursor with query := query }⟩ : Reader σ).Sound L smooth latest pre
      post := by
    rw [Reader.Sound, haccount, hsession]
    exact Sound.replace h hbacked (.refl _)
  exact ⟨hsound.mono And.left, by simp [Reader.rounds, haccount], ⟨rfl, rfl, rfl⟩⟩

theorem failHere (cause : Cause) : Keeps L Refused (failHere cause : Reading σ α) :=
  renderedQuery.andThen fun _ => .throw _

theorem raiseError : Keeps L Refused (raiseError : Reading σ Unit) := by
  refine cursor.andThen fun c => ?_
  split
  · exact .throw _
  · exact .pure _

theorem scan : Keeps L Refused (scan : Reading σ Value) := by
  refine cursor.andThen fun c => ?_
  split
  · exact .settle _
  · exact .throw _

theorem items (v : Value) : Keeps L Refused (items v : Reading σ (List Value)) := by
  unfold Reading.items
  split
  · exact .pure _
  · exact .pure _
  · exact failHere _

theorem rowBound : Keeps L Refused (rowBound t) :=
  cursor.andThen fun _ => supply.andThen fun _ => .pure _

variable [Clock τ]

theorem fetchMore : Keeps L Refused (fetchMore t) := by
  intro smooth latest pre post r o r' hrun h
  have hfetching := fetchMore_fetching (L := L) h.backed.attached hrun
  exact ⟨Sound.fetch h hfetching, hfetching.suffix, hfetching.same⟩

theorem close : Keeps L Refused (close t) := by
  intro smooth latest pre post r o r' hrun h
  have hclosing := close_closing (L := L) h.backed.attached hrun
  exact ⟨(Sound.close h hclosing).2, hclosing.suffix, hclosing.same⟩

theorem step : Keeps L Refused (step t) := by
  intro smooth latest pre post r o r' hrun h
  have hbacked := h.backed
  rw [Reading.step, run_bind_of_ok (run_cursor r)] at hrun
  cases hbuffer : r.cursor.buffer with
  | cons d ds =>
      rw [hbuffer] at hrun
      dsimp only at hrun
      rw [run_bind_of_ok (run_update _ _)] at hrun
      cases hrun
      have hmoved : Cursor.Backed smooth latest (r.rounds L)
          { r.cursor with buffer := ds, current := some d } := by
        refine ⟨hbacked.attached, hbacked.incomplete, hbacked.open_, hbacked.holding, ?_⟩
        intro d' hd'
        refine hbacked.rows d' (.inl ?_)
        rw [hbuffer]
        obtain hd' | ⟨⟨⟩⟩ := hd'
        · exact List.mem_cons_of_mem d hd'
        · exact List.mem_cons_self
      exact ⟨(Sound.replace h hmoved (.refl _)).mono And.left, List.suffix_rfl, rfl, rfl, rfl⟩
  | nil =>
      rw [hbuffer] at hrun
      dsimp only at hrun
      split at hrun
      · exact (close.andThen fun _ => .pure _) hrun h
      · refine fetchMore.observe_bind (fun o => ?_) (fun o hrefused => ?_) hrun h
        · rcases o with (e | f) | u
          · refine renderedQuery.andThen fun query => ?_
            exact (setError _).andThen fun _ => close.andThen fun _ => .pure _
          · exact .throw _
          · exact .pure _
        · obtain ⟨e, rfl, he⟩ := hrefused
          cases e with
          | driver e => exact he.elim
          | fault f => exact .throw ((refused_error _).2 he)

theorem nextWithin (fuel : Nat) : Keeps L Refused (nextWithin t fuel) := by
  induction fuel with
  | zero => exact .pure _
  | succ fuel ih =>
      refine step.andThen fun found => ?_
      cases found with
      | some b => exact .pure _
      | none => exact ih

theorem next : Keeps L Refused (next t) := by
  refine forget.andThen fun _ => cursor.andThen fun c => ?_
  split
  · exact .pure _
  · exact supply.andThen fun n => nextWithin _

/-- What closes the cursor and fails by a refusal then. -/
theorem ends_close {α : Type} {o : Except Failure α} (ho : Refused o) :
    Ends L Refused (Reading.close t >>= fun _ => Reading.settle o) := by
  intro smooth latest pre post r o' r' hrun hsound
  obtain ⟨u, r₁, -, hrun⟩ | ⟨e, hclose, rfl⟩ := run_bind_cases hrun
  · rw [run_settle] at hrun
    cases hrun
    exact ho
  · obtain ⟨ho | hrefused, -⟩ :=
      Sound.close hsound (close_closing (L := L) hsound.backed.attached hclose)
    · cases ho
    · exact (refused_error e).2 ((refused_error e).1 hrefused)

theorem closingAfter {α : Type} {action : Reading σ α} (h : Keeps L Refused action) :
    Keeps L Refused (closingAfter t action) :=
  h.observe_bind (fun o => close.andThen fun _ => .settle o) fun _ => ends_close

theorem rowsWithin (fuel : Nat) : Keeps L Refused (rowsWithin t fuel) := by
  induction fuel with
  | zero => exact .pure _
  | succ fuel ih =>
      refine next.andThen fun found => ?_
      split
      · exact scan.andThen fun v => ih.andThen fun vs => .pure _
      · exact .pure _

theorem skipWithin (fuel : Nat) : Keeps L Refused (skipWithin t fuel) := by
  induction fuel with
  | zero => exact .pure _
  | succ fuel ih =>
      refine next.andThen fun found => ?_
      split
      · exact ih
      · exact .pure _

/-- What is read of an atom, before the cursor is closed. -/
theorem reading : Keeps L Refused (do
    Reading.raiseError
    let c ← Reading.cursor
    if c.shape ≠ some .atom then Reading.failHere (.notAnAtom c.shapeWord)
    if ← Reading.next t then Reading.scan
    else
      Reading.raiseError
      Reading.failHere .noRows : Reading σ Value) := by
  have hread : Keeps L Refused (do
      if ← Reading.next t then Reading.scan
      else
        Reading.raiseError
        Reading.failHere .noRows : Reading σ Value) := by
    refine next.andThen fun found => ?_
    split
    · exact scan
    · exact raiseError.andThen fun _ => failHere _
  refine raiseError.andThen fun _ => cursor.andThen fun c => ?_
  dsimp only
  split
  · exact (failHere _).andThen fun _ => hread
  · exact hread

theorem one : Keeps L Refused (one t) := by
  refine andThen (closingAfter reading) fun v => ?_
  dsimp only
  split
  · exact (failHere _).andThen fun _ => .pure _
  · exact .pure _

theorem remaining : Keeps L Refused (remaining t) := by
  refine raiseError.andThen fun _ => cursor.andThen fun c => ?_
  have hrows : Keeps L Refused (do
      let rows ← Reading.rowsWithin t (← Reading.rowBound t)
      Reading.raiseError
      return rows : Reading σ (List Value)) :=
    rowBound.andThen fun _ => (rowsWithin _).andThen fun _ => raiseError.andThen fun _ => .pure _
  split
  · refine next.andThen fun found => ?_
    dsimp only
    split
    · exact scan.andThen items
    · exact andThen (.pure _) items
  · exact failHere _
  · exact hrows

theorem all : Keeps L Refused (all t) := closingAfter remaining

theorem exhaust : Keeps L Refused (exhaust t) :=
  closingAfter (rowBound.andThen fun _ => (skipWithin _).andThen fun _ => raiseError)

/-- The first part of an iteration, which keeps a failure beside the rows. -/
theorem takeWithin (fuel : Nat) : Keeps L
    (fun o => Refused o ∨ ∃ vs f, o = .ok (vs, .error f) ∧ f.IsRefusal) (takeWithin t fuel) := by
  induction fuel with
  | zero => exact .pure _
  | succ fuel ih =>
      refine next.observe_bind (fun o => ?_) fun o hrefused => ?_
      · rcases o with f | _ | _
        · exact .pure _
        · exact .pure _
        · refine scan.observe_bind (fun o => ?_) fun o hrefused => ?_
          · cases o with
            | error f => exact .pure _
            | ok v =>
                refine ih.bind (fun x => .pure _) (fun x hx => .pure ?_) fun e he => ?_
                · obtain hx | ⟨vs, f, hx, hf⟩ := hx
                  · exact absurd hx (not_refused_ok _)
                  · cases hx
                    exact .inr ⟨_, f, rfl, hf⟩
                · obtain he | ⟨vs, f, he, -⟩ := he
                  · exact .inl ((refused_error e).2 ((refused_error e).1 he))
                  · cases he
          · obtain ⟨e, rfl, he⟩ := hrefused
            exact .pure (.inr ⟨_, e, rfl, he⟩)
      · obtain ⟨e, rfl, he⟩ := hrefused
        exact .pure (.inr ⟨_, e, rfl, he⟩)

/-- Ending an iteration. A failure is part of the answer. -/
theorem endIteration (rows : List Value) (o : Except Failure Bool) : Keeps L
    (fun o => Refused o ∨ ∃ vs f, o = .ok (vs, some f) ∧ f.IsRefusal) (endIteration t rows o) := by
  refine (closingAfter (.settle o)).observe_bind (fun o => ?_) fun o ho => ?_
  · refine observe_bind (andThen (.settle o) fun ended => ?_) (fun o => .pure _) fun o ho => ?_
    · split
      · exact raiseError
      · exact .pure _
    · obtain ⟨e, rfl, he⟩ := ho
      exact .pure (.inr ⟨rows, e, rfl, he⟩)
  · obtain ⟨e, rfl, he⟩ := ho
    intro smooth latest pre post r o' r' hrun hsound
    cases hrun
    exact .inr ⟨rows, e, rfl, he⟩

/-- A refusal that an iteration is ended with is part of the answer. -/
theorem ends_endIteration (rows : List Value) {f : Failure} (hf : f.IsRefusal) : Ends L
    (fun o => Refused o ∨ ∃ vs f, o = .ok (vs, some f) ∧ f.IsRefusal)
    (Reading.endIteration t rows (.error f)) := by
  intro smooth latest pre post r o' r' hrun hsound
  have hsettle : (Reading.settle (.error f) : Reading σ Bool).run r = (.error f, r) := rfl
  rcases hclosing : (Reading.closingAfter t (Reading.settle (.error f : Except Failure Bool))).run r
    with ⟨oc, r₁⟩
  have hrefused : Refused oc := by
    rw [Reading.closingAfter, run_bind_of_ok (run_observe hsettle)] at hclosing
    exact ends_close ((refused_error f).2 hf) hclosing hsound
  obtain ⟨e, rfl, he⟩ := hrefused
  rw [Reading.endIteration, run_bind_of_ok (run_observe hclosing)] at hrun
  cases hrun
  exact .inr ⟨rows, e, rfl, he⟩

theorem iterate (limit : Option Nat) : Keeps L
    (fun o => Refused o ∨ ∃ vs f, o = .ok (vs, some f) ∧ f.IsRefusal) (iterate t limit) := by
  rw [Reading.iterate]
  split
  · exact .pure _
  refine rowBound.seq (fun bound => ?_) fun e he => .inl ((refused_error e).2 he)
  refine (takeWithin _).bind (fun x => endIteration _ _) (fun x hx => ?_) fun e he => ?_
  · obtain hx | ⟨vs, f, hx, hf⟩ := hx
    · exact absurd hx (not_refused_ok _)
    · cases hx
      exact ends_endIteration vs hf
  · obtain he | ⟨vs, f, he, -⟩ := he
    · exact .inl ((refused_error e).2 ((refused_error e).1 he))
    · cases he

theorem visit (count : Nat) : Keeps L Refused (visit t count) := by
  refine closingAfter ?_
  induction count with
  | zero => exact .pure _
  | succ count ih =>
      rw [List.replicate_succ, List.mapM_cons]
      exact next.andThen fun b => ih.andThen fun bs => .pure _

end Keeps

end Reading

end QueryDriver
