import QueryDriver.Proofs.Cursor.Fetching
import QueryDriver.Proofs.System.Sound

/-!
# Running, fetching and closing in sound systems

A run takes a line into the hand and starts a dialogue on it. When more rows are to come
the cursor that is handed out keeps the line, with the right to continue. Otherwise the
line goes back to the pool, and it is closed when the round trip has failed.

A cursor that asks for more rows, or that is closed while there are more, takes its line
into the hand for as long as the query is under way. A line is abandoned only by a query to
stop that was refused, and then closing the cursor fails.
-/

namespace QueryDriver

open Net Wire

namespace Sound

variable {smooth : Prop} {latest : Nat} {a a' : Account} {s s' : Session}
  {cursors pre post : List Cursor} {c c' : Cursor}

/-- A cursor is made of the answer to the query that was just started on the line in the
hand. -/
theorem handOut_of_answered {c : Connection} {token : Int64} {x : Round} {r : Response}
    {cur : Cursor} (h : Sound smooth latest [c.line] a s cursors) (hx : x ∈ a.rounds)
    (hanswer : x.answer = some r) (htoken : x.token = token)
    (hpartial : Shape.ofResponse? r = some .partialSequence →
      Holding smooth latest a.rounds c.line token)
    (hanswered : Client.Answered c token r a s cur a' s') :
    Sound smooth latest [] a' s' (cursors ++ [cur]) := by
  cases hanswered with
  | kept v timeFormat hshape =>
      have hbacked : (Cursor.start true (some c) token (some .partialSequence) r.values false v
          timeFormat).Backed smooth latest a.rounds := by
        refine .start hx hanswer htoken (fun _ _ => rfl) fun conn hconn => ?_
        cases hconn
        exact hpartial hshape
      exact h.handOut hbacked (.refl _)
  | whole v timeFormat shape a' s' hshape hwhole hrelease =>
      have hbacked : (Cursor.start true none token (some shape) r.values true v
          timeFormat).Backed smooth latest a.rounds :=
        .start hx hanswer htoken nofun nofun
      exact (h.handOut hbacked (.refl _)).release hrelease
  | reported e a' s' hshape hrelease =>
      exact (h.release hrelease).handOut (.failed _ _ _ e) (.refl _)
  | unexpected e hshape => exact h.discard.handOut (.failed _ _ _ e) (.refl _)

/-- A run hands out a cursor, or it has failed, and by a refusal if a line was abandoned. -/
theorem run {o : Except Failure Cursor} (h : Sound smooth s.token [] a s cursors)
    (hran : Client.Ran a s o a' s') :
    (∀ cur, o = .ok cur → Sound smooth s'.token [] a' s' (cursors ++ [cur])) ∧
      ∀ e, o = .error e → Sound (smooth ∧ ¬ e.IsRefusal) s'.token [] a' s' cursors := by
  have hcounted : Sound smooth s.token [] a s.counted cursors :=
    h.of_session rfl (Nat.le_succ _) rfl .inl
  cases hran with
  | uncompiled e =>
      refine ⟨fun cur hcur => ?_, fun e he => (by cases he)⟩
      cases hcur
      exact h.handOut (.failed _ _ _ e) (.refl _)
  | uncounted e => exact ⟨fun cur hcur => (by cases hcur), fun e' he => h.mono And.left⟩
  | unsent e =>
      exact ⟨fun cur hcur => (by cases hcur), fun e' he => hcounted.counted.mono And.left⟩
  | unconnected e a' s' hacquired =>
      refine ⟨fun cur hcur => (by cases hcur), fun e' he => ?_⟩
      cases he
      exact ((hcounted.acquire hacquired).2.2 e rfl).counted
  | unanswered c query e a₁ a' s' hacquired hstart htoken hexchanged =>
      obtain ⟨hsame, hacquired, -⟩ := hcounted.acquire hacquired
      refine ⟨fun cur hcur => (by cases hcur), fun e' he => ?_⟩
      exact ((hacquired c rfl).start_error hstart htoken (Nat.le_of_eq hsame.symm)
        hexchanged).counted.mono And.left
  | answered c query r cur a₁ a₂ a' s₁ s' hacquired hstart htoken hexchanged hanswered =>
      obtain ⟨hsame, hacquired, -⟩ := hcounted.acquire hacquired
      refine ⟨fun cur' hcur => ?_, fun e he => (by cases he)⟩
      cases hcur
      obtain ⟨hstarted, x, hx, hanswer, hxt, hpartial⟩ :=
        (hacquired c rfl).start_ok hstart htoken (Nat.le_of_eq hsame.symm) hexchanged
      exact (hstarted.handOut_of_answered hx hanswer hxt hpartial hanswered).counted

/-- The line that a cursor holds is taken into the hand. -/
theorem detach {conn : Connection} (h : Sound smooth latest [] a s (pre ++ c :: post))
    (hconn : c.connection = some conn) (hattached : c'.attached = true)
    (hdetached : c'.connection = none) (htoken : c'.token = c.token)
    (hrows : ∀ d, d ∈ c'.buffer ∨ c'.current = some d → d ∈ c.buffer ∨ c.current = some d) :
    Sound smooth latest [conn.line] a s (pre ++ c' :: post) := by
  have hbacked := h.backed c (by simp)
  refine h.replace (.of_detached hattached hdetached fun d hd => ?_) ?_
  · rw [htoken]
    exact hbacked.rows d (hrows d hd)
  · simp [Cursor.lines, hconn, hdetached]

/-- A cursor without a line changes in what has nothing to do with lines. -/
theorem withDetached {hand : List Nat} (h : Sound smooth latest hand a s (pre ++ c :: post))
    (hconn : c.connection = none) (hattached : c'.attached = true)
    (hdetached : c'.connection = none)
    (hrows : ∀ d, d ∈ c'.buffer ∨ c'.current = some d →
      ∃ x ∈ a.rounds, ∃ r, x.answer = some r ∧ x.token = c'.token ∧ d ∈ r.values) :
    Sound smooth latest hand a s (pre ++ c' :: post) :=
  h.replace (.of_detached hattached hdetached hrows) (by simp [Cursor.lines, hconn, hdetached])

theorem fetch {o : Except Failure Unit} (h : Sound smooth latest [] a s (pre ++ c :: post))
    (hfetching : c.Fetching a s o a' s' c') :
    Sound (smooth ∧ ¬ Refused o) latest [] a' s' (pre ++ c' :: post) := by
  have hbacked := h.backed c (by simp)
  -- The line counts as in the hand while the query is under way.
  have htaken {conn : Connection} (hconn : c.connection = some conn) :
      Sound smooth latest [conn.line] a s (pre ++ c.finished :: post) :=
    h.detach hconn hbacked.attached rfl rfl fun _ => id
  have hfed {b : Account} {x : Round} {r : Response} {n : Nat}
      (h₁ : Sound smooth latest [n] b s (pre ++ c.finished :: post)) (hx : x ∈ b.rounds)
      (hanswer : x.answer = some r) (htoken : x.token = c.token) :
      ∀ d, d ∈ c.buffer ++ r.values ∨ c.current = some d →
        ∃ y ∈ b.rounds, ∃ r', y.answer = some r' ∧ y.token = c.token ∧ d ∈ r'.values := by
    have hrows := (h₁.backed c.finished (by simp)).rows
    rintro d (hd | hd)
    · obtain hd | hd := List.mem_append.1 hd
      · exact hrows d (.inl hd)
      · exact ⟨x, hx, r, hanswer, htoken, hd⟩
    · exact hrows d (.inr hd)
  cases hfetching with
  | lost e hconn => exact h.mono And.left
  | failed conn e a' hconn hexchanged =>
      have hholding := hbacked.holding conn hconn
      exact ((htaken hconn).continue_failed hholding hexchanged).mono And.left
  | refused conn f a' hconn hexchanged =>
      have hholding := hbacked.holding conn hconn
      obtain ⟨hf, h₁, hkept⟩ := (htaken hconn).continue_refused hholding hexchanged
      have hback : c.Backed False latest a'.rounds := by
        refine ⟨hbacked.attached, hbacked.incomplete, hbacked.open_, fun conn' hconn' => ?_,
          (h₁.backed c.finished (by simp)).rows⟩
        cases hconn.symm.trans hconn'
        exact hkept
      exact (h₁.replace hback (by simp [Cursor.lines, Cursor.finished, hconn])).mono fun hs =>
        hs.2 ((refused_error _).2 hf)
  | more conn r a' hconn hexchanged hshape =>
      have hholding := hbacked.holding conn hconn
      obtain ⟨h₁, x, hx, hanswer, htoken, hpartial⟩ :=
        (htaken hconn).continue_ok hholding hexchanged
      have hkept : (c.fed r.values).Backed smooth latest a'.rounds := by
        refine ⟨hbacked.attached, hbacked.incomplete, hbacked.open_, fun conn' hconn' => ?_,
          hfed h₁ hx hanswer htoken⟩
        cases hconn.symm.trans hconn'
        exact hpartial hshape
      exact (h₁.replace hkept
        (by simp [Cursor.lines, Cursor.finished, Cursor.fed, hconn])).mono And.left
  | last conn r a₁ a' s' hconn hexchanged hshape hrelease =>
      have hholding := hbacked.holding conn hconn
      obtain ⟨h₁, x, hx, hanswer, htoken, -⟩ := (htaken hconn).continue_ok hholding hexchanged
      have h₂ : Sound smooth latest [conn.line] a₁ s (pre ++ c.finished.fed r.values :: post) :=
        h₁.withDetached rfl hbacked.attached rfl (hfed h₁ hx hanswer htoken)
      exact (h₂.release hrelease).mono And.left
  | reported conn r e query a₁ a' s' hconn hexchanged hshape hrelease =>
      have hholding := hbacked.holding conn hconn
      obtain ⟨h₁, -⟩ := (htaken hconn).continue_ok hholding hexchanged
      have h₂ : Sound smooth latest [conn.line] a₁ s
          (pre ++ { c.finished with query := query } :: post) :=
        h₁.withDetached rfl hbacked.attached rfl (h₁.backed c.finished (by simp)).rows
      exact (h₂.release hrelease).mono And.left
  | unexpected conn r e a₁ hconn hexchanged hshape =>
      have hholding := hbacked.holding conn hconn
      obtain ⟨h₁, -⟩ := (htaken hconn).continue_ok hholding hexchanged
      exact h₁.discard.mono And.left

/-- Closing a cursor keeps systems sound, and fails only by a refusal. -/
theorem close {o : Except Failure Unit} (h : Sound smooth latest [] a s (pre ++ c :: post))
    (hclosing : c.Closing a s o a' s' c') :
    (o = .ok () ∨ Refused o) ∧
      Sound (smooth ∧ ¬ Refused o) latest [] a' s' (pre ++ c' :: post) := by
  have hbacked := h.backed c (by simp)
  have hrows (d : Datum) (hd : d ∈ [] ∨ c.current = some d) : d ∈ c.buffer ∨ c.current = some d :=
    hd.imp_left fun hd => absurd hd List.not_mem_nil
  have htaken {conn : Connection} (hconn : c.connection = some conn) (done : Bool) :
      Sound smooth latest [conn.line] a s (pre ++ { c.dropped with complete := done } :: post) :=
    h.detach hconn hbacked.attached rfl rfl hrows
  cases hclosing with
  | already hclosed =>
      have hdropped : Cursor.Backed smooth latest a.rounds { c with buffer := [] } :=
        hbacked.of_rows rfl rfl rfl rfl rfl hrows
      exact ⟨.inl rfl, (h.replace hdropped (.refl _)).mono And.left⟩
  | bare hopen hconn =>
      have hdropped : Sound smooth latest [] a s (pre ++ c.dropped :: post) :=
        h.withDetached hconn hbacked.attached rfl fun d hd => hbacked.rows d (hrows d hd)
      exact ⟨.inl rfl, hdropped.mono And.left⟩
  | complete conn a' s' hopen hconn hcomplete hrelease =>
      exact ⟨.inl rfl, ((htaken hconn c.complete).release hrelease).mono And.left⟩
  | stopped conn r a₁ a' s' hopen hconn hexchanged hrelease =>
      have hholding := hbacked.holding conn hconn
      have h₁ := (htaken hconn true).stop_ok hholding hexchanged
      exact ⟨.inl rfl, (h₁.release hrelease).mono And.left⟩
  | failed conn e a' hopen hconn hexchanged =>
      have hholding := hbacked.holding conn hconn
      exact ⟨.inl rfl, ((htaken hconn true).stop_failed hholding hexchanged).mono And.left⟩
  | refused conn f a' hopen hconn hexchanged =>
      have hholding := hbacked.holding conn hconn
      obtain ⟨hf, h₁⟩ := (htaken hconn true).stop_refused hholding hexchanged
      have hrefused : Refused (.error (.fault f) : Except Failure Unit) := (refused_error _).2 hf
      exact ⟨.inr hrefused, h₁.mono fun hs => hs.2 hrefused⟩

end Sound

end QueryDriver
