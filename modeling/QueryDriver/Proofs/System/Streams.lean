import Mathlib.Logic.Function.Basic
import QueryDriver.Proofs.Cursor.RowReader
import QueryDriver.Proofs.Session.Opening
import QueryDriver.Proofs.System.Draining
import QueryDriver.Proofs.System.History

/-!
# Cursors as readers of lists

On a server that keeps to its plan every cursor of a system answers what a reader of its own
rows answers, whatever is done with the other cursors in between. Queries for more carry the
token of their cursor, and no two cursors have one token, so what one cursor asks for is
nothing to the others.

`Streams` is what every history of runs and of reading keeps: each cursor shows what its
reader shows. `Did` lists what one operation of such a history can do, `Streams.did`, and
from that it follows that the operation keeps `Streams` with the readers moved on,
`Did.streams`.
-/

namespace QueryDriver

open Net Wire

variable {σ τ : Type} {t : Transport σ τ} {L : Ledger t}

/-- The cursor shows what a reader shows. -/
structure Cursor.Shows (plan : Plan) (rounds : List Round) (x : RowReader) (c : Cursor) :
    Prop where
  left : c.Left plan rounds x.rest
  value : c.value = x.current.map .ok
  ended : x = .ended → c.connection = none

namespace Reading

variable {plan : Plan} {pre post : List Cursor} {r r' : Reader σ}

theorem Drained.shows (h : Drained L plan pre post r r') :
    r'.cursor.Shows plan (r'.rounds L) .ended where
  left := by
    rw [Cursor.Left, show r'.cursor.unread plan (r'.rounds L) = [] from h.unread]
    exact .nil
  value := by
    rw [Cursor.value, h.current]
    rfl
  ended _ := h.connection

variable [Clock τ]

/-- An operation of reading answers what the reader answers that the cursor shows. -/
theorem perform_shows (hmetered : Metered t) {op : CursorOperation} (hop : op.Reads)
    {x : RowReader} (h : r.Ready L plan pre post) (hshows : r.cursor.Shows plan (r.rounds L) x)
    {o : Except Failure Answer} (hrun : (op.perform t).run r = (o, r'))
    (hserved : Served plan (r'.rounds L)) :
    o = x.answer op ∧ r.Advanced L plan pre post r' ∧
      r'.cursor.Shows plan (r'.rounds L) (x.advance op) := by
  cases op with
  | next =>
      obtain ⟨oa, hnext, rfl⟩ := run_bind_pure hrun
      obtain ⟨hrest, rfl, hdrained⟩ | ⟨v, later, hrest, rfl, hadvanced, hleft, hvalue, -⟩ :=
        next_read hmetered h hshows.left hnext hserved
      · simp only [RowReader.answer, RowReader.advance, hrest]
        exact ⟨rfl, hdrained.advanced, hdrained.shows⟩
      · simp only [RowReader.answer, RowReader.advance, hrest]
        exact ⟨rfl, hadvanced, hleft, hvalue, fun hended => by cases hended⟩
  | scan =>
      obtain ⟨oa, hscan, rfl⟩ := run_bind_pure hrun
      rw [run_scan, hshows.value] at hscan
      cases hscan
      refine ⟨?_, h.refl, hshows⟩
      rw [RowReader.answer]
      cases x.current <;> rfl
  | all =>
      obtain ⟨oa, hall, rfl⟩ := run_bind_pure hrun
      obtain ⟨rfl, hdrained⟩ := all_drained hmetered h hshows.left hall hserved
      exact ⟨rfl, hdrained.advanced, hdrained.shows⟩
  | iterate limit =>
      cases limit with
      | some n => exact hop.elim
      | none =>
          obtain ⟨oa, hiterate, rfl⟩ := run_bind_pure
            (f := fun x : List Value × Option Failure => Answer.rows x.1 x.2) hrun
          obtain ⟨rfl, hdrained⟩ := iterate_drained hmetered h hshows.left hiterate hserved
          exact ⟨rfl, hdrained.advanced, hdrained.shows⟩
  | look => exact hop.elim
  | one => exact hop.elim
  | exhaust => exact hop.elim
  | close => exact hop.elim
  | visit count => exact hop.elim

end Reading

/-- The rows that a server has for a cursor, as values. -/
def Cursor.Decodes (plan : Plan) (c : Cursor) (vs : List Value) : Prop :=
  (plan c.token).flatten.mapM (fun d => d.unmarshal c.timeFormat 0) = .ok vs

namespace Cursor

variable {plan : Plan} {rounds rounds' : List Round} {x : RowReader} {c : Cursor}

theorem Shows.other (h : c.Shows plan rounds x)
    (hbegun : begun c.token rounds' = begun c.token rounds) : c.Shows plan rounds' x where
  left := by
    rw [Left, unread, pending, hbegun]
    exact h.left
  value := h.value
  ended := h.ended

theorem Decodes.of_same {c' : Cursor} {vs : List Value} (h : c'.Decodes plan vs)
    (hsame : c.Same c') : c.Decodes plan vs := by
  rw [Decodes, ← hsame.token, ← hsame.timeFormat]
  exact h

theorem Decodes.forall₂ {vs : List Value} (h : c.Decodes plan vs) :
    List.Forall₂ (fun d v => d.unmarshal c.timeFormat 0 = .ok v) (plan c.token).flatten vs := by
  rw [Decodes] at h
  generalize (plan c.token).flatten = ds at h
  induction ds generalizing vs with
  | nil =>
      cases h
      exact .nil
  | cons d ds ih =>
      rw [List.mapM_cons] at h
      obtain ⟨v, hv, h⟩ := bind_ok h
      obtain ⟨vs, hvs, h⟩ := bind_ok h
      cases h
      exact .cons hv (ih hvs)

/-- A cursor that was opened shows its rows from the first one on. -/
theorem shows_of_opened {a a' : Account} {s s' : Session} {smooth : Prop} {vs : List Value}
    (h : Client.Opened plan a s c a' s') (htalk : Talk smooth s.token a.rounds)
    (hvs : c.Decodes plan vs) : c.Shows plan a'.rounds (.start vs) where
  left := by
    rw [Left, (h.fed htalk).2.1]
    exact hvs.forall₂
  value := by
    rw [value, (h.fed htalk).2.2]
    rfl
  ended := nofun

end Cursor

/-- Reading a cursor that reports an error from the start does nothing. -/
theorem CursorOperation.run_failed [Clock τ] {op : CursorOperation} (hop : op.Reads) (k : Client σ)
    (e : DriverError) :
    ((op.perform t).run ⟨k, Cursor.failed true e⟩).2 = ⟨k, Cursor.failed true e⟩ := by
  cases op with
  | next => rfl
  | scan => rfl
  | all => rfl
  | iterate limit =>
      cases limit with
      | some n => exact hop.elim
      | none => rfl
  | look => rfl
  | one => exact hop.elim
  | exhaust => exact hop.elim
  | close => exact hop.elim
  | visit count => exact hop.elim

/-- The operation runs a value or reads rows. -/
def Operation.Reads : Operation → Prop
  | .run _ => True
  | .cursor _ op => op.Reads
  | .session _ => False

theorem Operation.Reads.managed {op : Operation} (h : op.Reads) : op.Managed := by
  cases op with
  | run v => trivial
  | cursor i op => trivial
  | session op => exact h.elim

/-- What an operation has done with a cursor, if it was about that one and had an outcome. -/
def dealing (i : Nat) : Operation → Option (Except Failure Answer) →
    List (CursorOperation × Except Failure Answer)
  | .cursor j op, some o => if j = i then [(op, o)] else []
  | _, _ => []

/-- The readers after an operation. -/
def readersAfter (readers : Nat → RowReader) (op : Operation)
    (o : Option (Except Failure Answer)) (i : Nat) : RowReader :=
  (readers i).after ((dealing i op o).map Prod.fst)

namespace System

variable {plan : Plan} {readers : Nat → RowReader} {s s' : System σ}

/-- The one system has come from the other: no round was taken back, and the cursors are the
same ones. -/
structure Onward (L : Ledger t) (s s' : System σ) : Prop where
  rounds : (s.account L).rounds <:+ (s'.account L).rounds
  same : ∀ (i : Nat) (c : Cursor), s.cursors[i]? = some c →
    ∃ c', s'.cursors[i]? = some c' ∧ c.Same c'

theorem Onward.refl (s : System σ) : s.Onward L s :=
  ⟨List.suffix_rfl, fun _ c hc => ⟨c, hc, .refl c⟩⟩

theorem Onward.trans {s₁ : System σ} (h : s.Onward L s₁) (h' : s₁.Onward L s') :
    s.Onward L s' where
  rounds := h.rounds.trans h'.rounds
  same i c hc := by
    obtain ⟨c₁, hc₁, hsame⟩ := h.same i c hc
    obtain ⟨c', hc', hsame'⟩ := h'.same i c₁ hc₁
    exact ⟨c', hc', hsame.trans hsame'⟩

theorem Onward.length_le (h : s.Onward L s') : s.cursors.length ≤ s'.cursors.length := by
  by_contra hlt
  have hget := List.getElem?_eq_getElem (Nat.lt_of_not_le hlt)
  obtain ⟨c', hc', -⟩ := h.same s'.cursors.length _ hget
  simp at hc'

/-- Every cursor that a query was sent for shows what its reader shows, and its token is its
own. -/
structure Streams (L : Ledger t) (plan : Plan) (readers : Nat → RowReader) (s : System σ) :
    Prop where
  sound : ∃ smooth, s.Sound L smooth
  fed : ∀ (i : Nat) (c : Cursor), s.cursors[i]? = some c → c.shape ≠ none →
    c.Fed plan (s.account L).rounds
  shows : ∀ (i : Nat) (c : Cursor), s.cursors[i]? = some c → c.shape ≠ none →
    c.Shows plan (s.account L).rounds (readers i)
  failed : ∀ (i : Nat) (c : Cursor), s.cursors[i]? = some c → c.shape = none →
    ∃ e, c = Cursor.failed true e
  apart : ∀ (i j : Nat) (c d : Cursor), s.cursors[i]? = some c → s.cursors[j]? = some d →
    c.shape ≠ none → d.shape ≠ none → c.token = d.token → i = j
  kinds : ∀ x ∈ (s.account L).rounds, x.IsOf .start ∨ x.IsOf .continue

/-- What an operation of reading has done to a system. -/
inductive Did (L : Ledger t) (plan : Plan) (readers : Nat → RowReader) (s : System σ) :
    Operation → Option (Except Failure Answer) → System σ → Prop
  /-- Rows of a cursor were read. -/
  | read {i : Nat} {op : CursorOperation} {c : Cursor} {r : Reader σ}
      (hc : s.cursors[i]? = some c) (hshape : c.shape ≠ none)
      (hfed : r.cursor.Fed plan (r.rounds L))
      (hshows : r.cursor.Shows plan (r.rounds L) ((readers i).advance op))
      (hdrawn : Cursor.Drawn c.token (s.account L) s.client.session c.connection
        r.cursor.connection (r.client.account L) r.client.session)
      (hsame : c.Same r.cursor) :
    Did L plan readers s (.cursor i op) (some ((readers i).answer op))
      ⟨r.client, s.cursors.set i r.cursor⟩
  /-- There was nothing to be read. -/
  | idle {i : Nat} {op : CursorOperation} {o : Option (Except Failure Answer)}
      (hc : ∀ c, s.cursors[i]? = some c → c.shape = none) (ho : s.cursors[i]? = none → o = none) :
    Did L plan readers s (.cursor i op) o s
  /-- A cursor was handed out on the first batch of a token. -/
  | opened {v : Value} {c : Cursor} {k : Client σ}
      (hopened : Client.Opened plan (s.account L) s.client.session c (k.account L) k.session) :
    Did L plan readers s (.run v) (some (.ok (.handedOut s.cursors.length)))
      ⟨k, s.cursors ++ [c]⟩
  /-- A cursor was handed out that reports an error. -/
  | reported {v : Value} {e : DriverError} {k : Client σ} (haccount : k.account L = s.account L) :
    Did L plan readers s (.run v) (some (.ok (.handedOut s.cursors.length)))
      ⟨k, s.cursors ++ [Cursor.failed true e]⟩
  | failed {v : Value} {e : Failure} {k : Client σ}
      (hrounds : (k.account L).rounds = (s.account L).rounds) :
    Did L plan readers s (.run v) (some (.error e)) { s with client := k }

theorem getElem?_concat_cases {α : Type} {l : List α} {x y : α} {i : Nat}
    (h : (l ++ [x])[i]? = some y) : l[i]? = some y ∨ i = l.length ∧ y = x := by
  obtain ⟨hlt, rfl⟩ := List.getElem?_eq_some_iff.1 h
  by_cases hi : i < l.length
  · exact .inl (by simp [hi])
  · have hlen : i = l.length := by
      rw [List.length_append, List.length_singleton] at hlt
      omega
    exact .inr ⟨hlen, by simp [hlen]⟩

theorem getElem?_set_cases {α : Type} {l : List α} {x y : α} {i j : Nat}
    (h : (l.set i x)[j]? = some y) : j = i ∧ y = x ∨ j ≠ i ∧ l[j]? = some y := by
  by_cases hij : i = j
  · subst hij
    have hlt : i < l.length := by simpa using (List.getElem?_eq_some_iff.1 h).1
    rw [List.getElem?_set_self hlt] at h
    exact .inl ⟨rfl, (Option.some.inj h).symm⟩
  · rw [List.getElem?_set_ne hij] at h
    exact .inr ⟨Ne.symm hij, h⟩

/-- A round with a new token is nothing to the cursors that there are. -/
theorem Streams.begun_cons (h : s.Streams L plan readers) {x : Round}
    (hx : x.token.toInt = s.client.session.token + 1) {i : Nat} {c : Cursor}
    (hc : s.cursors[i]? = some c) (hshape : c.shape ≠ none) :
    x.token ≠ c.token ∧
      begun c.token (x :: (s.account L).rounds) = begun c.token (s.account L).rounds := by
  obtain ⟨smooth, hsound⟩ := h.sound
  obtain ⟨y, hy, htoken⟩ := List.countP_pos_iff.1 (h.fed i c hc hshape).begun
  have hle := hsound.talk.bounded y hy
  rw [of_decide_eq_true htoken] at hle
  have hne : x.token ≠ c.token := by
    intro heq
    rw [heq] at hx
    omega
  have hnew : ∀ y ∈ [x], y.token ≠ c.token := by simpa using hne
  exact ⟨hne, begun_append_of_ne hnew _⟩

/-- Rows of a cursor were read, and the other cursors show what they did. -/
theorem Streams.read (h : s.Streams L plan readers) {i : Nat} {op : CursorOperation} {c : Cursor}
    {r : Reader σ} (hc : s.cursors[i]? = some c) (hshape : c.shape ≠ none)
    (hfed : r.cursor.Fed plan (r.rounds L))
    (hshows : r.cursor.Shows plan (r.rounds L) ((readers i).advance op))
    (hdrawn : Cursor.Drawn c.token (s.account L) s.client.session c.connection
      r.cursor.connection (r.client.account L) r.client.session)
    (hsame : c.Same r.cursor)
    (hsound : ∃ smooth, (⟨r.client, s.cursors.set i r.cursor⟩ : System σ).Sound L smooth) :
    (⟨r.client, s.cursors.set i r.cursor⟩ : System σ).Streams L plan
      (readersAfter readers (.cursor i op) (some ((readers i).answer op))) := by
  obtain ⟨new, hrounds, hnewer⟩ := hdrawn.begun
  have hhere : readersAfter readers (.cursor i op) (some ((readers i).answer op)) i =
      (readers i).advance op := by simp [readersAfter, dealing]
  have hthere {j : Nat} (hji : j ≠ i) :
      readersAfter readers (.cursor i op) (some ((readers i).answer op)) j = readers j := by
    simp [readersAfter, dealing, hji.symm]
  -- What was asked for is nothing to the other cursors.
  have hother {j : Nat} {d : Cursor} (hji : j ≠ i) (hd : s.cursors[j]? = some d)
      (hdshape : d.shape ≠ none) :
      begun d.token (r.client.account L).rounds = begun d.token (s.account L).rounds := by
    rw [hrounds]
    refine begun_append_of_ne (fun x hx heq => hji ?_) _
    exact h.apart j i d c hd hc hdshape hshape (heq.symm.trans (hnewer x hx).1)
  refine ⟨hsound, fun j d hd hdshape => ?_, fun j d hd hdshape => ?_, fun j d hd hdshape => ?_,
    fun j k d e hd he hdshape heshape htoken => ?_, fun x hx => ?_⟩
  · obtain ⟨rfl, rfl⟩ | ⟨hji, hd⟩ := getElem?_set_cases hd
    · exact hfed
    · exact (h.fed j d hd hdshape).other (hother hji hd hdshape)
  · obtain ⟨rfl, rfl⟩ | ⟨hji, hd⟩ := getElem?_set_cases hd
    · rw [hhere]
      exact hshows
    · rw [hthere hji]
      exact (h.shows j d hd hdshape).other (hother hji hd hdshape)
  · obtain ⟨rfl, rfl⟩ | ⟨hji, hd⟩ := getElem?_set_cases hd
    · exact absurd (hsame.shape.symm.trans hdshape) hshape
    · exact h.failed j d hd hdshape
  · obtain ⟨rfl, rfl⟩ | ⟨-, hd'⟩ := getElem?_set_cases hd <;>
      obtain ⟨rfl, rfl⟩ | ⟨-, he'⟩ := getElem?_set_cases he
    · rfl
    · rw [hsame.token] at htoken
      exact h.apart _ k c e hc he' hshape heshape htoken
    · rw [hsame.token] at htoken
      exact h.apart j _ d c hd' hc hdshape hshape htoken
    · exact h.apart j k d e hd' he' hdshape heshape htoken
  · change x ∈ (r.client.account L).rounds at hx
    rw [hrounds] at hx
    obtain hx | hx := List.mem_append.1 hx
    · exact .inr (hnewer x hx).2
    · exact h.kinds x hx

/-- A cursor was opened, with a token that no other cursor has. -/
theorem Streams.opened (h : s.Streams L plan readers) {c : Cursor} {k : Client σ}
    (hopened : Client.Opened plan (s.account L) s.client.session c (k.account L) k.session)
    {vs : List Value} (hstart : readers s.cursors.length = .start vs) (hvs : c.Decodes plan vs)
    (hsound : ∃ smooth, (⟨k, s.cursors ++ [c]⟩ : System σ).Sound L smooth) :
    (⟨k, s.cursors ++ [c]⟩ : System σ).Streams L plan readers := by
  obtain ⟨smooth, htalk⟩ := h.sound
  obtain ⟨x, hrounds, hx, htoken, hnext⟩ := hopened.begun
  have hfed := (hopened.fed htalk.talk).1
  have hother {j : Nat} {d : Cursor} (hd : s.cursors[j]? = some d) (hdshape : d.shape ≠ none) :
      c.token ≠ d.token ∧
        begun d.token (k.account L).rounds = begun d.token (s.account L).rounds := by
    rw [hrounds, ← htoken]
    exact h.begun_cons (htoken ▸ hnext) hd hdshape
  refine ⟨hsound, fun j d hd hdshape => ?_, fun j d hd hdshape => ?_, fun j d hd hdshape => ?_,
    fun i j d e hd he hdshape heshape heq => ?_, fun y hy => ?_⟩
  · obtain hd | ⟨rfl, rfl⟩ := getElem?_concat_cases hd
    · exact (h.fed j d hd hdshape).other (hother hd hdshape).2
    · exact hfed
  · obtain hd | ⟨rfl, rfl⟩ := getElem?_concat_cases hd
    · exact (h.shows j d hd hdshape).other (hother hd hdshape).2
    · rw [hstart]
      exact Cursor.shows_of_opened hopened htalk.talk hvs
  · obtain hd | ⟨rfl, rfl⟩ := getElem?_concat_cases hd
    · exact h.failed j d hd hdshape
    · exact absurd hdshape hfed.shape_ne_none
  · obtain hd' | ⟨rfl, rfl⟩ := getElem?_concat_cases hd <;>
      obtain he' | ⟨rfl, rfl⟩ := getElem?_concat_cases he
    · exact h.apart i j d e hd' he' hdshape heshape heq
    · exact absurd heq.symm (hother hd' hdshape).1
    · exact absurd heq (hother he' heshape).1
    · rfl
  · change y ∈ (k.account L).rounds at hy
    rw [hrounds] at hy
    obtain rfl | hy := List.mem_cons.1 hy
    · exact .inl hx
    · exact h.kinds y hy

/-- No round was begun, and there is no new cursor but one that reports an error. -/
theorem Streams.unopened (h : s.Streams L plan readers)
    (hrounds : (s'.account L).rounds = (s.account L).rounds)
    (hcursors : ∀ (i : Nat) (c : Cursor), s'.cursors[i]? = some c →
      s.cursors[i]? = some c ∨ ∃ e, c = Cursor.failed true e)
    (hsound : ∃ smooth, s'.Sound L smooth) : s'.Streams L plan readers := by
  have hold {i : Nat} {c : Cursor} (hc : s'.cursors[i]? = some c) (hshape : c.shape ≠ none) :
      s.cursors[i]? = some c := by
    obtain hc | ⟨e, rfl⟩ := hcursors i c hc
    · exact hc
    · exact absurd rfl hshape
  refine ⟨hsound, fun i c hc hshape => ?_, fun i c hc hshape => ?_, fun i c hc hshape => ?_,
    fun i j c d hc hd hshape hdshape => ?_, fun x hx => ?_⟩
  · rw [hrounds]
    exact h.fed i c (hold hc hshape) hshape
  · rw [hrounds]
    exact h.shows i c (hold hc hshape) hshape
  · obtain hc | hfailed := hcursors i c hc
    · exact h.failed i c hc hshape
    · exact hfailed
  · exact h.apart i j c d (hold hc hshape) (hold hd hdshape) hshape hdshape
  · rw [hrounds] at hx
    exact h.kinds x hx

/-- The operation keeps what every such history keeps, with the readers moved on. -/
theorem Did.streams {op : Operation} {o : Option (Except Failure Answer)}
    (hdid : s.Did L plan readers op o s') (h : s.Streams L plan readers)
    (hsound : ∃ smooth, s'.Sound L smooth)
    (hnew : ∀ c, s'.cursors[s.cursors.length]? = some c → c.shape ≠ none →
      ∃ vs, readers s.cursors.length = .start vs ∧ c.Decodes plan vs) :
    s'.Streams L plan (readersAfter readers op o) := by
  cases hdid with
  | read hc hshape hfed hshows hdrawn hsame =>
      exact h.read hc hshape hfed hshows hdrawn hsame hsound
  | @idle i op o hc ho =>
      refine { h with shows := fun j d hd hdshape => ?_ }
      have hij : i ≠ j := by
        rintro rfl
        exact hdshape (hc d hd)
      have hreader : readersAfter readers (.cursor i op) o j = readers j := by
        cases o <;> simp [readersAfter, dealing, hij]
      rw [hreader]
      exact h.shows j d hd hdshape
  | @opened v c k hopened =>
      obtain ⟨smooth, htalk⟩ := h.sound
      obtain ⟨vs, hstart, hvs⟩ := hnew c (by simp) (hopened.fed htalk.talk).1.shape_ne_none
      exact h.opened hopened hstart hvs hsound
  | reported haccount =>
      refine h.unopened (congrArg Account.rounds haccount) (fun i c hc => ?_) hsound
      obtain hc | ⟨-, rfl⟩ := getElem?_concat_cases hc
      · exact .inl hc
      · exact .inr ⟨_, rfl⟩
  | failed hrounds => exact h.unopened hrounds (fun i c hc => .inl hc) hsound

/-- Nothing is done with a cursor that was not handed out. -/
theorem Did.dealing_eq_nil {op : Operation} {o : Option (Except Failure Answer)}
    (hdid : s.Did L plan readers op o s') {i : Nat} (hnone : s.cursors[i]? = none) :
    dealing i op o = [] := by
  cases hdid with
  | @read j op c r hc hshape hfed hshows hdrawn hsame =>
      have hji : j ≠ i := by
        rintro rfl
        cases hc.symm.trans hnone
      exact if_neg hji
  | @idle j op o hc ho =>
      cases o with
      | none => rfl
      | some o =>
          have hji : j ≠ i := by
            rintro rfl
            cases ho hnone
          exact if_neg hji
  | opened hopened => rfl
  | reported haccount => rfl
  | failed hrounds => rfl

/-- What is done with a cursor is answered as its reader answers. -/
theorem Did.answers {op : Operation} {o : Option (Except Failure Answer)}
    (hdid : s.Did L plan readers op o s') {i : Nat}
    (hshape : ∀ c, s.cursors[i]? = some c → c.shape ≠ none) :
    (dealing i op o).map Prod.snd = (readers i).answers ((dealing i op o).map Prod.fst) := by
  cases hdid with
  | @read j op c r hc _ hfed hshows hdrawn hsame =>
      by_cases hji : j = i
      · subst hji
        simp [dealing, RowReader.answers]
      · simp [dealing, hji, RowReader.answers]
  | @idle j op o hc ho =>
      by_cases hji : j = i
      · subst hji
        cases hget : s.cursors[j]? with
        | none =>
            rw [ho hget]
            rfl
        | some c => exact absurd (hc c hget) (hshape c hget)
      · cases o <;> simp [dealing, hji, RowReader.answers]
  | opened hopened => rfl
  | reported haccount => rfl
  | failed hrounds => rfl

theorem Sound.open_of_acquired {smooth : Prop} (h : s.Sound L smooth) {conn : Connection}
    {a : Account} {s₁ : Session}
    (hacquired : Client.Acquired (s.account L) s.client.session.counted (.ok conn) a s₁) :
    conn.line ∉ a.closed := by
  have hcounted : QueryDriver.Sound smooth s.client.session.token [] (s.account L)
      s.client.session.counted s.cursors :=
    QueryDriver.Sound.of_session h rfl (Nat.le_succ _) rfl .inl
  exact ((hcounted.acquire hacquired).2.1 conn rfl).open_

variable [Clock τ] {op : Operation} {o : Option (Except Failure Answer)}

/-- Operations take back no round, and cursors stay the same ones. -/
theorem Sound.onward {smooth : Prop} (h : s.Sound L smooth) (hop : op.Managed)
    (hrun : s.perform t op = (o, s')) : s.Onward L s' := by
  cases performed_of_perform hrun with
  | kept hr =>
      have hrounds := (SessionOperation.handled_of_perform (L := L) hop hr).rounds
      exact ⟨hrounds ▸ List.suffix_rfl, fun i c hc => ⟨c, hc, .refl c⟩⟩
  | unopened hr => exact ⟨(Client.run_ran (L := L) hr).suffix, fun i c hc => ⟨c, hc, .refl c⟩⟩
  | opened hr =>
      refine ⟨(Client.run_ran (L := L) hr).suffix, fun i c hc => ⟨c, ?_, .refl c⟩⟩
      exact (List.getElem?_append_left (List.getElem?_eq_some_iff.1 hc).1).trans hc
  | idle hnone => exact .refl s
  | @read i op c _ r hc hr =>
      obtain ⟨pre, post, hpre, -⟩ := exists_split_of_getElem? hc r.cursor
      rw [System.Sound, hpre] at h
      obtain ⟨-, hrounds, hsame⟩ := op.keeps hr h
      refine ⟨hrounds, fun j d hd => ?_⟩
      by_cases hij : i = j
      · subst hij
        cases hc.symm.trans hd
        have hlt := (List.getElem?_eq_some_iff.1 hc).1
        exact ⟨r.cursor, List.getElem?_set_self hlt, hsame⟩
      · exact ⟨d, by simpa [hij] using hd, .refl d⟩

/-- On a server that keeps to its plan an operation does what `Did` lists. -/
theorem Streams.did (hmetered : Metered t) (h : s.Streams L plan readers) (hop : op.Reads)
    (hplan : ∀ token, plan token ≠ []) (hrun : s.perform t op = (o, s'))
    (hserved : Served plan (s'.account L).rounds) : s.Did L plan readers op o s' := by
  obtain ⟨smooth, hsound⟩ := h.sound
  have hran {v : Value} {oc : Except Failure Cursor} {k : Client σ}
      (hr : (Client.run t v).run s.client = (oc, k))
      (hserved : Served plan (k.account L).rounds) :=
    (Client.run_ran (L := L) hr).served hsound.talk
      (fun conn a₁ s₁ => hsound.open_of_acquired) hplan hserved
  cases performed_of_perform hrun with
  | kept hr => exact hop.elim
  | @opened v c k hr =>
      obtain ⟨c, hc, hopened⟩ | hunopened := hran hr hserved
      · cases hc
        exact .opened hopened
      · generalize ha : k.account L = a at hunopened
        generalize k.session = session at hunopened
        cases hunopened with
        | reported e => exact .reported ha
  | @unopened v e k hr =>
      obtain ⟨c, hc, hopened⟩ | hunopened := hran hr hserved
      · cases hc
      · generalize ha : k.account L = a at hunopened
        generalize k.session = session at hunopened
        cases hunopened with
        | failed e a session hrounds => exact .failed (ha ▸ hrounds)
  | @idle i op hnone =>
      exact .idle (fun c hc => by cases hnone.symm.trans hc) fun _ => rfl
  | @read i op c oc r hc hr =>
      by_cases hshape : c.shape = none
      · obtain ⟨e, rfl⟩ := h.failed i c hc hshape
        have hsame := op.run_failed (t := t) hop s.client e
        rw [hr] at hsame
        cases hsame
        have hset : s.cursors.set i (Cursor.failed true e) = s.cursors := by
          obtain ⟨hlt, hget⟩ := List.getElem?_eq_some_iff.1 hc
          rw [← hget, List.set_getElem_self]
        rw [hset]
        exact .idle (fun c hc' => by rwa [← Option.some.inj (hc.symm.trans hc')])
          fun hnone => by cases hc.symm.trans hnone
      · obtain ⟨pre, post, hpre, -⟩ := exists_split_of_getElem? hc r.cursor
        have hready : Reader.Ready L plan pre post ⟨s.client, c⟩ := by
          refine ⟨⟨smooth, s.client.session.token, ?_⟩, h.fed i _ hc hshape⟩
          rw [System.Sound, hpre] at hsound
          exact hsound
        obtain ⟨rfl, hadvanced, hshows⟩ :=
          Reading.perform_shows hmetered hop hready (h.shows i _ hc hshape) hr hserved
        exact .read hc hshape hadvanced.ready.fed hshows hadvanced.drawn hadvanced.same

end System

end QueryDriver
