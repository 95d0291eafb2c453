import QueryDriver.Proofs.Net.Account

/-!
# What actions on a network leave alone

An action preserves what `f` reads off the network if `f` reads the same before and after it
and the action has no fault but a refusal. For the actions that a round trip is made of, this is
asked of the single operations only: if arming a line, receiving on it and a note in the journal
do not change what `f` reads, then waiting for an answer does not, and if sending does not
either, then an exchange does not.

The account of the network is preserved by all of them. So is, by waiting, what the line has
accepted.
-/

namespace QueryDriver.Net

open Wire

variable {σ τ α β γ : Type} {f : World σ → γ}

/-- What `f` reads off the network is the same before and after the action, and the only faults
of the action are refusals. -/
structure Preserves (f : World σ → γ) (a : Action σ α) : Prop where
  same : ∀ {w o w'}, a.run w = (o, w') → f w' = f w
  refusal : ∀ {w fault w'}, a.run w = (.error (.fault fault), w') → fault.IsRefusal

namespace Preserves

protected theorem pure (x : α) : Preserves f (pure x : Action σ α) where
  same h := by cases h; rfl
  refusal h := by cases h

theorem throw_driver (e : DriverError) : Preserves f (throw (.driver e) : Action σ α) where
  same h := by cases h; rfl
  refusal h := by cases h

theorem throw_ofCause (cause : Cause) : Preserves f (throw (.ofCause cause) : Action σ α) :=
  throw_driver _

theorem throw_socket (text : String) :
    Preserves f (throw (.fault (.socket text)) : Action σ α) where
  same h := by cases h; rfl
  refusal h := by cases h; exact ⟨text, rfl⟩

protected theorem get : Preserves f (get : Action σ (World σ)) where
  same h := by cases h; rfl
  refusal h := by cases h

protected theorem bind {a : Action σ α} {g : α → Action σ β} (ha : Preserves f a)
    (hg : ∀ x, Preserves f (g x)) : Preserves f (a >>= g) where
  same h := by
    obtain ⟨x, w₁, h₁, h₂⟩ | ⟨e, h₁, -⟩ := run_bind_cases h
    · exact ((hg x).same h₂).trans (ha.same h₁)
    · exact ha.same h₁
  refusal h := by
    obtain ⟨x, w₁, h₁, h₂⟩ | ⟨e, h₁, he⟩ := run_bind_cases h
    · exact (hg x).refusal h₂
    · cases he
      exact ha.refusal h₁

protected theorem modify {g : World σ → World σ} (h : ∀ w, f (g w) = f w) :
    Preserves f (modify g : Action σ Unit) where
  same hrun := by cases hrun; exact h _
  refusal hrun := by cases hrun

theorem observe {a : Action σ α} (h : Preserves f a) : Preserves f (Action.observe a) where
  same hrun := by cases hrun; exact h.same rfl
  refusal hrun := by cases hrun

theorem onNet {operation : σ → Except SocketFault α × σ}
    (h : ∀ w, f { w with net := (operation w.net).2 } = f w) :
    Preserves f (Action.onNet operation) where
  same hrun := by cases hrun; exact h _
  refusal hrun := by cases hrun

theorem record {e : LogEntry} (h : ∀ w, f { w with journal := w.journal.record e } = f w) :
    Preserves f (Action.record e) where
  same hrun := by cases hrun; exact h _
  refusal hrun := by cases hrun

end Preserves

/-- Arming the line does not change what `f` reads off the network. -/
def ArmsFreely (t : Transport σ τ) (n : Nat) (f : World σ → γ) : Prop :=
  ∀ span w, f { w with net := (t.arm n span w.net).2 } = f w

/-- Closing the line does not change what `f` reads off the network. -/
structure ClosesFreely (t : Transport σ τ) (n : Nat) (f : World σ → γ) : Prop where
  close : ∀ w, f { w with net := (t.close n w.net).2 } = f w
  closed : ∀ lines w, f { w with closed := lines } = f w

/-- Nothing that is done while an answer is awaited changes what `f` reads off the network. -/
structure AwaitsFreely (t : Transport σ τ) (n : Nat) (f : World σ → γ) : Prop where
  arm : ArmsFreely t n f
  receive : ∀ asked w, f { w with net := (t.receive n asked w.net).2 } = f w
  record : ∀ {e : LogEntry}, e.IsAside → ∀ w, f { w with journal := w.journal.record e } = f w

section Account

variable {t : Transport σ τ} {L : Ledger t}

theorem World.account_awaitsFreely (n : Nat) : AwaitsFreely t n (World.account L) where
  arm span w := by simp only [World.account, L.opened_arm]
  receive asked w := by simp only [World.account, L.opened_receive]
  record h w := by simp only [World.account, Journal.record, roundsOf_aside h, greetedOf_aside h]

theorem World.account_send (n : Nat) (b : UInt8) (bs : Bytes) (w : World σ) :
    { w with net := (t.send n b bs w.net).2 }.account L = w.account L := by
  simp only [World.account, L.opened_send]

theorem Preserves.plain {a : Action σ α} (h : Preserves (World.account L) a) : Plain L a :=
  ⟨h.same, h.refusal⟩

end Account

namespace Connection

variable {t : Transport σ τ} {c : Connection}

theorem preserves_arm (h : ArmsFreely t c.line f) (span : Option τ) :
    Preserves f (c.arm t span) := by
  refine .bind (.onNet (h span)) fun r => ?_
  cases r with
  | ok u => exact .pure _
  | error fault => exact .throw_socket _

theorem preserves_isClosed : Preserves f (c.isClosed : Action σ Bool) :=
  .bind .get fun _ => .pure _

theorem preserves_close (h : ClosesFreely t c.line f) : Preserves f (c.close t) := by
  refine .bind preserves_isClosed fun closed => ?_
  split
  · exact .pure _
  · refine .bind (.modify fun w => h.closed _ w) fun _ => .bind (.onNet h.close) fun r => ?_
    cases r with
    | ok u => exact .pure _
    | error fault => exact .throw_ofCause _

theorem preserves_abort (h : AwaitsFreely t c.line f) (hclose : ClosesFreely t c.line f) :
    Preserves f (c.abort t) := by
  refine .bind (.observe (preserves_close hclose)) fun o => ?_
  cases o with
  | ok u => exact .pure _
  | error e => exact .record (h.record trivial)

theorem preserves_clearDeadline (h : AwaitsFreely t c.line f) :
    Preserves f (c.clearDeadline t) := by
  refine .bind preserves_isClosed fun closed => ?_
  split
  · exact .pure _
  · refine .bind (.onNet (h.arm none)) fun r => ?_
    cases r with
    | ok u => exact .pure _
    | error fault => exact .record (h.record trivial)

variable [Clock τ] {deadline : Option τ}

theorem preserves_applyDeadline (h : ArmsFreely t c.line f) :
    Preserves f (c.applyDeadline t deadline) := by
  cases deadline with
  | none => exact preserves_arm h none
  | some d =>
      refine .bind .get fun w => ?_
      dsimp only
      split
      · exact .bind (.throw_ofCause _) fun _ => preserves_arm h _
      · exact preserves_arm h _

@[simp] theorem writeWithin_nil (fuel : Nat) :
    c.writeWithin t deadline fuel [] = pure () := by
  cases fuel <;> rfl

theorem preserves_writeWithin (h : ArmsFreely t c.line f)
    (hsend : ∀ b bs w, f { w with net := (t.send c.line b bs w.net).2 } = f w) (fuel : Nat)
    (data : Bytes) : Preserves f (c.writeWithin t deadline fuel data) := by
  induction fuel generalizing data with
  | zero => cases data <;> exact .pure _
  | succ fuel ih =>
      cases data with
      | nil => exact .pure _
      | cons b bs =>
          refine .bind (preserves_applyDeadline h) fun _ => ?_
          refine .bind (.onNet (hsend b bs)) fun r => ?_
          rcases r with (_ | text) | accepted
          · exact .throw_ofCause _
          · exact .throw_ofCause _
          · exact ih _

theorem preserves_readWithin (h : AwaitsFreely t c.line f) (frameStart : Bool)
    (fuel missing : Nat) (got : Bytes) :
    Preserves f (c.readWithin t deadline frameStart fuel missing got) := by
  induction fuel generalizing missing got with
  | zero => cases missing <;> exact .pure _
  | succ fuel ih =>
      cases missing with
      | zero => exact .pure _
      | succ missing =>
          refine .bind (preserves_applyDeadline h.arm) fun _ => ?_
          refine .bind (.onNet (h.receive _)) fun r => ?_
          rcases r with (_ | text) | ⟨_ | ⟨b, bs⟩, hlength⟩
          · exact .throw_ofCause _
          · exact .throw_ofCause _
          · dsimp only
            split <;> exact .throw_ofCause _
          · exact ih _ _

theorem preserves_readPayload (h : AwaitsFreely t c.line f) (size : Nat) :
    Preserves f (c.readPayload t deadline size) := by
  refine .bind (preserves_readWithin h _ _ _ _) fun payload => ?_
  split
  · exact .pure _
  · exact .throw_ofCause _

theorem preserves_readResponse (h : AwaitsFreely t c.line f) :
    Preserves f (c.readResponse t deadline) := by
  refine .bind (preserves_readWithin h _ _ _ _) fun header => .bind .get fun w => ?_
  dsimp only
  split
  · exact .bind (.throw_ofCause _) fun _ => preserves_readPayload h _
  · exact preserves_readPayload h _

theorem preserves_awaitWithin (h : AwaitsFreely t c.line f) (token : Int64) (fuel : Nat) :
    Preserves f (c.awaitWithin t deadline token fuel) := by
  induction fuel with
  | zero => exact .throw_ofCause _
  | succ fuel ih =>
      refine .bind (preserves_readResponse h) fun r => ?_
      split
      · exact .bind (.record (h.record trivial)) fun _ => ih
      · split
        · exact .throw_driver _
        · exact .pure _

theorem preserves_await (h : AwaitsFreely t c.line f) (token : Int64) :
    Preserves f (c.await t deadline token) :=
  .bind .get fun _ => preserves_awaitWithin h token _

theorem preserves_exchange (h : AwaitsFreely t c.line f)
    (hsend : ∀ b bs w, f { w with net := (t.send c.line b bs w.net).2 } = f w) (query : Query) :
    Preserves f (c.exchange t query deadline) := by
  refine .bind .get fun w => ?_
  dsimp only
  split
  · exact .throw_ofCause _
  · exact .bind (preserves_writeWithin h.arm hsend _ _) fun _ => preserves_await h _

end Connection

end QueryDriver.Net
