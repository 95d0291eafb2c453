import QueryDriver.Proofs.Session.Running

/-!
# What actions of a client spare

An action that uses one line only does nothing to the others. This is said of anything that can
be read off the network: what does not look at the line, `Blind`, reads the same before and after
the action, whether a connection is used for a round trip, given back or thrown away.
-/

namespace QueryDriver.Client

open Net Wire

variable {σ τ α β γ : Type} {t : Transport σ τ}

/-- What does not look at a line sees nothing of what is done on it. -/
structure Blind (t : Transport σ τ) (n : Nat) (f : σ → γ) : Prop where
  arm (span : Option τ) (s : σ) : f (t.arm n span s).2 = f s
  send (b : UInt8) (bs : Bytes) (s : σ) : f (t.send n b bs s).2 = f s
  receive (asked : Nat) (s : σ) : f (t.receive n asked s).2 = f s
  close (s : σ) : f (t.close n s).2 = f s

namespace Blind

variable {f : σ → γ} {c : Connection}

theorem awaitsFreely (h : Blind t c.line f) :
    AwaitsFreely t c.line fun w : World σ => f w.net :=
  ⟨fun span w => h.arm span w.net, fun asked w => h.receive asked w.net, fun _ _ => rfl⟩

theorem closesFreely (h : Blind t c.line f) :
    ClosesFreely t c.line fun w : World σ => f w.net :=
  ⟨fun w => h.close w.net, fun _ _ => rfl⟩

theorem execute [Clock τ] (h : Blind t c.line f) {query : Query} {timeout : Option τ}
    {w w' : World σ} {o : Except Failure Response}
    (hrun : (c.execute t query timeout).run w = (o, w')) :
    f w'.net = f w.net := by
  by_cases hclosed : c.line ∈ w.closed
  · rw [Connection.run_execute_closed hclosed] at hrun
    cases hrun
    rfl
  · obtain ⟨deadline, w₁, hexchange, hw'⟩ := Connection.execute_preserves h.awaitsFreely
      h.closesFreely (fun _ _ => rfl) hclosed hrun
    have hw₁ := (Connection.preserves_exchange h.awaitsFreely (fun b bs w => h.send b bs w.net)
      query).same hexchange
    exact hw'.trans hw₁

end Blind

/-- What `f` reads off the network is the same before and after the action. -/
def Spares (f : σ → γ) (a : Action σ α) : Prop :=
  ∀ ⦃k : Client σ⦄ ⦃o : Except Failure α⦄ ⦃k' : Client σ⦄, a.run k = (o, k') →
    f k'.world.net = f k.world.net

namespace Spares

variable {f : σ → γ} {c : Connection}

/-- An action that does not use the network. -/
theorem of_net {a : Action σ α} (h : ∀ k, (a.run k).2.world.net = k.world.net) : Spares f a := by
  intro k o k' hrun
  have hnet := h k
  rw [hrun] at hnet
  exact congrArg f hnet

protected theorem bind {a : Action σ α} {g : α → Action σ β} (ha : Spares f a)
    (hg : ∀ x, Spares f (g x)) : Spares f (a >>= g) := by
  intro k o k' h
  obtain ⟨x, k₁, h₁, h₂⟩ | ⟨e, h₁, -⟩ := run_bind_cases h
  · exact (hg x h₂).trans (ha h₁)
  · exact ha h₁

theorem observe {a : Action σ α} (h : Spares f a) : Spares f (Action.observe a) := by
  intro k o k' hrun
  cases hrun
  exact h rfl

theorem record (e : LogEntry) : Spares f (Action.record e : Action σ Unit) := of_net fun _ => rfl

theorem discard (h : Blind t c.line f) : Spares f (discard t c) := by
  have hclose : Spares f (Action.onWorld (c.close t)) := by
    intro k o k' hrun
    cases hrun
    exact (Connection.preserves_close h.closesFreely).same rfl
  refine hclose.observe.bind fun o => ?_
  cases o with
  | ok u => exact of_net fun _ => rfl
  | error e => exact record _

theorem release (h : Blind t c.line f) : Spares f (release t c) := by
  refine .bind (of_net fun _ => rfl) fun closed => ?_
  split
  · exact of_net fun _ => rfl
  · refine .bind (of_net fun _ => rfl) fun s => ?_
    split
    · exact of_net fun _ => rfl
    · exact (record _).bind fun _ => discard h

theorem received (h : Blind t c.line f) (v : Value) (token : Int64) (timeFormat : TimeFormat)
    (r : Response) : Spares f (received t c v token timeFormat r) := by
  unfold Client.received
  split
  · exact of_net fun _ => rfl
  · exact (release h).bind fun _ => of_net fun _ => rfl
  · dsimp only
    split
    · exact (release h).bind fun _ => .bind (of_net fun _ => rfl) fun _ => of_net fun _ => rfl
    · exact (discard h).bind fun _ => .bind (of_net fun _ => rfl) fun _ => of_net fun _ => rfl

theorem roundTrip [Clock τ] (h : Blind t c.line f) (query : Query) :
    Spares f (roundTrip t c query) := by
  refine .bind (of_net fun _ => rfl) fun s k o k' hrun => ?_
  cases hrun
  exact h.execute rfl

end Spares

end QueryDriver.Client
