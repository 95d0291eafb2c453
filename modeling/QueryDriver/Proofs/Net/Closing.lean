import QueryDriver.Proofs.Net.RoundTrip

/-!
# Closed lines stay closed

An error of the driver in a round trip closes the line. Nothing that the driver does opens a line
again: round trips, dialing and closing only add to the lines that are closed. So whatever happens
on the network later on, a round trip on such a line fails and does nothing.
-/

namespace QueryDriver.Net

open Wire

variable {σ τ α : Type} {t : Transport σ τ}

namespace Connection

variable {c : Connection} {w w' : World σ}

theorem net_of_abort (hopen : c.line ∉ w.closed) {o : Except Failure Unit}
    (h : (c.abort t).run w = (o, w')) : w'.net = (t.close c.line w.net).2 := by
  rcases hclose : (c.close t).run w with ⟨oc, w₁⟩
  have hnet : w₁.net = (t.close c.line w.net).2 := by
    obtain ⟨hmem, -⟩ | ⟨-, -, rfl⟩ := close_parts hclose
    · exact absurd hmem hopen
    · rfl
  rw [abort, run_bind_of_ok (Action.run_observe hclose)] at h
  split at h <;> cases h <;> exact hnet

theorem net_of_clearDeadline (hopen : c.line ∉ w.closed) {o : Except Failure Unit}
    (h : (c.clearDeadline t).run w = (o, w')) : w'.net = (t.arm c.line none w.net).2 := by
  rw [clearDeadline, run_bind_of_ok (run_isClosed c w), if_neg (by simpa using hopen),
    run_bind_of_ok (Action.run_onNet _ _)] at h
  split at h <;> cases h <;> rfl

/-- A guarded action that leaves the line open is followed by one thing on the network: the line is
closed if there is an error of the driver, and else it is armed with no bound. -/
theorem guarded_net {action : Action σ α} {o : Except Failure α}
    (h : (c.guarded t action).run w = (o, w')) :
    ∃ w₁, action.run w = (o, w₁) ∧ (c.line ∉ w₁.closed →
      (∃ e, o = .error (.driver e)) ∧ c.line ∈ w'.closed ∧ w'.net = (t.close c.line w₁.net).2 ∨
        (∀ e, o ≠ .error (.driver e)) ∧ w'.net = (t.arm c.line none w₁.net).2) := by
  obtain ⟨w₁, w₂, haction, hclear, ⟨ho, habort⟩ | ⟨ho, rfl⟩⟩ := guarded_parts h
  · refine ⟨w₁, haction, fun hopen => .inl ⟨ho, ?_⟩⟩
    obtain ⟨w₂', habort', hmem, -⟩ := abort_net (t := t) c w₁
    cases habort.symm.trans habort'
    cases hclear.symm.trans (run_clearDeadline_closed hmem)
    exact ⟨hmem, net_of_abort hopen habort⟩
  · exact ⟨w₂, haction, fun hopen => .inr ⟨ho, net_of_clearDeadline hopen hclear⟩⟩

theorem closed_subset_of_close {o : Except Failure Unit} (h : (c.close t).run w = (o, w')) :
    w.closed ⊆ w'.closed := by
  obtain ⟨-, -, rfl⟩ | ⟨-, -, rfl⟩ := close_parts h
  · exact List.Subset.refl _
  · exact List.subset_cons_self _ _

theorem closed_subset_of_abort {o : Except Failure Unit} (h : (c.abort t).run w = (o, w')) :
    w.closed ⊆ w'.closed := by
  rcases hclose : (c.close t).run w with ⟨oc, w₁⟩
  have hsubset := closed_subset_of_close hclose
  rw [abort, run_bind_of_ok (Action.run_observe hclose)] at h
  split at h <;> cases h <;> exact hsubset

theorem awaitsFreely_closed (n : Nat) : AwaitsFreely t n World.closed :=
  ⟨fun _ _ => rfl, fun _ _ => rfl, fun _ _ => rfl⟩

theorem closed_subset_of_guarded {action : Action σ α} (ha : Preserves World.closed action)
    {o : Except Failure α} (h : (c.guarded t action).run w = (o, w')) : w.closed ⊆ w'.closed := by
  obtain ⟨w₁, w₂, haction, hclear, hw₂⟩ := guarded_parts h
  have hw₁ : w₁.closed = w.closed := ha.same haction
  have hw' : w'.closed = w₂.closed :=
    (preserves_clearDeadline (awaitsFreely_closed c.line)).same hclear
  rw [hw', ← hw₁]
  obtain ⟨-, habort⟩ | ⟨-, rfl⟩ := hw₂
  · exact closed_subset_of_abort habort
  · exact List.Subset.refl _

variable [Clock τ]

theorem closed_subset_of_execute {query : Query} {timeout : Option τ}
    {o : Except Failure Response} (h : (c.execute t query timeout).run w = (o, w')) :
    w.closed ⊆ w'.closed := by
  by_cases hclosed : c.line ∈ w.closed
  · rw [run_execute_closed hclosed] at h
    cases h
    exact List.Subset.refl _
  · obtain ⟨w₁, hguarded, hw'⟩ := execute_parts hclosed h
    have hsubset := closed_subset_of_guarded
      (preserves_exchange (awaitsFreely_closed c.line) (fun _ _ _ => rfl) query) hguarded
    obtain ⟨-, rfl⟩ | ⟨r, -, rfl⟩ := hw' <;> exact hsubset

theorem closed_subset_of_dial {peer : Endpoint} {timeout : Option τ}
    {o : Except Failure Connection} (h : (dial t peer timeout).run w = (o, w')) :
    w.closed ⊆ w'.closed := by
  obtain ⟨fault, s, e, -, -, rfl⟩ | ⟨n, s, deadline, r, w₁, -, hguarded, hw'⟩ := dial_parts h
  · exact List.Subset.refl _
  · have hwrite : Preserves World.closed (write t ⟨n, peer⟩ deadline handshake) :=
      preserves_writeWithin (fun _ _ => rfl) (fun _ _ _ => rfl) _ _
    have hsubset := closed_subset_of_guarded hwrite hguarded
    obtain ⟨e, -, -, rfl⟩ | ⟨-, -, rfl⟩ := hw' <;> exact hsubset

end Connection

/-- What may happen on a network from one world to a later one: round trips on any connection,
dialing and closing, and whatever leaves it at the lines that the driver has closed. -/
inductive Later [Clock τ] (t : Transport σ τ) : World σ → World σ → Prop
  | here (w : World σ) : Later t w w
  | execute {w w₁ w' : World σ} {c : Connection} {query : Query} {timeout : Option τ}
    {o : Except Failure Response} (hrun : (c.execute t query timeout).run w = (o, w₁))
    (hlater : Later t w₁ w') : Later t w w'
  | dial {w w₁ w' : World σ} {peer : Endpoint} {timeout : Option τ}
    {o : Except Failure Connection} (hrun : (Connection.dial t peer timeout).run w = (o, w₁))
    (hlater : Later t w₁ w') : Later t w w'
  | close {w w₁ w' : World σ} {c : Connection} {o : Except Failure Unit}
    (hrun : (c.close t).run w = (o, w₁)) (hlater : Later t w₁ w') : Later t w w'
  | elsewhere {w w₁ w' : World σ} (hclosed : w₁.closed = w.closed) (hlater : Later t w₁ w') :
    Later t w w'

namespace Later

variable [Clock τ] {w w' : World σ}

/-- A line that was closed stays closed. -/
theorem closed_subset (h : Later t w w') : w.closed ⊆ w'.closed := by
  induction h with
  | here w => exact List.Subset.refl _
  | execute hrun _ ih => exact List.Subset.trans (Connection.closed_subset_of_execute hrun) ih
  | dial hrun _ ih => exact List.Subset.trans (Connection.closed_subset_of_dial hrun) ih
  | close hrun _ ih => exact List.Subset.trans (Connection.closed_subset_of_close hrun) ih
  | elsewhere hclosed _ ih => exact hclosed ▸ ih

/-- A round trip on a line that was closed fails at once, and nothing is done on the network. -/
theorem run_execute (h : Later t w w') {c : Connection} (hclosed : c.line ∈ w.closed)
    (query : Query) (timeout : Option τ) :
    (c.execute t query timeout).run w' = (.error (.ofCause .connectionClosed), w') :=
  Connection.run_execute_closed (h.closed_subset hclosed)

end Later

end QueryDriver.Net
