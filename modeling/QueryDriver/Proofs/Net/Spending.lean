import QueryDriver.Proofs.Net.RoundTrip
import QueryDriver.Proofs.Net.Supply
import QueryDriver.Proofs.Session.Pool

/-!
# What round trips take from the supply

An action spends a weight when the supply is smaller by at least the weight of its result
afterwards, and not greater when it has failed. Reading spends the bytes that it has read.
A response has at most as many rows as bytes, and a header in front, so a round trip
spends its rows and one byte more. That is why the loops over the rows of a cursor end
before their bounds do.
-/

namespace QueryDriver

open Net Wire

variable {σ τ α β : Type} {t : Transport σ τ}

namespace Wire

theorem length_of_readFieldsWithin {fuel : Nat} {bs : Bytes} {fields : List Field}
    (h : readFieldsWithin fuel bs = some fields) : fields.length ≤ fuel := by
  induction fuel generalizing bs fields with
  | zero =>
      cases bs with
      | nil => cases h; exact Nat.le_refl _
      | cons b bs => cases h
  | succ fuel ih =>
      cases bs with
      | nil => cases h; exact Nat.zero_le _
      | cons b bs =>
          obtain ⟨⟨field, rest⟩, -, h⟩ := Option.bind_eq_some_iff.1 h
          obtain ⟨later, hlater, h⟩ := Option.bind_eq_some_iff.1 h
          cases h
          exact Nat.succ_le_succ (ih hlater)

theorem length_of_mapM {f : α → Option β} {xs : List α} {ys : List β}
    (h : xs.mapM f = some ys) : ys.length = xs.length := by
  induction xs generalizing ys with
  | nil => cases h; rfl
  | cons x xs ih =>
      rw [List.mapM_cons] at h
      obtain ⟨y, -, h⟩ := Option.bind_eq_some_iff.1 h
      obtain ⟨later, hlater, h⟩ := Option.bind_eq_some_iff.1 h
      cases h
      rw [List.length_cons, List.length_cons, ih hlater]

/-- Every row of a response takes a byte at least. -/
theorem Response.length_values_le {bs : Bytes} {r : Response} (h : Response.decode bs = some r) :
    r.values.length ≤ bs.length := by
  obtain ⟨fields, hfields, h⟩ := Option.bind_eq_some_iff.1 h
  obtain ⟨values, hvalues, h⟩ := Option.bind_eq_some_iff.1 h
  obtain ⟨backtrace, -, h⟩ := Option.bind_eq_some_iff.1 h
  cases h
  calc values.length = (blocks 3 fields).length := length_of_mapM hvalues
    _ ≤ fields.length := List.length_filterMap_le _ _
    _ ≤ bs.length := length_of_readFieldsWithin hfields

end Wire

namespace Net

/-- What an outcome weighs. Failures weigh nothing. -/
def weighed (weight : α → Nat) : Except Failure α → Nat
  | .ok x => weight x
  | .error _ => 0

/-- The action takes what its outcome weighs from the supply. -/
def Spends (t : Transport σ τ) (weight : α → Nat) (a : Action σ α) : Prop :=
  ∀ ⦃w : World σ⦄ ⦃o : Except Failure α⦄ ⦃w' : World σ⦄, a.run w = (o, w') →
    t.supply w'.net + weighed weight o ≤ t.supply w.net

namespace Spends

variable {weight : α → Nat}

protected theorem pure {x : α} (h : weight x = 0) : Spends t weight (pure x : Action σ α) := by
  intro w o w' hrun
  cases hrun
  simp [weighed, h]

protected theorem throw (e : Failure) : Spends t weight (throw e : Action σ α) := by
  intro w o w' hrun
  cases hrun
  exact le_rfl

protected theorem get : Spends t (fun _ => 0) (get : Action σ (World σ)) := by
  intro w o w' hrun
  cases hrun
  exact le_rfl

theorem record (e : LogEntry) : Spends t (fun _ => 0) (Action.record e : Action σ Unit) := by
  intro w o w' hrun
  cases hrun
  exact le_rfl

theorem onNet {operation : σ → Except SocketFault α × σ} {weight : Except SocketFault α → Nat}
    (h : ∀ s, t.supply (operation s).2 + weight (operation s).1 ≤ t.supply s) :
    Spends t weight (Action.onNet operation) := by
  intro w o w' hrun
  rw [Action.run_onNet] at hrun
  cases hrun
  exact h w.net

theorem mono {weight' : α → Nat} {a : Action σ α} (h : Spends t weight a)
    (hle : ∀ x, weight' x ≤ weight x) : Spends t weight' a := by
  intro w o w' hrun
  have hspent := h hrun
  cases o with
  | error e => exact hspent
  | ok x => exact (Nat.add_le_add_left (hle x) _).trans hspent

/-- A sequence, whose second part spends what is left to be spent. -/
theorem bind_of {weight' : β → Nat} {a : Action σ α} {f : α → Action σ β} (ha : Spends t weight a)
    (hf : ∀ x w w₁, a.run w = (.ok x, w₁) → Spends t (fun y => weight' y - weight x) (f x)) :
    Spends t weight' (a >>= f) := by
  intro w o w' hrun
  obtain ⟨x, w₁, h₁, h₂⟩ | ⟨e, h₁, rfl⟩ := run_bind_cases hrun
  · have hfirst := ha h₁
    have hsecond := hf x w w₁ h₁ h₂
    cases o with
    | error e =>
        simp only [weighed] at *
        omega
    | ok y =>
        simp only [weighed] at *
        omega
  · exact ha h₁

protected theorem bind {weight' : β → Nat} {a : Action σ α} {f : α → Action σ β}
    (ha : Spends t weight a) (hf : ∀ x, Spends t (fun y => weight' y - weight x) (f x)) :
    Spends t weight' (a >>= f) :=
  ha.bind_of fun x _ _ _ => hf x

/-- A sequence, whose first part spends nothing that counts. -/
theorem andThen {weight' : β → Nat} {a : Action σ α} {f : α → Action σ β}
    (ha : Spends t (fun _ => 0) a) (hf : ∀ x, Spends t weight' (f x)) :
    Spends t weight' (a >>= f) :=
  ha.bind hf

theorem observe {a : Action σ α} (h : Spends t weight a) :
    Spends t (weighed weight) (Action.observe a) := by
  intro w o w' hrun
  rcases ha : a.run w with ⟨oa, w₁⟩
  rw [Action.run_observe ha] at hrun
  cases hrun
  exact h ha

theorem settle (o : Except Failure α) :
    Spends t (fun x => weight x - weighed weight o) (Action.settle o : Action σ α) := by
  intro w o' w' hrun
  rw [Action.run_settle] at hrun
  cases hrun
  cases o <;> simp [weighed]

end Spends

namespace Connection

theorem spends_isClosed (c : Connection) :
    Spends t (fun _ => 0) (c.isClosed : Action σ Bool) := by
  intro w o w' hrun
  cases hrun
  exact le_rfl

theorem spends_close (h : Metered t) (c : Connection) : Spends t (fun _ => 0) (c.close t) := by
  intro w o w' hrun
  obtain ⟨-, rfl, rfl⟩ | ⟨-, rfl, rfl⟩ := close_parts hrun
  · exact le_rfl
  · cases (t.close c.line w.net).1 <;> exact h.close c.line w.net

theorem spends_abort (h : Metered t) (c : Connection) : Spends t (fun _ => 0) (c.abort t) := by
  refine .andThen ((spends_close h c).observe.mono fun _ => Nat.zero_le _) fun o => ?_
  cases o with
  | ok u => exact .pure rfl
  | error e => exact .record _

theorem spends_clearDeadline (h : Metered t) (c : Connection) :
    Spends t (fun _ => 0) (c.clearDeadline t) := by
  refine .andThen (spends_isClosed c) fun closed => ?_
  split
  · exact .pure rfl
  · refine .andThen (.onNet fun s => h.arm c.line none s) fun o => ?_
    cases o with
    | ok u => exact .pure rfl
    | error f => exact .record _

theorem spends_guarded {weight : α → Nat} (h : Metered t) (c : Connection) {action : Action σ α}
    (ha : Spends t weight action) : Spends t weight (c.guarded t action) := by
  refine ha.observe.bind fun o => ?_
  have hend : Spends t (fun x => weight x - weighed weight o) (do
      c.clearDeadline t
      Action.settle o : Action σ α) :=
    (spends_clearDeadline h c).andThen fun _ => .settle o
  rcases o with (e | f) | x
  · exact (spends_abort h c).andThen fun _ => hend
  · exact hend
  · exact hend

theorem spends_arm (h : Metered t) (c : Connection) (span : Option τ) :
    Spends t (fun _ => 0) (c.arm t span) := by
  refine .andThen (.onNet fun s => h.arm c.line span s) fun o => ?_
  cases o with
  | ok u => exact .pure rfl
  | error f => exact .throw _

variable [Clock τ]

theorem spends_applyDeadline (h : Metered t) (c : Connection) (deadline : Option τ) :
    Spends t (fun _ => 0) (c.applyDeadline t deadline) := by
  cases deadline with
  | none => exact spends_arm h c none
  | some d =>
      refine .andThen .get fun w => ?_
      dsimp only
      split
      · exact .andThen (.throw _) fun _ => spends_arm h c _
      · exact spends_arm h c _

theorem spends_writeWithin (h : Metered t) (c : Connection) (deadline : Option τ) (fuel : Nat)
    (data : Bytes) : Spends t (fun _ => 0) (c.writeWithin t deadline fuel data) := by
  induction fuel generalizing data with
  | zero => cases data <;> exact .pure rfl
  | succ fuel ih =>
      cases data with
      | nil => exact .pure rfl
      | cons b bs =>
          refine .andThen (spends_applyDeadline h c deadline) fun _ => ?_
          refine .andThen (.onNet fun s => h.send c.line b bs s) fun o => ?_
          rcases o with (_ | text) | accepted
          · exact .throw _
          · exact .throw _
          · exact ih _

/-- Reading spends what is read beyond the bytes that were there. -/
theorem spends_readWithin (h : Metered t) (c : Connection) (deadline : Option τ)
    (frameStart : Bool) (fuel missing : Nat) (got : Bytes) :
    Spends t (fun bs => bs.length - got.length)
      (c.readWithin t deadline frameStart fuel missing got) := by
  induction fuel generalizing missing got with
  | zero => cases missing <;> exact .pure (Nat.sub_self _)
  | succ fuel ih =>
      cases missing with
      | zero => exact .pure (Nat.sub_self _)
      | succ missing =>
          refine .andThen (spends_applyDeadline h c deadline) fun _ => ?_
          refine Spends.bind (.onNet fun s => h.receive c.line (missing + 1) s) fun o => ?_
          rcases o with (_ | text) | ⟨_ | ⟨b, bs⟩, hlength⟩
          · exact .throw _
          · exact .throw _
          · dsimp only
            split <;> exact .throw _
          · refine (ih _ (got ++ b :: bs)).mono fun all => ?_
            simp only [brought, List.length_append]
            omega

theorem length_of_readWithin {c : Connection} {deadline : Option τ} {frameStart : Bool}
    {fuel missing : Nat} {got bs : Bytes} {w w' : World σ} (hfuel : missing ≤ fuel)
    (h : (c.readWithin t deadline frameStart fuel missing got).run w = (.ok bs, w')) :
    bs.length = got.length + missing := by
  induction fuel generalizing missing got w with
  | zero =>
      obtain rfl : missing = 0 := Nat.le_zero.1 hfuel
      cases h
      rfl
  | succ fuel ih =>
      cases missing with
      | zero =>
          cases h
          rfl
      | succ missing =>
          obtain ⟨u, w₁, -, h⟩ | ⟨e, -, he⟩ := run_bind_cases h
          · obtain ⟨o, w₂, -, h⟩ | ⟨e, -, he⟩ := run_bind_cases h
            · rcases o with (_ | text) | ⟨_ | ⟨b, chunk⟩, hlength⟩
              · cases h
              · cases h
              · dsimp only at h
                split at h <;> cases h
              · have hbs := ih (by simp only [List.length_cons]; omega) h
                simp only [List.length_append, List.length_cons] at hbs hlength
                omega
            · cases he
          · cases he

theorem spends_readPayload (h : Metered t) (c : Connection) (deadline : Option τ) (size : Nat) :
    Spends t (fun r => r.values.length) (c.readPayload t deadline size) := by
  refine (spends_readWithin h c deadline false size size []).bind fun payload => ?_
  split
  · rename_i r hdecode
    have hlength := Response.length_values_le hdecode
    exact .pure (by simp only [List.length_nil]; omega)
  · exact .throw _

/-- Reading a response spends its rows and a header. -/
theorem spends_readResponse (h : Metered t) (c : Connection) (deadline : Option τ) :
    Spends t (fun r => r.values.length + 1) (c.readResponse t deadline) := by
  refine (spends_readWithin h c deadline true _ _ []).bind_of fun header w w₁ hrun => ?_
  have hlength : header.length = headerSize := by
    rw [length_of_readWithin le_rfl hrun]
    rfl
  have hpayload (size : Nat) : Spends t
      (fun r => r.values.length + 1 - (header.length - ([] : Bytes).length))
      (c.readPayload t deadline size) := by
    refine (spends_readPayload h c deadline size).mono fun r => ?_
    simp only [hlength, headerSize, List.length_nil]
    omega
  refine .andThen .get fun w => ?_
  dsimp only
  split
  · exact .andThen (.throw _) fun _ => hpayload _
  · exact hpayload _

theorem spends_awaitWithin (h : Metered t) (c : Connection) (deadline : Option τ) (token : Int64)
    (fuel : Nat) :
    Spends t (fun r => r.values.length + 1) (c.awaitWithin t deadline token fuel) := by
  induction fuel with
  | zero => exact .throw _
  | succ fuel ih =>
      refine (spends_readResponse h c deadline).bind fun r => ?_
      split
      · refine .andThen (.record _) fun _ => ih.mono fun r => Nat.sub_le _ _
      · split
        · exact .throw _
        · exact .pure (Nat.sub_self _)

theorem spends_exchange (h : Metered t) (c : Connection) (query : Query) (deadline : Option τ) :
    Spends t (fun r => r.values.length + 1) (c.exchange t query deadline) := by
  refine .andThen .get fun w => ?_
  dsimp only
  split
  · exact .throw _
  · refine .andThen (spends_writeWithin h c deadline _ _) fun _ => ?_
    exact .andThen .get fun w => spends_awaitWithin h c deadline _ _

/-- A round trip spends the rows of its answer and one byte more. -/
theorem spends_execute (h : Metered t) (c : Connection) (query : Query) (timeout : Option τ) :
    Spends t (fun r => r.values.length + 1) (c.execute t query timeout) := by
  have hround : Spends t (fun r => r.values.length + 1) (do
      let deadline ← deadlineFrom t timeout
      Action.record (.sending c.line c.peer query)
      let r ← c.guarded t (c.exchange t query deadline)
      Action.record (.received c.line c.peer r)
      return r : Action σ Response) := by
    refine .andThen (.andThen .get fun w => .pure rfl) fun deadline => ?_
    refine .andThen (.record _) fun _ => ?_
    refine (spends_guarded h c (spends_exchange h c query deadline)).bind fun r => ?_
    exact .andThen (.record _) fun _ => .pure (Nat.sub_self _)
  refine .andThen (spends_isClosed c) fun closed => ?_
  dsimp only
  split
  · exact .andThen (.throw _) fun _ => hround
  · exact hround

end Connection

end Net

namespace Client

theorem supply_discard_le (h : Metered t) {c : Connection} {k k' : Client σ}
    {o : Except Failure Unit} (hrun : (discard t c).run k = (o, k')) :
    t.supply k'.world.net ≤ t.supply k.world.net := by
  rcases hclose : (c.close t).run k.world with ⟨oc, w⟩
  have hclosed := (Connection.spends_close h c).mono (fun _ => Nat.zero_le _) hclose
  rw [discard, run_bind_of_ok (Action.run_observe (Action.run_onWorld hclose))] at hrun
  cases oc with
  | ok u =>
      cases hrun
      exact hclosed
  | error e =>
      cases hrun
      exact hclosed

theorem supply_release_le (h : Metered t) {c : Connection} {k k' : Client σ}
    {o : Except Failure Unit} (hrun : (release t c).run k = (o, k')) :
    t.supply k'.world.net ≤ t.supply k.world.net := by
  rw [release, run_bind_of_ok (Action.run_onWorld (Connection.run_isClosed c k.world))] at hrun
  split at hrun
  · cases hrun
    exact le_rfl
  · rw [run_bind_of_ok (Action.run_session _)] at hrun
    split at hrun
    · cases hrun
      exact le_rfl
    · obtain ⟨u, k₁, hrecord, hrun⟩ | ⟨e, hrecord, -⟩ := run_bind_cases hrun
      · have hdiscard := supply_discard_le h hrun
        cases hrecord
        exact hdiscard
      · cases hrecord

variable [Clock τ]

theorem supply_roundTrip_le (h : Metered t) {c : Connection} {query : Query} {k k' : Client σ}
    {r : Response} (hrun : (roundTrip t c query).run k = (.ok r, k')) :
    t.supply k'.world.net + (r.values.length + 1) ≤ t.supply k.world.net := by
  rw [roundTrip, run_bind_of_ok (Action.run_session k)] at hrun
  rcases hexecute : (c.execute t query
    (k.session.timeout.map Clock.ofSeconds)).run k.world with ⟨o, w⟩
  rw [Action.run_onWorld hexecute] at hrun
  cases hrun
  exact Connection.spends_execute h c query _ hexecute

end Client

end QueryDriver
