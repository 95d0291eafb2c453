import QueryDriver.Proofs.Number.Sign
import QueryDriver.Proofs.Session.Pool

/-!
# What can be a timeout

A session takes a timeout when it is made and whenever it is set later on. Nothing at all sets no
bound. A number of seconds or a duration is a bound when it is above zero, and everything else is
refused, which leaves the session as it is.

Two kinds of numbers are beyond that rule. What is no number at all is neither above zero nor at
most zero, and the check lets it pass. And an integer that is too large for a double is refused by
its conversion, before the check.
-/

namespace QueryDriver

namespace Session

/-- The number of seconds that a value stands for, as a double. -/
def secondsOf? : Value → Option Double
  | .double x => some x
  | .int n => Double.ofInt? n
  | .duration d => some d.toSeconds
  | _ => none

/-- What a value comes to as a timeout. -/
inductive Timed (v : Value) : Except Failure (Option Double) → Prop where
  | unbounded (hv : v = .null) : Timed v (.ok none)
  | bounded {x : Double} (hv : secondsOf? v = some x) (hx : x.Positive) : Timed v (.ok (some x))
  | refused {f : Fault} (hv : v ≠ .null) (hfits : ∀ n, v = .int n → n.natAbs < Double.bound)
    (hx : ∀ x, secondsOf? v = some x → ¬ x.Positive) (hkind : f.kind = .type ∨ f.kind = .value) :
    Timed v (.error (.fault f))
  /-- A double that is no number passes. -/
  | undefined {x : Double} (hv : v = .double x) (hx : x.isNaN = true) : Timed v (.ok (some x))
  /-- An integer is too large to be converted. -/
  | tooLarge {n : Int} (hv : v = .int n) (hn : Double.bound ≤ n.natAbs) :
    Timed v (.error (.fault .integerTooLarge))

theorem isNaN_toSeconds (d : Duration) : d.toSeconds.isNaN = false := by
  refine Double.isNaN_of_isFinite ?_
  rw [Duration.toSeconds]
  cases h : Double.ofRatio (d.micros < 0) d.micros.natAbs 1000000 with
  | none => decide
  | some x => exact Double.isFinite_of_ofRatio (by decide) h

/-- A number of seconds that is checked, as it has to be. -/
theorem timed_bound {v : Value} {x : Double} (hv : secondsOf? v = some x) (hnan : x.isNaN = false) :
    Timed v (if x.nonpositive then .error (.fault .timeoutNotPositive) else .ok (some x)) := by
  split
  · rename_i hx
    refine .refused ?_ ?_ (fun y hy hpos => ?_) (.inr rfl)
    · rintro rfl
      cases hv
    · rintro n rfl
      refine Nat.lt_of_not_le fun hn => ?_
      have hnone : Double.ofInt? n = none :=
        (Double.ofRatio_eq_none_iff _ _ _).2 ⟨Nat.one_ne_zero, by rwa [Nat.mul_one]⟩
      cases hnone.symm.trans hv
    · cases hv.symm.trans hy
      cases hx.symm.trans ((Double.positive_iff x).1 hpos).2
  · rename_i hx
    exact .bounded hv ((Double.positive_iff x).2 ⟨hnan, Bool.eq_false_iff.2 hx⟩)

theorem timed_timeoutOf (v : Value) : Timed v (timeoutOf v) := by
  cases v with
  | null => exact .unbounded rfl
  | duration d => exact timed_bound rfl (isNaN_toSeconds d)
  | double x =>
      by_cases hx : x.isNaN = true
      · have hpass : timeoutOf (.double x) = .ok (some x) := by
          simp [timeoutOf, Double.nonpositive, hx]
        rw [hpass]
        exact .undefined rfl hx
      · exact timed_bound rfl (Bool.eq_false_iff.2 hx)
  | int n =>
      rw [timeoutOf]
      cases hn : Double.ofInt? n with
      | none =>
          obtain ⟨-, hbound⟩ := (Double.ofRatio_eq_none_iff _ _ _).1 hn
          rw [Nat.mul_one] at hbound
          exact .tooLarge rfl hbound
      | some x => exact timed_bound hn (Double.isNaN_of_isFinite
          (Double.isFinite_of_ofRatio Nat.one_ne_zero hn))
  | _ =>
      refine .refused ?_ ?_ ?_ (.inl rfl)
      · rintro ⟨⟩
      · rintro n ⟨⟩
      · rintro x ⟨⟩

section Settings

variable {address database timeout maxIdle : Value} {s : Session} {f : Failure}

/-- The fault is that of a value. -/
def IsValueFault (f : Failure) : Prop := ∃ fault, f = .fault fault ∧ fault.kind = .value

theorem isValueFault_of_maxIdleOf (h : maxIdleOf maxIdle = .error f) : IsValueFault f := by
  unfold maxIdleOf at h
  split at h
  · split at h <;> cases h
    exact ⟨_, rfl, rfl⟩
  · cases h
    exact ⟨_, rfl, rfl⟩

theorem isValueFault_of_databaseOf (h : databaseOf database = .error f) : IsValueFault f := by
  unfold databaseOf at h
  split at h
  · split at h <;> cases h
    exact ⟨_, rfl, rfl⟩
  · cases h
    exact ⟨_, rfl, rfl⟩

theorem kind_of_parseAddress {text : String} {port : Nat} {fault : Fault}
    (h : Net.parseAddress text port = .error fault) : fault.kind = .value := by
  unfold Net.parseAddress at h
  split at h
  · cases h
    rfl
  · dsimp only at h
    repeat' split at h
    all_goals cases h
    all_goals rfl

theorem isValueFault_of_addressOf {port : Nat} (h : Net.addressOf address port = .error f) :
    IsValueFault f := by
  unfold Net.addressOf at h
  split at h
  · split at h
    · cases h
    · rename_i hparse
      cases h
      exact ⟨_, rfl, kind_of_parseAddress hparse⟩
  · cases h
    exact ⟨_, rfl, rfl⟩

/-- A session is made with the timeout that the value comes to. -/
theorem timeoutOf_of_ofValues (h : ofValues address database timeout maxIdle = .ok s) :
    timeoutOf timeout = .ok s.timeout := by
  obtain ⟨maxIdle, -, h⟩ := bind_ok h
  obtain ⟨peer, -, h⟩ := bind_ok h
  obtain ⟨database, -, h⟩ := bind_ok h
  obtain ⟨span, hspan, h⟩ := bind_ok h
  cases h
  exact hspan

/-- What is wrong with the other settings of a session is wrong with a value. -/
theorem error_of_ofValues (h : ofValues address database timeout maxIdle = .error f) :
    timeoutOf timeout = .error f ∨ IsValueFault f := by
  obtain h | ⟨maxIdle, -, h⟩ := bind_eq_error_iff.1 h
  · exact .inr (isValueFault_of_maxIdleOf h)
  obtain h | ⟨peer, -, h⟩ := bind_eq_error_iff.1 h
  · exact .inr (isValueFault_of_addressOf h)
  obtain h | ⟨database, -, h⟩ := bind_eq_error_iff.1 h
  · exact .inr (isValueFault_of_databaseOf h)
  obtain h | ⟨span, -, h⟩ := bind_eq_error_iff.1 h
  · exact .inl h
  · cases h

end Settings

end Session

namespace Client

open Net

variable {σ τ : Type} {t : Transport σ τ}

/-- The session with another timeout. -/
def timed (k : Client σ) (span : Option Double) : Client σ :=
  { k with session := { k.session with timeout := span } }

theorem run_setTimeout_ok {v : Value} {span : Option Double} (h : Session.timeoutOf v = .ok span)
    (k : Client σ) : (setTimeout v).run k = (.ok (), k.timed span) := by
  rw [setTimeout, h]
  rfl

theorem run_setTimeout_error {v : Value} {f : Failure} (h : Session.timeoutOf v = .error f)
    (k : Client σ) : (setTimeout v).run k = (.error f, k) := by
  rw [setTimeout, h]
  rfl

/-- To reach the server leaves the timeout alone. -/
theorem timeout_of_connect [Clock τ] (L : Ledger t) {k k' : Client σ} {o : Except Failure Unit}
    (h : (connect t).run k = (o, k')) : k'.session.timeout = k.session.timeout := by
  have hconnected := connect_connected (L := L) h
  generalize k'.session = s' at hconnected ⊢
  generalize k'.account L = a' at hconnected
  cases hconnected with
  | failed => rfl
  | reached c a₁ _ _ hdial hrelease => cases hrelease <;> rfl

variable [Clock τ]

/-- A value that is passed as a timeout comes to one outcome wherever it is passed: a session is
made with it, or it is put in the place of the timeout of a session, or it is refused and the
session is as it was. Accepted are nothing at all, which sets no bound, and numbers above zero; with
one exception, which `Timed` tells, as it tells the other one that is refused otherwise. -/
theorem timeout_of_value (L : Ledger t) (v : Value) : ∃ o, Session.Timed v o ∧
    (∀ k : Client σ, (∀ span, o = .ok span → (setTimeout v).run k = (.ok (), k.timed span)) ∧
      ∀ f, o = .error f → (setTimeout v).run k = (.error f, k)) ∧
    (∀ address database maxIdle,
      (∀ s, Session.ofValues address database v maxIdle = .ok s → o = .ok s.timeout) ∧
        ∀ f, Session.ofValues address database v maxIdle = .error f →
          o = .error f ∨ Session.IsValueFault f) ∧
    ∀ (k k' : Client σ) oc, (connect t).run k = (oc, k') →
      k'.session.timeout = k.session.timeout :=
  ⟨Session.timeoutOf v, Session.timed_timeoutOf v,
    fun k => ⟨fun _ h => run_setTimeout_ok h k, fun _ h => run_setTimeout_error h k⟩,
    fun _ _ _ => ⟨fun _ => Session.timeoutOf_of_ofValues, fun _ => Session.error_of_ofValues⟩,
    fun _ _ _ => timeout_of_connect L⟩

/-- The shortest duration is a timeout, of a session that is made and of one that is there. -/
theorem timeout_of_value_tick : ∃ s, Session.ofValues (.text Session.defaultAddress)
      (.text Session.defaultDatabase) (.duration ⟨1⟩) (.int 5) = .ok s ∧
    Session.Timed (.duration ⟨1⟩) (.ok s.timeout) ∧ ∀ k : Client Script,
      (setTimeout (.duration ⟨1⟩)).run k = (.ok (), k.timed s.timeout) := by
  obtain ⟨o, htimed, hset, hmade, -⟩ :=
    timeout_of_value (t := Script.transport) Script.ledger (.duration ⟨1⟩)
  have hs : Session.ofValues (.text Session.defaultAddress) (.text Session.defaultDatabase)
      (.duration ⟨1⟩) (.int 5) =
        .ok ⟨Session.defaultAddress, ⟨"localhost", 28015⟩, Session.defaultDatabase,
          some (Duration.toSeconds ⟨1⟩), 5, 0, [], false⟩ := rfl
  obtain rfl := (hmade _ _ _).1 _ hs
  exact ⟨_, hs, htimed, fun k => (hset k).1 _ rfl⟩

end Client

end QueryDriver
