import QueryDriver.Proofs.Lowering.Refusal

/-!
# Calls of callables

An operator hands a callable as many placeholders as the callable requires, and one that takes
any number of them as many as the operator asks for. That number is all that the compiler knows
of a signature before it calls. It is not all that a call needs: a parameter that is given by
keyword and has no default is never counted, and a callable that takes any number may still
require some of them. `Signature.Counted` says that neither is the case. Under it a callable
is called only if the call binds; without it the call itself fails.
-/

namespace QueryDriver

open Wire

/-! ### Signatures -/

namespace Signature

/-- A call with `n` placeholders binds: they are enough, there is room for all of them, and
nothing has to be given by keyword. -/
structure Binds (s : Signature) (n : Nat) : Prop where
  enough : s.required.length ≤ n
  room : s.variadic = true ∨ n ≤ s.required.length + s.defaulted.length
  keyword : s.keywordOnly = []

/-- A hint leaves the number of placeholders to the callable, or it asks for the number that
the callable requires. -/
def Agrees (s : Signature) (n : Int) : Prop :=
  s.variadic = true ∨ n = -1 ∨ n = s.required.length

instance (s : Signature) (n : Int) : Decidable (s.Agrees n) := by
  unfold Agrees
  infer_instance

/-- How many placeholders the callable is called with under a hint. -/
def passed (s : Signature) (n : Int) : Nat := s.arity?.getD n.toNat

/-- Some number of placeholders that the hint asks for makes a call that binds. -/
def Callable (s : Signature) (n : Int) : Prop := ∃ k : Nat, (n = -1 ∨ n = k) ∧ s.Binds k

/-- The number of placeholders under a hint is all that a call depends on. -/
structure Counted (s : Signature) (n : Int) : Prop where
  keyword : s.keywordOnly = []
  required : s.variadic = true → s.required.length ≤ n.toNat

variable {s : Signature} {n : Int}

theorem arity?_of_variadic (h : s.variadic = true) : s.arity? = none := by simp [arity?, h]

theorem arity?_of_fixed (h : s.variadic = false) : s.arity? = some s.required.length := by
  simp [arity?, h]

theorem passed_of_variadic (h : s.variadic = true) : s.passed n = n.toNat := by
  rw [passed, arity?_of_variadic h]
  rfl

theorem passed_of_fixed (h : s.variadic = false) : s.passed n = s.required.length := by
  rw [passed, arity?_of_fixed h]
  rfl

theorem binds_passed_iff : s.Binds (s.passed n) ↔ s.Counted n := by
  cases hvariadic : s.variadic with
  | true =>
      rw [passed_of_variadic hvariadic]
      exact ⟨fun h => ⟨h.keyword, fun _ => h.enough⟩,
        fun h => ⟨h.required hvariadic, .inl hvariadic, h.keyword⟩⟩
  | false =>
      rw [passed_of_fixed hvariadic]
      refine ⟨fun h => ⟨h.keyword, fun htrue => ?_⟩,
        fun h => ⟨le_rfl, .inr (Nat.le_add_right _ _), h.keyword⟩⟩
      rw [hvariadic] at htrue
      cases htrue

/-- A hint that agrees with a callable asks for the number of placeholders that it is called
with. -/
theorem Agrees.callable (hn : -1 ≤ n) (hagrees : s.Agrees n) (hcounted : s.Counted n) :
    s.Callable n := by
  refine ⟨s.passed n, ?_, binds_passed_iff.2 hcounted⟩
  cases hvariadic : s.variadic with
  | true =>
      rw [passed_of_variadic hvariadic]
      omega
  | false =>
      rw [passed_of_fixed hvariadic]
      obtain htrue | hany | hequal := hagrees
      · rw [hvariadic] at htrue
        cases htrue
      · exact .inl hany
      · exact .inr hequal

/-- A call binds, or it fails because it has the wrong arguments. -/
theorem admits_cases (s : Signature) (callee : String) (n : Nat) :
    (s.admits callee n = .ok () ∧ s.Binds n) ∨
      ∃ fault, s.admits callee n = .error fault ∧ fault.kind = .type ∧ ¬s.Binds n := by
  unfold admits
  dsimp only
  split
  case isTrue hmany =>
    simp only [Bool.not_eq_true', Bool.eq_false_iff] at hmany
    refine .inr ⟨_, rfl, rfl, fun h => ?_⟩
    have := h.room.resolve_left hmany.1
    omega
  case isFalse hroom =>
    split
    case isTrue hfew =>
      refine .inr ⟨_, rfl, rfl, fun h => ?_⟩
      have := h.enough
      omega
    case isFalse henough =>
      split
      case isTrue hkeyword =>
        refine .inl ⟨rfl, by omega, ?_, List.isEmpty_iff.1 hkeyword⟩
        cases hvariadic : s.variadic with
        | true => exact .inl rfl
        | false =>
            refine .inr (Nat.le_of_not_lt fun hmany => hroom ⟨?_, hmany⟩)
            rw [hvariadic]
            rfl
      case isFalse hkeyword =>
        exact .inr ⟨_, rfl, rfl, fun h => hkeyword (List.isEmpty_iff.2 h.keyword)⟩

end Signature

/-! ### Hints -/

namespace Value

/-- The number that a hint is. -/
def integer? : Value → Option Int
  | .int n => some n
  | .bool b => some (if b then 1 else 0)
  | _ => none

variable {hint : Value} {n : Int}

theorem isInteger_of_integer? (h : hint.integer? = some n) : hint.IsInteger := by
  cases hint with
  | int m => exact .inl ⟨m, rfl⟩
  | bool b => exact .inr ⟨b, rfl⟩
  | _ => cases h

theorem isInt_int (a b : Int) : (Value.int a).isInt b = decide (a = b) := by
  change (Magnitude.finiteOrder a 1 0 b 1 0).isEq = _
  rw [Magnitude.finiteOrder_ofInt, Magnitude.orderOf]
  by_cases hlt : a < b
  · simp [hlt, hlt.ne]
  · by_cases hgt : b < a
    · simp [hlt, hgt, hgt.ne']
    · simp [show a = b by omega]

theorem equalsInt_of_integer? (h : hint.integer? = some n) (m : Int) :
    hint.equalsInt m = .ok (decide (n = m)) := by
  rw [← isInt_int]
  cases hint with
  | int =>
      cases h
      rfl
  | bool b =>
      cases h
      cases b <;> rfl
  | _ => cases h

theorem parameterCount_of_integer? (h : hint.integer? = some n) :
    hint.parameterCount = .ok n.toNat := by
  cases hint with
  | int =>
      cases h
      exact parameterCount_int n
  | bool b =>
      cases h
      cases b <;> decide
  | _ => cases h

end Value

theorem Face.arity_eq {face : Face} {s : Signature} (hs : face.signature = .ok s) :
    face.arity = .ok s.arity? := by
  rw [arity, hs]

/-- How many parameters a callable has is all that the compiler makes of its signature. -/
theorem parametersOf_of_integer {face : Face} {s : Signature} (hs : face.signature = .ok s)
    {hint : Value} {n : Int} (hn : hint.integer? = some n) {shown : String}
    (hshown : hint.display = .ok shown) :
    parametersOf face hint = if s.Agrees n then .ok (s.passed n)
      else .error (.ofCause (.wrongArity shown s.required.length)) := by
  unfold parametersOf
  rw [Face.arity_eq hs]
  cases hvariadic : s.variadic with
  | true =>
      rw [Signature.arity?_of_variadic hvariadic, if_pos (.inl hvariadic),
        Signature.passed_of_variadic hvariadic, Value.parameterCount_of_integer? hn]
      rfl
  | false =>
      have hagrees : agrees hint s.required.length = .ok (decide (s.Agrees n)) := by
        have hiff : s.Agrees n ↔ n = -1 ∨ n = s.required.length := by
          simp [Signature.Agrees, hvariadic]
        rw [agrees, Value.equalsInt_of_integer? hn, Value.equalsInt_of_integer? hn,
          decide_eq_decide.2 hiff, Bool.decide_or]
      rw [Signature.arity?_of_fixed hvariadic, Signature.passed_of_fixed hvariadic]
      change (agrees hint s.required.length >>= fun agree =>
        if agree = true then pure s.required.length
        else hint.display >>= fun expected =>
          throw (.ofCause (.wrongArity expected s.required.length))) = _
      rw [hagrees, hshown]
      change (if decide (s.Agrees n) = true then _ else _) = _
      simp only [decide_eq_true_eq]
      rfl

/-! ### Calls -/

/-- The state of a compilation that has called a callable with `count` placeholders. -/
def Face.afterCall (face : Face) (count : Nat) (p : Progress) : Progress :=
  { p with next := p.next + count, calls := p.calls + if face.isCounted then 1 else 0 }

/-- What becomes of a callable under a hint. `result` is the term of what the callable returns
for the numbers of its placeholders, so only `called` is about a callable that has been called:
with fresh placeholders, in a call that binds. A callable that is refused leaves no trace. -/
inductive Treated (face : Face) (hint : Value) (n : Int) (result : List Nat → Lowering Term)
    (p : Progress) : Except Failure Term × Progress → Prop where
  | hidden {reason : String} (hs : face.signature = .error reason) :
      Treated face hint n result p (.error (.ofCause (.uninspectable face.shown reason)), p)
  | refused {s : Signature} {shown : String} (hs : face.signature = .ok s) (h : ¬s.Agrees n)
      (hshown : hint.display = .ok shown) :
      Treated face hint n result p (.error (.ofCause (.wrongArity shown s.required.length)), p)
  | called {s : Signature} {params : List Nat} (hs : face.signature = .ok s) (h : s.Agrees n)
      (hparams : params = List.range' p.next (s.passed n)) (hcounted : s.Counted n)
      (hbinds : s.Binds params.length) :
      Treated face hint n result p
        ((functionTerm params <$> result params).run (face.afterCall params.length p))
  | unbound {s : Signature} {fault : Fault} (hs : face.signature = .ok s) (h : s.Agrees n)
      (hcounted : ¬s.Counted n) (hfault : fault.kind = .type) :
      Treated face hint n result p (.error (.fault fault), { p with next := p.next + s.passed n })

section Call

variable {face : Face} {s : Signature} {hint : Value} {n : Int}

/-- A callable that agrees with its hint is called, if the call binds. -/
theorem run_lowerCallable_of_agrees (hs : face.signature = .ok s)
    (hcount : parametersOf face hint = .ok (s.passed n)) (h : s.Agrees n)
    (result : List Nat → Lowering Term) (p : Progress) :
    Treated face hint n result p ((lowerCallable face hint result).run p) := by
  have hnumbers : (Lowering.takeVariables (s.passed n)).run p =
      (.ok (List.range' p.next (s.passed n)), { p with next := p.next + s.passed n }) := rfl
  unfold lowerCallable
  rw [hcount, liftM_ok_bind, run_bind_of_ok hnumbers]
  obtain ⟨hok, hbinds⟩ | ⟨fault, herror, htype, hbinds⟩ :=
    s.admits_cases face.callee (s.passed n)
  · have hadmits : face.admits (s.passed n) = .ok () := by simp only [Face.admits, hs, hok]
    rw [hadmits, liftM_ok_bind, run_bind_of_ok (run_countCall face _)]
    have hlength : (List.range' p.next (s.passed n)).length = s.passed n := List.length_range'
    have hcalled : s.Binds (List.range' p.next (s.passed n)).length := hlength.symm ▸ hbinds
    have htreated : Treated face hint n result p _ :=
      .called hs h rfl (Signature.binds_passed_iff.1 hbinds) hcalled
    rw [hlength] at htreated
    exact htreated
  · have hadmits : face.admits (s.passed n) = .error (.fault fault) := by
      simp only [Face.admits, hs, herror]
    rw [hadmits]
    exact .unbound hs h (fun hcounted => hbinds (Signature.binds_passed_iff.2 hcounted)) htype

theorem treated_lowerCallable (face : Face) (hhint : hint.integer? = some n)
    (result : List Nat → Lowering Term) (p : Progress) :
    Treated face hint n result p ((lowerCallable face hint result).run p) := by
  cases hs : face.signature with
  | error reason =>
      have hhidden : parametersOf face hint =
          .error (.ofCause (.uninspectable face.shown reason)) := by
        rw [parametersOf, Face.arity, hs]
        rfl
      rw [lowerCallable, hhidden]
      exact .hidden hs
  | ok s =>
      obtain ⟨shown, hshown⟩ := (Value.isInteger_of_integer? hhint).display_ok
      have hcount := parametersOf_of_integer hs hhint hshown
      by_cases hagrees : s.Agrees n
      · rw [if_pos hagrees] at hcount
        exact run_lowerCallable_of_agrees hs hcount hagrees result p
      · rw [if_neg hagrees] at hcount
        rw [lowerCallable, hcount]
        exact .refused hs hagrees hshown

end Call

/-- Nothing that is known of the callable tells how to call it under a hint: it shows no
signature, or one that no number of placeholders binds. -/
def Face.Uncallable (face : Face) (n : Int) : Prop :=
  ∀ s, face.signature = .ok s → s.Counted n ∧ ¬s.Callable n

theorem Face.Uncallable.not_agrees {face : Face} {s : Signature} {n : Int} (hn : -1 ≤ n)
    (h : face.Uncallable n) (hs : face.signature = .ok s) : ¬s.Agrees n := by
  intro hagrees
  obtain ⟨hcounted, huncallable⟩ := h s hs
  exact huncallable (hagrees.callable hn hcounted)

/-- Such a callable is refused, the same way whatever it would return. -/
theorem Face.Uncallable.refused {face : Face} {hint : Value} {n : Int} {shown : String}
    (hn : -1 ≤ n) (h : face.Uncallable n) (hshown : hint.display = .ok shown) :
    ∃ e : DriverError, e.IsRefusal ∧ ∀ result p o, Treated face hint n result p o →
      o = (.error (.driver e), p) := by
  cases hs : face.signature with
  | error reason =>
      refine ⟨.ofCause (.uninspectable face.shown reason),
        DriverError.isRefusal_ofCause (.inl rfl), fun result p o ho => ?_⟩
      cases ho with
      | hidden hs' =>
          cases hs.symm.trans hs'
          rfl
      | refused hs' => cases hs.symm.trans hs'
      | called hs' => cases hs.symm.trans hs'
      | unbound hs' => cases hs.symm.trans hs'
  | ok s =>
      refine ⟨.ofCause (.wrongArity shown s.required.length),
        DriverError.isRefusal_ofCause (.inl rfl), fun result p o ho => ?_⟩
      cases ho with
      | hidden hs' => cases hs.symm.trans hs'
      | refused hs' _ hshown' =>
          cases hs.symm.trans hs'
          cases hshown.symm.trans hshown'
          rfl
      | called hs' hagrees => exact absurd hagrees (h.not_agrees hn hs')
      | unbound hs' hagrees => exact absurd hagrees (h.not_agrees hn hs')

namespace Value

/-- Under a hint a callable is refused unseen, or it is called with fresh placeholders in a call
that binds, or else its signature has parameters that were not counted and the call fails. Where
all of them are counted and no number of placeholders that the hint asks for binds, it is
refused. -/
theorem lowerFunction_func {face : Face} (htype : face.isType = false) {hint : Value} {n : Int}
    (hhint : hint.integer? = some n) (hn : -1 ≤ n) :
    (∀ body c p, Treated face hint n
      (fun params => lowerResult (operandWithin optionNesting) (body params) c) p
      (((Value.func face body).lowerFunction hint c).run p)) ∧
    (face.Uncallable n → ∃ e : DriverError, e.IsRefusal ∧ ∀ body c p,
      ((Value.func face body).lowerFunction hint c).run p = (.error (.driver e), p)) := by
  have htreated (body : List Nat → Except Failure Value) (c : Scope) (p : Progress) :
      Treated face hint n
        (fun params => lowerResult (operandWithin optionNesting) (body params) c) p
        (((Value.func face body).lowerFunction hint c).run p) := by
    have hcall : (Value.func face body).lowerFunction hint c = lowerCallable face hint
        fun params => lowerResult (operandWithin optionNesting) (body params) c :=
      asFunction_func htype hint c
    rw [hcall]
    exact treated_lowerCallable face hhint _ p
  refine ⟨htreated, fun h => ?_⟩
  obtain ⟨shown, hshown⟩ := (isInteger_of_integer? hhint).display_ok
  obtain ⟨e, he, hrefused⟩ := h.refused hn hshown
  exact ⟨e, he, fun body c p => hrefused _ p _ (htreated body c p)⟩

/-- A callable of one parameter and a second one that has a default. -/
def oneOrTwo : Face := .function Face.anonymous ⟨["x"], ["y"], false, []⟩

theorem uncallable_oneOrTwo : oneOrTwo.Uncallable 3 := by
  intro s hs
  cases hs
  refine ⟨⟨rfl, nofun⟩, ?_⟩
  rintro ⟨k, hk, hbinds⟩
  have : k ≤ 2 := hbinds.room.resolve_left nofun
  omega

/-- It is refused where three parameters are asked for. -/
theorem lowerFunction_oneOrTwo :
    oneOrTwo.isType = false ∧ (Value.int 3).integer? = some 3 ∧ (-1 : Int) ≤ 3 ∧
    (∀ body c p, Treated oneOrTwo (.int 3) 3
      (fun params => lowerResult (operandWithin optionNesting) (body params) c) p
      (((Value.func oneOrTwo body).lowerFunction (.int 3) c).run p)) ∧
    ∃ e : DriverError, e.IsRefusal ∧ ∀ body c p,
      ((Value.func oneOrTwo body).lowerFunction (.int 3) c).run p = (.error (.driver e), p) := by
  have hhint : (Value.int 3).integer? = some 3 := rfl
  obtain ⟨htreated, hrefused⟩ :=
    lowerFunction_func (show oneOrTwo.isType = false from rfl) hhint (by decide)
  exact ⟨rfl, rfl, by decide, htreated, hrefused uncallable_oneOrTwo⟩

/-- A callable that requires two and takes any number is called with one where one is asked
for. -/
example (body : List Nat → Except Failure Value) (c : Scope) (p : Progress) :
    (((Value.func (.function "f" ⟨["x", "y"], [], true, []⟩) body).lowerFunction (.int 1) c).run
      p).1 = .error (.fault (.missing Face.anonymous false ["y"])) := rfl

end Value

end QueryDriver
