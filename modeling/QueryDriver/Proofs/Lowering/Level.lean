import QueryDriver.Proofs.Lowering.Calling
import QueryDriver.Proofs.Rendering.Spelling

/-!
# Values that agree

Two values agree if they compile alike in every scope: from the same number they come to the same
term, or fail alike, and hand out as many numbers. The callables in them may be called differently
often. Values agree that are put together alike from values that agree.
-/

namespace QueryDriver

open Wire Lowering

/-- Two compilations have handed out as many numbers, and have met the same time format. They may
have called callables differently often. -/
structure Progress.Level (p q : Progress) : Prop where
  next : p.next = q.next
  timeFormat : p.timeFormat = q.timeFormat

theorem level_countCall (face face' : Face) :
    Parallel Progress.Level Eq (countCall face) (countCall face') := by
  intro p q hpq
  rw [run_countCall, run_countCall]
  exact ⟨.ok rfl, hpq.next, hpq.timeFormat⟩

theorem simulation_level : Simulation Progress.Level (fun _ => Eq) Eq :=
  .of_eq (fun count p q hpq => ⟨.ok (by rw [hpq.next]), congrArg (· + count) hpq.next,
    hpq.timeFormat⟩) fun face => level_countCall face face

theorem level_noteSetting (s : Setting) (v : Value) :
    Parallel Progress.Level Eq (noteSetting s v) (noteSetting s v) := by
  intro p q hpq
  rw [run_noteSetting, run_noteSetting, hpq.timeFormat]
  refine ⟨.ok rfl, ?_⟩
  dsimp only
  split
  · exact ⟨hpq.next, rfl⟩
  · exact hpq

namespace Value

variable {operand : Value → Operand}

/-- Two values compile alike in every scope and at every depth. -/
def Agree (operand : Value → Operand) (v w : Value) : Prop :=
  ∀ c : Scope, c.Typed → ∀ depth,
    Parallel Progress.Level Eq (lowerAt operand v depth c) (lowerAt operand w depth c)

theorem agree_atom {v : Value} (hplain : v.isContainer = false)
    (hlower : ∀ c depth, lowerAt operand v depth c =
      (checkLiteralDepth depth >>= fun _ => liftM (v.marshal 0))) : Agree operand v v := by
  intro c _ depth
  rw [hlower]
  exact (parallel_checkLiteralDepth depth).bind fun _ _ _ =>
    parallel_liftM (simulation_level.marshal hplain)

theorem agree_list {items items' : List Value} (h : List.Forall₂ (Agree operand) items items') :
    Agree operand (.list items) (.list items') := by
  intro c hc depth
  exact (parallel_checkLiteralDepth depth).bind fun _ _ _ =>
    simulation_level.lowerItems (h.imp fun _ _ hvw => hvw c hc _)

theorem agree_dict {entries entries' : List (Value × Value)}
    (h : List.Forall₂ (fun e f => e.1 = f.1 ∧ Agree operand e.2 f.2) entries entries') :
    Agree operand (.dict entries) (.dict entries') := by
  intro c hc depth
  refine (parallel_checkLiteralDepth depth).bind fun _ _ _ =>
    simulation_level.lowerEntries (h.imp fun e f hef => ⟨?_, hef.2 c hc _⟩)
  rw [hef.1]
  unfold literalKey
  split
  · exact parallel_pure rfl
  · exact parallel_throw _

theorem agree_literal {v w : Value} (h : Agree operand v w) :
    Agree operand (.expr .literal [v]) (.expr .literal [w]) := by
  intro c hc depth
  exact (parallel_checkLiteralDepth depth).bind fun _ _ _ => h c hc 0

theorem agree_setting {s : Setting} {inner inner' value : Value} (hvalue : s.Admits value)
    (h : Agree operand inner inner') :
    Agree operand (.expr (.setting s) [inner, value]) (.expr (.setting s) [inner', value]) := by
  intro c hc depth
  refine (parallel_checkLiteralDepth depth).bind fun _ _ _ => ?_
  simp only [operands_eq_map, List.map_cons, List.map_nil, lowerNode_setting]
  exact (level_noteSetting s value).bind fun _ _ _ => h _ (hc.set hvalue) 0

/-! ### Functions -/

/-- A callable is called with as many placeholders as it is rendered with. -/
theorem parametersOf_int {face : Face} {k : Int} {count : Nat} (hk : -1 ≤ k)
    (h : face.placeholders (.int k) = .ok count) : parametersOf face (.int k) =
      if k = -1 ∨ k = count then .ok count
      else .error (.ofCause (.wrongArity (toString k) count)) := by
  have hdisplay : (Value.int k).display = .ok (toString k) := by
    simp only [display, sketch, Sketch.leaf, Sketch.of]
    rfl
  unfold Face.placeholders at h
  cases hs : face.signature with
  | error reason =>
      rw [Face.arity, hs] at h
      cases h
  | ok s =>
      rw [Face.arity_eq hs] at h
      rw [parametersOf_of_integer hs rfl hdisplay]
      cases hvariadic : s.variadic with
      | true =>
          rw [Signature.arity?_of_variadic hvariadic, parameterCount_int] at h
          cases h
          rw [if_pos (.inl hvariadic), if_pos (by omega), Signature.passed_of_variadic hvariadic]
      | false =>
          rw [Signature.arity?_of_fixed hvariadic] at h
          cases h
          rw [Signature.passed_of_fixed hvariadic]
          simp only [Signature.Agrees, hvariadic, Bool.false_eq_true, false_or]

theorem lowerAt_function (body : Value) (k : Int) (depth : Int) (c : Scope) :
    lowerAt operand (.expr .func [body, .int k]) depth c = (checkLiteralDepth depth >>= fun _ =>
      (operandBy operand body).asFunction (.int k) c) := rfl

theorem isApplied_eq_false {v : Value} (h : v.isFunction = false) : v.isApplied = false := by
  cases v <;> first | rfl | cases h

/-- What a callable returns is below the callable, by itself or as a function. -/
theorem below_result {face : Face} {run : List Nat → Except Failure Value} {j : Int} {v x : Value}
    (hv : v = .func face run ∧ j = -1 ∨ v = .expr .func [.func face run, .int j])
    (hx : ∃ ps, run ps = .ok x) : Below x v := by
  obtain ⟨ps, hx⟩ := hx
  obtain ⟨rfl, -⟩ | rfl := hv
  · exact .single (.result hx)
  · exact .tail (.single (.result hx)) (.argument List.mem_cons_self)

/-- A callable is compiled as a function of any number of parameters. -/
theorem lowerAt_callable {face : Face} {run : List Nat → Except Failure Value} {j : Int} {v : Value}
    (hv : v = .func face run ∧ j = -1 ∨ v = .expr .func [.func face run, .int j])
    (htype : face.isType = false) :
    lowerAt operand v = lowerAt operand (.expr .func [.func face run, .int j]) := by
  obtain ⟨rfl, rfl⟩ | rfl := hv
  · funext depth c
    rw [lowerAt_function, asFunction_func htype, lowerAt, htype]
    rfl
  · rfl

/-- Callables that ask for as many parameters and whose results agree. -/
theorem level_lowerCallable {face face' : Face} {run run' : List Nat → Except Failure Value}
    {k j i : Int} {count : Nat} (hj : -1 ≤ j) (hi : -1 ≤ i) (htakes : Takes k j count)
    (htakes' : Takes k i count) (hcount : face.placeholders (.int j) = .ok count)
    (hcount' : face'.placeholders (.int i) = .ok count) (hadmits : face.admits count = .ok ())
    (hadmits' : face'.admits count = .ok ()) {c : Scope} (hc : c.Typed)
    (h : ∀ first, ∃ v w, run (List.range' first count) = .ok v ∧
      run' (List.range' first count) = .ok w ∧ v.isNull = w.isNull ∧ Agree operand v w) :
    Parallel Progress.Level Eq
      (lowerCallable face (.int j) fun params => lowerResult operand (run params) c)
      (lowerCallable face' (.int i) fun params => lowerResult operand (run' params) c) := by
  unfold lowerCallable
  rw [parametersOf_int hj hcount, parametersOf_int hi hcount']
  -- The number of parameters is asked for in vain if it is not the one that is wanted.
  by_cases hagrees : k = -1 ∨ k = count
  · rw [if_pos (htakes.agrees hagrees), if_pos (htakes'.agrees hagrees), liftM_ok_bind,
      liftM_ok_bind]
    have htake : Parallel Progress.Level
        (fun ps qs => ps = qs ∧ ∃ first, ps = List.range' first count) (takeVariables count)
        (takeVariables count) := fun p q hpq =>
      ⟨.ok ⟨by rw [hpq.next], p.next, rfl⟩, congrArg (· + count) hpq.next, hpq.timeFormat⟩
    refine htake.bind ?_
    rintro _ params ⟨rfl, first, rfl⟩
    rw [hadmits, hadmits', liftM_ok_bind, liftM_ok_bind]
    refine (level_countCall face face').bind fun _ _ _ => ?_
    obtain ⟨v, w, hv, hw, hnull, hvw⟩ := h first
    dsimp only
    rw [hv, hw]
    exact (parallel_lowerResult (.ok ⟨hnull, hvw c hc 0⟩)).bind fun _ _ ht =>
      parallel_pure (congrArg _ ht)
  · obtain rfl := htakes.eq_of_not hagrees
    obtain rfl := htakes'.eq_of_not hagrees
    rw [if_neg hagrees]
    exact parallel_throw _

/-! ### Operations -/

section Carried

variable (hcarried : ∀ v : Value, (∃ b, v = .bool b) ∨ (∃ s, v = .text s) → ∀ c : Scope,
  Parallel Progress.Level Eq ((operand v).term c) ((operand v).term c))

include hcarried

theorem level_implicitDatabase {c : Scope} (hc : c.Typed) :
    Parallel Progress.Level Eq ((implicitDatabase c operand).term c)
      ((implicitDatabase c operand).term c) := by
  obtain ⟨s, hs⟩ := hc.database
  have hnames : List.Forall₂ (fun o o' => Parallel Progress.Level Eq (o.term c) (o'.term c))
      (if c.database.isAbsent then [] else [operand c.database])
      (if c.database.isAbsent then [] else [operand c.database]) := by
    split
    · exact .nil
    · exact .cons (hcarried _ (.inr ⟨s, hs⟩) c) .nil
  exact (parallel_mapM hnames).bind fun ts us hts =>
    parallel_pure (simulation_level.operation (by decide) hts .nil)

/-- Operations whose arguments are arranged into values that agree. -/
theorem agree_verb {v : Verb} (hv : v ≠ .var) {args args' : List Value}
    (h : Corresponds (Arrangement.Resembles (Agree operand)) (v.arrange args) (v.arrange args')) :
    Agree operand (.expr (.verb v) args) (.expr (.verb v) args') := by
  intro c hc depth
  refine (parallel_checkLiteralDepth depth).bind fun _ _ _ => ?_
  rw [operands_eq_map, operands_eq_map]
  refine simulation_level.lowerVerb hv (h.mono fun a a' ha => ⟨?_, ?_⟩) ?_
  · refine List.rel_append ?_ ?_
    · rw [ha.implicit]
      split
      · exact .cons (level_implicitDatabase hcarried hc) .nil
      · exact .nil
    · rw [List.forall₂_map_left_iff, List.forall₂_map_right_iff]
      exact ha.positional.imp fun _ _ hvw => hvw c hc 0
  · exact ha.named.imp fun _ _ hef => ⟨hef.1, hef.2 c hc 0⟩
  · exact scopeOptions_related (R := fun o o' => Parallel Progress.Level Eq (o.term c) (o'.term c))
      v (parallel_pure rfl) (fun _ => rfl) fun s => hcarried _ (hc.setting s).bool_or_text c

end Carried

end Value

end QueryDriver
