import QueryDriver.Proofs.Lowering.Setterless

/-!
# The time format of a scope

A scope has a field for a time format, next to its database and its options, and a setting of a
time format fills it in, but the compiler never reads it. Two scopes that differ in nothing else
compile every value alike, with all that it holds: callables, operations that take their database
from the scope, and values that the scope carries.
-/

namespace QueryDriver

open Wire

/-- Actions that agree on all items of a list come to the same on the list. -/
theorem mapM_congr {α β : Type} {f g : α → Lowering β} {xs : List α} (h : ∀ x ∈ xs, f x = g x) :
    xs.mapM f = xs.mapM g := by
  induction xs with
  | nil => rfl
  | cons x xs ih =>
      obtain ⟨hx, hxs⟩ := List.forall_mem_cons.1 h
      rw [List.mapM_cons, List.mapM_cons, hx, ih hxs]

/-- A time format can be set in a scope before or after any other setting. -/
theorem Scope.set_set_timeFormat {s : Setting} (hs : s ≠ .timeFormat) (c : Scope) (f v : Value) :
    (c.set .timeFormat f).set s v = (c.set s v).set .timeFormat f := by
  cases s with
  | timeFormat => exact absurd rfl hs
  | _ => rfl

section Carried

variable {operand : Value → Operand} {c c' : Scope}

theorem lowerItems_congr {depth : Int} {items : List Value}
    (h : ∀ v ∈ items, Value.lowerAt operand v depth c' = Value.lowerAt operand v depth c) :
    Value.lowerItems (Value.itemParts operand items) depth c' =
      Value.lowerItems (Value.itemParts operand items) depth c := by
  unfold Value.lowerItems
  rw [Value.itemParts_eq_map]
  exact congrArg (· >>= _) (mapM_congr (List.forall_mem_map.2 h))

theorem lowerEntries_congr {depth : Int} {entries : List (Value × Value)}
    (h : ∀ e ∈ entries, Value.lowerAt operand e.2 depth c' = Value.lowerAt operand e.2 depth c) :
    Value.lowerEntries (Value.entryParts operand entries) depth c' =
      Value.lowerEntries (Value.entryParts operand entries) depth c := by
  unfold Value.lowerEntries
  rw [Value.entryParts_eq_map]
  refine congrArg (· >>= _) (mapM_congr (List.forall_mem_map.2 fun e he => ?_))
  simp only [h e he]

theorem lowerResult_congr {result : Except Failure Value}
    (h : ∀ v, result = .ok v → Value.lowerAt operand v 0 c' = Value.lowerAt operand v 0 c) :
    Value.lowerResult operand result c' = Value.lowerResult operand result c := by
  cases result with
  | error f => rfl
  | ok v => rw [lowerResult_ok, lowerResult_ok, h v rfl]

theorem lowerCallable_congr {face : Face} {run : List Nat → Except Failure Value} (hint : Value)
    (h : ∀ v, Value.IsPart v (.func face run) →
      Value.lowerAt operand v 0 c' = Value.lowerAt operand v 0 c) :
    lowerCallable face hint (fun params => Value.lowerResult operand (run params) c') =
      lowerCallable face hint fun params => Value.lowerResult operand (run params) c :=
  congrArg (lowerCallable face hint)
    (funext fun _ => lowerResult_congr fun v hv => h v (.result hv))

theorem asFunction_congr {body : Value} (hint : Value)
    (hbody : Value.lowerAt operand body 0 c' = Value.lowerAt operand body 0 c)
    (hparts : ∀ v, Value.IsPart v body →
      Value.lowerAt operand v 0 c' = Value.lowerAt operand v 0 c) :
    (Value.operandBy operand body).asFunction hint c' =
      (Value.operandBy operand body).asFunction hint c := by
  cases happlied : body.isApplied with
  | false => rw [Value.asFunction_eq happlied, Value.asFunction_eq happlied, hbody]
  | true =>
      cases body with
      | func face run =>
          have htype : face.isType = false := by simpa [Value.isApplied] using happlied
          rw [Value.asFunction_func htype, Value.asFunction_func htype,
            lowerCallable_congr hint hparts]
      | _ => cases happlied

variable (hoperand : ∀ w (c : Scope) f, (operand w).term (c.set .timeFormat f) = (operand w).term c)

include hoperand

theorem implicitDatabase_set_timeFormat (c : Scope) (f : Value) :
    (implicitDatabase (c.set .timeFormat f) operand).term (c.set .timeFormat f) =
      (implicitDatabase c operand).term c := by
  have hnames : lowerEach (c.set .timeFormat f)
      (if c.database.isAbsent then [] else [operand c.database]) =
      lowerEach c (if c.database.isAbsent then [] else [operand c.database]) := by
    refine mapM_congr ?_
    split
    · exact List.forall_mem_nil _
    · exact List.forall_mem_singleton.2 (hoperand _ c f)
  exact congrArg (· >>= _) hnames

theorem lowerVerb_set_timeFormat {v : Verb} {args : List Value} (c : Scope) (f : Value)
    (h : ∀ w, Value.Below w (.expr (.verb v) args) →
      Value.lowerAt operand w 0 (c.set .timeFormat f) = Value.lowerAt operand w 0 c) :
    lowerVerb operand v (args.map (Value.operandBy operand)) (c.set .timeFormat f) =
      lowerVerb operand v (args.map (Value.operandBy operand)) c := by
  rw [lowerVerb_eq, lowerVerb_eq]
  cases ha : v.arrange args with
  | error e => rfl
  | ok a =>
      obtain ⟨hpositional, hnamed⟩ := List.forall_mem_append.1 <|
        Verb.forall_of_arrange (P := fun w => Value.lowerAt operand w 0 (c.set .timeFormat f) =
          Value.lowerAt operand w 0 c) ha h fun s => rfl
      have hterms : lowerEach (c.set .timeFormat f)
          ((if a.implicit then [implicitDatabase (c.set .timeFormat f) operand] else [])
            ++ a.positional.map (Value.operandBy operand)) =
          lowerEach c ((if a.implicit then [implicitDatabase c operand] else [])
            ++ a.positional.map (Value.operandBy operand)) := by
        have hrest : (a.positional.map (Value.operandBy operand)).mapM
            (fun o => o.term (c.set .timeFormat f)) =
            (a.positional.map (Value.operandBy operand)).mapM fun o => o.term c :=
          mapM_congr (List.forall_mem_map.2 hpositional)
        unfold lowerEach
        cases a.implicit with
        | false => exact hrest
        | true =>
            change List.mapM _ (_ :: _) = List.mapM _ (_ :: _)
            rw [List.mapM_cons, List.mapM_cons, implicitDatabase_set_timeFormat hoperand]
            exact congrArg _ (funext fun t => congrArg (· >>= _) hrest)
      have hoptions : lowerOptions (c.set .timeFormat f)
          (a.named.map (fun e => (e.1, Value.operandBy operand e.2))
            ++ scopeOptions v (c.set .timeFormat f) operand) =
          lowerOptions c (a.named.map (fun e => (e.1, Value.operandBy operand e.2))
            ++ scopeOptions v c operand) := by
        have hsame : scopeOptions v (c.set .timeFormat f) operand = scopeOptions v c operand := by
          cases v <;> rfl
        have hsent : ∀ o ∈ scopeOptions v c operand, o.2.term (c.set .timeFormat f) = o.2.term c :=
          forall_scopeOptions (P := fun o => o.term (c.set .timeFormat f) = o.term c) v rfl
            fun s => hoperand (c.get s) c f
        rw [hsame]
        refine mapM_congr (List.forall_mem_append.2 ⟨List.forall_mem_map.2 fun e he => ?_,
          fun e he => ?_⟩)
        · exact congrArg (· >>= _) (List.forall_mem_map.1 hnamed e he)
        · exact congrArg (· >>= _) (hsent e he)
      change (lowerEach _ _ >>= _) = (lowerEach _ _ >>= _)
      rw [hterms, hoptions]

theorem lowerNode_set_timeFormat {op : Operator} {args : List Value} (c : Scope) (f : Value)
    (h : ∀ w, Value.Below w (.expr op args) → ∀ c : Scope,
      Value.lowerAt operand w 0 (c.set .timeFormat f) = Value.lowerAt operand w 0 c) :
    lowerNode operand op (args.map (Value.operandBy operand)) (c.set .timeFormat f) =
      lowerNode operand op (args.map (Value.operandBy operand)) c := by
  have hpart (w : Value) (hw : w ∈ args) := h w (.single (.argument hw))
  cases op with
  | literal =>
      cases args with
      | nil => rfl
      | cons v rest => exact hpart v List.mem_cons_self c
  | func =>
      match args with
      | [] => rfl
      | [_] => rfl
      | body :: hint :: rest =>
          refine asFunction_congr hint (hpart body List.mem_cons_self c) fun v hv => ?_
          exact h v (.tail (.single hv) (.argument List.mem_cons_self)) c
  | setting s =>
      match args with
      | [] => rfl
      | [_] => rfl
      | [inner, value] =>
          simp only [List.map_cons, List.map_nil, lowerNode_setting]
          refine congrArg _ (funext fun _ => ?_)
          by_cases hs : s = .timeFormat
          · subst hs
            rfl
          · rw [Scope.set_set_timeFormat hs]
            exact hpart inner List.mem_cons_self _
      | _ :: _ :: _ :: _ => rfl
  | verb v => exact lowerVerb_set_timeFormat hoperand c f fun w hw => h w hw c

theorem lowerAt_set_timeFormat (v : Value) (depth : Int) (c : Scope) (f : Value) :
    Value.lowerAt operand v depth (c.set .timeFormat f) = Value.lowerAt operand v depth c := by
  induction v using Value.induction generalizing depth c with
  | step v ih =>
  have hpart (w : Value) (hw : Value.IsPart w v) := ih w (.single hw)
  have hchecked {a b : Lowering Term} (hab : a = b) :
      (Value.checkLiteralDepth depth >>= fun _ => a) =
        (Value.checkLiteralDepth depth >>= fun _ => b) := by
    rw [hab]
  cases v with
  | expr op args =>
      refine hchecked ?_
      rw [Value.operands_eq_map]
      exact lowerNode_set_timeFormat hoperand c f fun w hw => ih w hw 0
  | dict entries => exact hchecked (lowerEntries_congr fun e he => hpart e.2 (.entry he) _ c)
  | mapping entries => exact hchecked (lowerEntries_congr fun e he => hpart e.2 (.image he) _ c)
  | list items => exact hchecked (lowerItems_congr fun w hw => hpart w (.item hw) _ c)
  | tuple items => exact hchecked (lowerItems_congr fun w hw => hpart w (.component hw) _ c)
  | func face run =>
      refine hchecked ?_
      split
      · rfl
      · exact lowerCallable_congr _ fun w hw => hpart w hw 0 c
  | row =>
      refine hchecked ?_
      rw [lowerNode_implicitVar, lowerNode_implicitVar]
  | placeholder n =>
      refine hchecked ?_
      rw [lowerNode_var, lowerNode_var]
  | _ => rfl

end Carried

theorem operandWithin_set_timeFormat (fuel : Nat) (v : Value) (c : Scope) (f : Value) :
    (Value.operandWithin fuel v).term (c.set .timeFormat f) =
      (Value.operandWithin fuel v).term c := by
  induction fuel generalizing v c f with
  | zero => rfl
  | succ fuel ih => exact lowerAt_set_timeFormat ih v 0 c f

/-- The time format of a scope has no influence on what a value is compiled to. -/
theorem lower_set_timeFormat (v : Value) (c : Scope) (f : Value) :
    v.lower (c.set .timeFormat f) = v.lower c :=
  operandWithin_set_timeFormat (Value.optionNesting + 1) v c f

end QueryDriver
