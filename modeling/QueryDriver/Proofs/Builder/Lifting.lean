import QueryDriver.Builder.Role
import QueryDriver.Proofs.Codec.Literals

/-!
# Two counts of the containers around an item

A value is made an expression only when none of its items lies under too many containers, and
the compiler counts the containers again when it comes to the literal. The builder looks at the
whole value first; the compiler counts on its way, compiling what it meets before. What lies
in an expression or comes out of a callable is counted by neither of them: for both counts an
expression is an item like a number.

So the two refuse the same values as long as nothing else is wrong with them, that is, when the
keys are texts and every leaf compiles. Neither the scope nor the progress of the compilation
has a part in that.
-/

namespace QueryDriver

open Wire

variable {α β : Type}

/-- From every progress of the compilation the action fails with `f` if `P` holds, and comes to
something if `P` does not. -/
def FailsIff (f : Failure) (P : Prop) (a : Lowering α) : Prop :=
  ∀ p, (P ∧ ∃ q, a.run p = (.error f, q)) ∨ (¬ P ∧ ∃ x q, a.run p = (.ok x, q))

namespace FailsIff

variable {f : Failure} {P Q : Prop} {a : Lowering α}

theorem congr (h : FailsIff f P a) (hPQ : P ↔ Q) : FailsIff f Q a := propext hPQ ▸ h

theorem pure (x : α) : FailsIff f False (pure x : Lowering α) :=
  fun p => .inr ⟨not_false, x, p, rfl⟩

/-- The second part is reached only when the first one came to something. -/
theorem bind {g : α → Lowering β} (ha : FailsIff f P a) (hg : ∀ x, FailsIff f Q (g x)) :
    FailsIff f (P ∨ Q) (a >>= g) := by
  intro p
  obtain ⟨hP, q, hrun⟩ | ⟨hP, x, q, hrun⟩ := ha p
  · exact .inl ⟨.inl hP, q, run_bind_of_error hrun⟩
  · rw [run_bind_of_ok hrun]
    obtain ⟨hQ, h⟩ | ⟨hQ, h⟩ := hg x q
    · exact .inl ⟨.inr hQ, h⟩
    · exact .inr ⟨not_or.2 ⟨hP, hQ⟩, h⟩

theorem mapM {g : α → Lowering β} {R : α → Prop} {xs : List α}
    (h : ∀ x ∈ xs, FailsIff f (R x) (g x)) : FailsIff f (∃ x ∈ xs, R x) (xs.mapM g) := by
  induction xs with
  | nil =>
      rw [List.mapM_nil]
      exact (FailsIff.pure []).congr (by simp)
  | cons x xs ih =>
      obtain ⟨hx, hxs⟩ := List.forall_mem_cons.1 h
      rw [List.mapM_cons]
      refine (hx.bind fun y => (ih hxs).bind fun ys => .pure (y :: ys)).congr ?_
      rw [or_false, List.exists_mem_cons_iff]

theorem exists_error_iff (h : FailsIff f P a) (p : Progress) :
    (∃ q, a.run p = (.error f, q)) ↔ P := by
  obtain ⟨hP, hrun⟩ | ⟨hP, x, q, hrun⟩ := h p
  · exact iff_of_true hrun hP
  · refine iff_of_false ?_ hP
    rintro ⟨q', hfailed⟩
    rw [hrun] at hfailed
    cases hfailed

theorem exists_ok (h : FailsIff f P a) (hP : ¬ P) (p : Progress) :
    ∃ x q, a.run p = (.ok x, q) :=
  (h p).resolve_left (fun hfailed => hP hfailed.1) |>.2

end FailsIff

namespace Value

/-- Some item of the value lies under more containers than the limit, the value itself lying
under `depth` of them. -/
def Exceeds (limit depth : Nat) (v : Value) : Prop := ∃ n w, Under n w v ∧ limit < depth + n

section Exceeds

variable {limit depth : Nat} {v : Value}

theorem exceeds_plain (hplain : v.isContainer = false) :
    v.Exceeds limit depth ↔ limit < depth := by
  constructor
  · rintro ⟨n, w, hunder, hdeep⟩
    cases hunder with
    | here => exact hdeep
    | inside hcontainer => exact absurd hcontainer (by simp [hplain])
  · exact fun hdeep => ⟨0, v, .here, hdeep⟩

theorem exceeds_container (hcontainer : v.isContainer = true) :
    v.Exceeds limit depth ↔ limit < depth ∨ ∃ w, IsPart w v ∧ w.Exceeds limit (depth + 1) := by
  constructor
  · rintro ⟨n, w, hunder, hdeep⟩
    cases hunder with
    | here => exact .inl hdeep
    | @inside n _ _ x _ hx hunder => exact .inr ⟨x, hx, n, w, hunder, by omega⟩
  · rintro (hdeep | ⟨x, hx, n, w, hunder, hdeep⟩)
    · exact ⟨0, v, .here, hdeep⟩
    · exact ⟨n + 1, w, .inside hcontainer hx hunder, by omega⟩

theorem exceeds_array {items : List Value} (hcontainer : v.isContainer = true)
    (hparts : ∀ w, IsPart w v ↔ w ∈ items) :
    v.Exceeds limit depth ↔ limit < depth ∨ ∃ w ∈ items, w.Exceeds limit (depth + 1) := by
  simp only [exceeds_container hcontainer, hparts]

theorem exceeds_object {entries : List (Value × Value)} (hcontainer : v.isContainer = true)
    (hparts : ∀ w, IsPart w v ↔ ∃ e ∈ entries, e.2 = w) :
    v.Exceeds limit depth ↔ limit < depth ∨ ∃ e ∈ entries, e.2.Exceeds limit (depth + 1) := by
  simp only [exceeds_container hcontainer, hparts, exists_and_right.symm, and_assoc]
  refine or_congr_right ⟨?_, ?_⟩
  · rintro ⟨_, e, he, rfl, hdeep⟩
    exact ⟨e, he, hdeep⟩
  · rintro ⟨e, he, hdeep⟩
    exact ⟨_, e, he, rfl, hdeep⟩

end Exceeds

/-! ## The count of the builder -/

mutual

/-- What the builder looks for, for every value there is. -/
theorem tooDeep_iff : ∀ (v : Value) (depth : Nat),
    tooDeep depth v = true ↔ v.Exceeds liftLimit depth
  | .list items, depth => by
      rw [exceeds_array rfl fun _ => isPart_list, ← tooDeepItem_iff items, tooDeep]
      simp
  | .tuple items, depth => by
      rw [exceeds_array rfl fun _ => isPart_tuple, ← tooDeepItem_iff items, tooDeep]
      simp
  | .dict entries, depth => by
      rw [exceeds_object rfl fun _ => isPart_dict, ← tooDeepEntry_iff entries, tooDeep]
      simp
  | .mapping entries, depth => by
      rw [exceeds_object rfl fun _ => isPart_mapping, ← tooDeepEntry_iff entries, tooDeep]
      simp
  | .null, _ | .bool _, _ | .int _, _ | .double _, _ | .fraction .., _ | .text _, _
  | .moment _, _ | .duration _, _ | .slice .., _ | .absent, _ | .tableSpec .., _ | .bytes _, _
  | .set _, _ | .complex .., _ | .decimal _, _ | .operator _, _ | .object .., _ | .expr .., _
  | .row, _ | .placeholder _, _ | .func .., _ => by
      rw [exceeds_plain rfl]
      simp [tooDeep]

theorem tooDeepItem_iff : ∀ (items : List Value) (depth : Nat),
    tooDeepItem depth items = true ↔ ∃ v ∈ items, v.Exceeds liftLimit depth
  | [], _ => by simp [tooDeepItem]
  | v :: vs, depth => by
      simp [tooDeepItem, tooDeep_iff v depth, tooDeepItem_iff vs depth]

theorem tooDeepEntry_iff : ∀ (entries : List (Value × Value)) (depth : Nat),
    tooDeepEntry depth entries = true ↔ ∃ e ∈ entries, e.2.Exceeds liftLimit depth
  | [], _ => by simp [tooDeepEntry]
  | (k, v) :: es, depth => by
      rw [tooDeepEntry, Bool.or_eq_true, tooDeep_iff v depth, tooDeepEntry_iff es depth,
        List.exists_mem_cons_iff]

end

/-- A value is no expression only because of an item that lies too deep. -/
theorem lift_eq_error_iff {v : Value} {f : Failure} : v.lift = .error f ↔
    f = .ofCause (.literalTooDeep liftLimit) ∧ v.Exceeds liftLimit 0 := by
  have hplain : (v.isExpr = true ∨ v.isCallable = true) → ¬ v.Exceeds liftLimit 0 := by
    intro h
    rw [exceeds_plain (by cases v <;> simp_all [isExpr, isCallable, isContainer])]
    exact Nat.not_lt_zero _
  unfold lift
  split
  next hexpr => simp [hplain (.inl hexpr)]
  next =>
    split
    next hcallable => simp [hplain (.inr hcallable)]
    next =>
      rw [← tooDeep_iff]
      split
      next hdeep => simp [hdeep, eq_comm]
      next hroom => simp [hroom]

/-! ## The count of the compiler -/

/-- The value compiles in the scope, whatever was compiled before it. -/
def Compiles (scope : Scope) (v : Value) : Prop :=
  ∀ p, ∃ t q, (v.lowerLiteral 0 scope).run p = (.ok t, q)

/-- The values that lists, tuples and mappings with texts for keys make of leaves. -/
inductive BuiltOf (leaf : Value → Prop) : Value → Prop where
  | leaf {v : Value} (hplain : v.isContainer = false) (h : leaf v) : BuiltOf leaf v
  | list {items : List Value} (h : ∀ v ∈ items, BuiltOf leaf v) : BuiltOf leaf (.list items)
  | tuple {items : List Value} (h : ∀ v ∈ items, BuiltOf leaf v) : BuiltOf leaf (.tuple items)
  | dict {entries : List (Value × Value)} (hkeys : ∀ e ∈ entries, ∃ key, e.1 = .text key)
      (h : ∀ e ∈ entries, BuiltOf leaf e.2) : BuiltOf leaf (.dict entries)
  | mapping {entries : List (Value × Value)} (hkeys : ∀ e ∈ entries, ∃ key, e.1 = .text key)
      (h : ∀ e ∈ entries, BuiltOf leaf e.2) : BuiltOf leaf (.mapping entries)

/-- What the compiler says of an item that lies too deep. -/
abbrev literalTooDeep : Failure := .ofCause (.literalTooDeep literalLimit)

section Lowering

variable {operand : Value → Operand} {scope : Scope} {depth : Nat}

theorem failsIff_checkLiteralDepth :
    FailsIff literalTooDeep (literalLimit < depth) (checkLiteralDepth depth) := by
  intro p
  unfold checkLiteralDepth
  split
  next hdeep => exact .inl ⟨by omega, p, rfl⟩
  next hroom => exact .inr ⟨by omega, (), p, rfl⟩

/-- A leaf knows its depth only from the check in front of it. -/
theorem lowerAt_plain {v : Value} (hplain : v.isContainer = false) (depth : Int) :
    lowerAt operand v depth scope =
      (checkLiteralDepth depth >>= fun _ => lowerAt operand v 0 scope) := by
  cases v with
  | list | tuple | dict | mapping => cases hplain
  | _ => rfl

theorem failsIff_lowerItems {items : List Value}
    (h : ∀ v ∈ items, FailsIff literalTooDeep (v.Exceeds literalLimit depth)
      (lowerAt operand v depth scope)) :
    FailsIff literalTooDeep (∃ v ∈ items, v.Exceeds literalLimit depth)
      (lowerItems (itemParts operand items) depth scope) := by
  rw [lowerItems, itemParts_eq_map, List.mapM_map]
  exact ((FailsIff.mapM h).bind fun _ => .pure _).congr (by rw [or_false])

theorem failsIff_lowerEntries {entries : List (Value × Value)}
    (hkeys : ∀ e ∈ entries, ∃ key, e.1 = .text key)
    (h : ∀ e ∈ entries, FailsIff literalTooDeep (e.2.Exceeds literalLimit depth)
      (lowerAt operand e.2 depth scope)) :
    FailsIff literalTooDeep (∃ e ∈ entries, e.2.Exceeds literalLimit depth)
      (lowerEntries (entryParts operand entries) depth scope) := by
  rw [lowerEntries, entryParts_eq_map, List.mapM_map]
  refine ((FailsIff.mapM fun e he => ?_).bind fun _ => .pure _).congr (by rw [or_false])
  obtain ⟨key, hkey⟩ := hkeys e he
  change FailsIff literalTooDeep _ (do
    let key ← literalKey e.1
    let t ← lowerAt operand e.2 depth scope
    return (key, t))
  rw [hkey]
  exact ((FailsIff.pure key).bind fun _ => (h e he).bind fun _ => .pure _).congr (by simp)

/-- The compiler counts as far as its limit, and nothing else stops it. -/
theorem BuiltOf.failsIff {v : Value} (h : v.BuiltOf (Compiles scope)) (depth : Nat) :
    FailsIff literalTooDeep (v.Exceeds literalLimit depth) (v.lowerLiteral depth scope) := by
  induction h generalizing depth with
  | leaf hplain h =>
      rw [lowerLiteral, lowerAt_plain hplain, exceeds_plain hplain]
      have hleaf : FailsIff literalTooDeep False
          (lowerAt (operandWithin optionNesting) _ 0 scope) := fun p => .inr ⟨not_false, h p⟩
      exact (failsIff_checkLiteralDepth.bind fun _ => hleaf).congr (by rw [or_false])
  | list _ ih =>
      rw [exceeds_array rfl fun _ => isPart_list]
      exact failsIff_checkLiteralDepth.bind fun _ => failsIff_lowerItems fun v hv => ih v hv _
  | tuple _ ih =>
      rw [exceeds_array rfl fun _ => isPart_tuple]
      exact failsIff_checkLiteralDepth.bind fun _ => failsIff_lowerItems fun v hv => ih v hv _
  | dict hkeys _ ih =>
      rw [exceeds_object rfl fun _ => isPart_dict]
      exact failsIff_checkLiteralDepth.bind fun _ =>
        failsIff_lowerEntries hkeys fun e he => ih e he _
  | mapping hkeys _ ih =>
      rw [exceeds_object rfl fun _ => isPart_mapping]
      exact failsIff_checkLiteralDepth.bind fun _ =>
        failsIff_lowerEntries hkeys fun e he => ih e he _

end Lowering

/-! ## Both counts -/

/-- To be made an expression changes nothing about what a value compiles to. -/
theorem Compiles.of_lift {scope : Scope} {v e : Value} (h : v.Compiles scope)
    (hlift : v.lift = .ok e) : e.Compiles scope := by
  unfold lift at hlift
  split at hlift
  next =>
    cases hlift
    exact h
  next =>
    split at hlift
    next hcallable =>
      cases hlift
      cases v with
      | func face body =>
          cases htype : face.isType with
          | true =>
              -- a class is callable and yet compiled like any other object, that is, not at all
              obtain ⟨t, q, hrun⟩ := h ⟨0, 0, .null⟩
              rw [lowerLiteral, lowerAt, if_pos htype] at hrun
              cases hrun
          | false =>
              have hsame : (wrapFunction (.func face body) (.int (-1))).lowerLiteral 0 scope =
                  (Value.func face body).lowerLiteral 0 scope := by
                simp only [lowerLiteral, wrapFunction, lowerAt, lowerNode, operands, lowerApplied?,
                  htype]
                rfl
              exact fun p => hsame ▸ h p
      | _ => cases hcallable
    next =>
      split at hlift
      · cases hlift
      · cases hlift
        exact h

/-- A value of leaves that compile is refused as an expression if and only if the compiler
refuses it as a literal, which is the case if and only if some item lies under more than twenty
containers. All others compile, as they are and as expressions. -/
theorem lift_refuses_iff_lowerLiteral_refuses {scope : Scope} {v : Value}
    (h : v.BuiltOf (Compiles scope)) :
    (v.lift = .error (.ofCause (.literalTooDeep liftLimit)) ↔
      ∃ n w, Under n w v ∧ 20 < n) ∧
    (∀ p, (∃ q, (v.lowerLiteral 0 scope).run p =
        (.error (.ofCause (.literalTooDeep literalLimit)), q)) ↔
      ∃ n w, Under n w v ∧ 20 < n) ∧
    ∀ e, v.lift = .ok e → v.Compiles scope ∧ e.Compiles scope := by
  have hexceeds : v.Exceeds 20 0 ↔ ∃ n w, Under n w v ∧ 20 < n := by simp [Exceeds]
  have hlower := h.failsIff 0
  refine ⟨?_, fun p => (hlower.exists_error_iff p).trans hexceeds, fun e hlift => ?_⟩
  · rw [lift_eq_error_iff, ← hexceeds]
    exact and_iff_right rfl
  · have hroom : ¬ v.Exceeds literalLimit 0 := by
      intro hdeep
      rw [lift_eq_error_iff.2 ⟨rfl, hdeep⟩] at hlift
      cases hlift
    have hcompiles : v.Compiles scope := hlower.exists_ok hroom
    exact ⟨hcompiles, hcompiles.of_lift hlift⟩

theorem BuiltOf.nested {leaf : Value → Prop} {v : Value} (h : v.BuiltOf leaf) (n : Nat) :
    (nested n v).BuiltOf leaf := by
  induction n with
  | zero => exact h
  | succ n ih => exact .list (List.forall_mem_singleton.2 ih)

/-- An object with an empty list, an expression, a callable and a pair. -/
def mixed : Value :=
  .dict [(.text "empty", .list []), (.text "row", .row),
    (.text "call", .func (.function "f" ⟨["x"], [], false, []⟩) fun params =>
      .ok (.list (params.map .placeholder))),
    (.text "pair", .tuple [.text "one", .null])]

theorem builtOf_mixed : mixed.BuiltOf (Compiles .initial) := by
  refine .dict ?_ ?_
  · simp
  · simp only [List.forall_mem_cons]
    refine ⟨.list (List.forall_mem_nil _), .leaf rfl fun p => ⟨_, _, rfl⟩,
      .leaf rfl fun p => ⟨_, _, rfl⟩, .tuple ?_, List.forall_mem_nil _⟩
    simp only [List.forall_mem_cons]
    exact ⟨.leaf rfl fun p => ⟨_, _, rfl⟩, .leaf rfl fun p => ⟨_, _, rfl⟩, List.forall_mem_nil _⟩

/-- The pair brings its items under two containers: eighteen more are taken by both, and
nineteen by neither. -/
theorem lift_refuses_iff_lowerLiteral_refuses_mixed :
    ((nested 18 mixed).lift = .ok (.expr .literal [nested 18 mixed]) ∧
      (nested 18 mixed).Compiles .initial) ∧
    (nested 19 mixed).lift = .error (.ofCause (.literalTooDeep liftLimit)) ∧
      ∀ p, ∃ q, ((nested 19 mixed).lowerLiteral 0 .initial).run p =
        (.error (.ofCause (.literalTooDeep literalLimit)), q) := by
  have hlift : (nested 18 mixed).lift = .ok (.expr .literal [nested 18 mixed]) := rfl
  have hrefused : (nested 19 mixed).lift = .error (.ofCause (.literalTooDeep liftLimit)) := rfl
  have htaken := lift_refuses_iff_lowerLiteral_refuses (builtOf_mixed.nested 18)
  have hdeep := lift_refuses_iff_lowerLiteral_refuses (builtOf_mixed.nested 19)
  exact ⟨⟨hlift, (htaken.2.2 _ hlift).1⟩, hrefused,
    fun p => (hdeep.2.1 p).2 (hdeep.1.1 hrefused)⟩

end Value

end QueryDriver
