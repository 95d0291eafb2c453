import QueryDriver.Proofs.Lowering.Parallel

/-!
# Arguments that are arranged alike

How the arguments of an operation are arranged depends on a few questions that are asked about
each of them. A `Resemblance` is a relation of values that these questions do not tell apart, and
that related tables hand on to their options. Related arguments are arranged alike then, and
scopes whose settings are related add related options.
-/

namespace QueryDriver

open Wire

/-- The name of a table that is to be created. -/
def Value.specName? : Value → Option String
  | .tableSpec name .. => some name
  | _ => none

/-- The same name with related values. -/
def SameEntry {α β : Type} (R : α → β → Prop) (e : String × α) (f : String × β) : Prop :=
  e.1 = f.1 ∧ R e.2 f.2

/-- A relation of values that are arranged alike as arguments. -/
structure Resemblance (R : Value → Value → Prop) : Prop where
  absent {v w : Value} : R v w → v.isAbsent = w.isAbsent
  table {v w : Value} : R v w → notATable? v = notATable? w
  spec {v w : Value} : R v w → v.specName? = w.specName?
  fields {v w : Value} : R v w → List.Forall₂ (SameEntry R) v.tableFields w.tableFields
  text (s : String) : R (.text s) (.text s)

/-- Arrangements into related values. -/
structure Arrangement.Resembles (R : Value → Value → Prop) (a a' : Arrangement) : Prop where
  implicit : a.implicit = a'.implicit
  positional : List.Forall₂ R a.positional a'.positional
  named : List.Forall₂ (SameEntry R) a.named a'.named

theorem forall₂_filter {α β : Type} {R : α → β → Prop} {p : α → Bool} {q : β → Bool}
    (hpq : ∀ x y, R x y → p x = q y) {xs : List α} {ys : List β} (h : List.Forall₂ R xs ys) :
    List.Forall₂ R (xs.filter p) (ys.filter q) := by
  induction h with
  | nil => exact .nil
  | @cons x y _ _ hxy _ ih =>
      rw [List.filter_cons, List.filter_cons, hpq x y hxy]
      split
      · exact .cons hxy ih
      · exact ih

theorem forall₂_append_singleton {α β : Type} {R : α → β → Prop} {xs : List α} {x : α}
    {ys : List β} (h : List.Forall₂ R (xs ++ [x]) ys) :
    ∃ ys' y, ys = ys' ++ [y] ∧ List.Forall₂ R xs ys' ∧ R x y := by
  obtain ⟨ys', last, rfl, hxs, hlast⟩ := Row.forall₂_append_left h
  obtain ⟨y, _, hxy, hnil, rfl⟩ := List.forall₂_cons_left_iff.1 hlast
  cases hnil
  exact ⟨ys', y, rfl, hxs, hxy⟩

theorem Verb.splitSpec_append_singleton (front : List Value) (last : Value) :
    tableCreate.splitSpec (front ++ [last]) = match last.specName? with
      | some name => .ok (front ++ [.text name], last.tableFields)
      | none => .error (.ofCause .needsTableSpec) := by
  simp only [Verb.splitSpec, List.getLast?_append_cons, List.getLast?_singleton,
    List.dropLast_concat]
  cases last <;> rfl

namespace Resemblance

variable {R : Value → Value → Prop} (hR : Resemblance R) {v : Verb} {args args' : List Value}

include hR

theorem checkReceiver (h : List.Forall₂ R args args') :
    v.checkReceiver args = v.checkReceiver args' := by
  unfold Verb.checkReceiver
  split
  · cases h with
    | nil => rfl
    | cons h _ => simp only [hR.table h]
  · rfl

theorem splitOption (h : List.Forall₂ R args args') :
    Corresponds (fun s s' => List.Forall₂ R s.1 s'.1 ∧ List.Forall₂ (SameEntry R) s.2 s'.2)
      (v.splitOption args) (v.splitOption args') := by
  unfold Verb.splitOption
  cases v.trailing? with
  | none => exact .ok ⟨h, .nil⟩
  | some name =>
      cases args using List.reverseRecOn with
      | nil =>
          cases h
          exact .error _
      | append_singleton front last =>
          obtain ⟨front', last', rfl, hfront, hlast⟩ := forall₂_append_singleton h
          simp only [List.getLast?_append_cons, List.getLast?_singleton, List.dropLast_concat,
            hR.absent hlast]
          refine .ok ⟨hfront, ?_⟩
          cases last'.isAbsent
          · exact .cons ⟨rfl, hlast⟩ .nil
          · exact .nil

theorem splitSpec (h : List.Forall₂ R args args') :
    Corresponds (fun s s' => List.Forall₂ R s.1 s'.1 ∧ List.Forall₂ (SameEntry R) s.2 s'.2)
      (v.splitSpec args) (v.splitSpec args') := by
  by_cases hv : v = .tableCreate
  · subst hv
    cases args using List.reverseRecOn with
    | nil =>
        cases h
        exact .error _
    | append_singleton front last =>
        obtain ⟨front', last', rfl, hfront, hlast⟩ := forall₂_append_singleton h
        rw [Verb.splitSpec_append_singleton, Verb.splitSpec_append_singleton, hR.spec hlast]
        cases last'.specName? with
        | none => exact .error _
        | some name =>
            exact .ok ⟨List.rel_append hfront (.cons (hR.text name) .nil), hR.fields hlast⟩
  · rw [Verb.splitSpec, Verb.splitSpec, if_neg hv, if_neg hv]
    exact .ok ⟨h, .nil⟩

/-- Related arguments are arranged alike. -/
theorem arrange (h : List.Forall₂ R args args') :
    Corresponds (Arrangement.Resembles R) (v.arrange args) (v.arrange args') := by
  unfold Verb.arrange
  rw [hR.checkReceiver h]
  refine (Corresponds.refl (R := Eq) (fun _ => rfl) _).bind fun _ _ _ => ?_
  refine (hR.splitOption h).bind ?_
  rintro ⟨rest, trailing⟩ ⟨rest', trailing'⟩ ⟨hrest, htrailing⟩
  refine (hR.splitSpec hrest).bind ?_
  rintro ⟨positional, fields⟩ ⟨positional', fields'⟩ ⟨hpositional, hfields⟩
  refine .ok ⟨?_, ?_, List.rel_append htrailing hfields⟩
  · simp only [hrest.length_eq]
  · exact forall₂_filter (fun w w' hw => by rw [hR.absent hw]) hpositional

end Resemblance

/-- Scopes with the same switches and related values of the other settings add related
options. -/
theorem scopeOptions_related {R : Operand → Operand → Prop} {c c' : Scope}
    {operand operand' : Value → Operand} (v : Verb) (on : R Operand.on Operand.on)
    (htruthy : ∀ s, (c.get s).truthy = (c'.get s).truthy)
    (carried : ∀ s, R (operand (c.get s)) (operand' (c'.get s))) :
    List.Forall₂ (SameEntry R) (scopeOptions v c operand) (scopeOptions v c' operand') := by
  have houtdated : c.useOutdated = c'.useOutdated := htruthy .useOutdated
  have hatomic : c.atomic = c'.atomic := htruthy .atomic
  have hupsert : c.upsert = c'.upsert := htruthy .upsert
  have hreturn : c.returnValues = c'.returnValues := htruthy .returnValues
  have hdurability : c.durability.truthy = c'.durability.truthy := htruthy .durability
  have hleft : c.leftBound.truthy = c'.leftBound.truthy := htruthy .leftBound
  have hright : c.rightBound.truthy = c'.rightBound.truthy := htruthy .rightBound
  have hone {name : String} {o o' : Operand} (p : Prop) [Decidable p] (h : R o o') :
      List.Forall₂ (SameEntry R) (if p then [(name, o)] else [])
        (if p then [(name, o')] else []) := by
    split
    · exact .cons ⟨rfl, h⟩ .nil
    · exact .nil
  unfold scopeOptions
  rw [houtdated, hatomic, hupsert, hreturn, hdurability, hleft, hright]
  split
  case h_1 => exact hone _ on
  case h_6 | h_7 =>
    exact List.rel_append (hone _ (carried .leftBound)) (hone _ (carried .rightBound))
  case h_8 => exact .nil
  all_goals
    exact List.rel_append (List.rel_append (List.rel_append (hone _ (carried .durability))
      (hone _ on)) (hone _ on)) (hone _ on)

end QueryDriver
