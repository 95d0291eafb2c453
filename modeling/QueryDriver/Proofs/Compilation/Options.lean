import QueryDriver.Proofs.Compilation.Boundary
import QueryDriver.Proofs.Lowering.Setterless

/-!
# Options of queries

Which options an operation is sent with, of those that settings stand for, is settled by the
settings on the way from its node to the root of the expression, the nearest one of a name
counting, and by the scope where there is none. A setting has no other effect on the term:
without its settings an expression becomes the same term, but for those options.
-/

namespace QueryDriver

open Wire

/-- `x.Inside t`: the term `x` is `t`, or is inside of an argument or of an option of it. -/
inductive Wire.Term.Inside (x : Term) : Term → Prop where
  | refl : x.Inside x
  | argument {t u : Term} (h : x.Inside u) (hu : u ∈ t.args) : x.Inside t
  | option {t u : Term} {name : Option String} (h : x.Inside u) (hu : (name, some u) ∈ t.options) :
      x.Inside t

theorem Verb.code_ne_of_settings {v : Verb} (hv : v.settings ≠ []) :
    v.code ≠ TermType.datum.code ∧ v.code ≠ TermType.makeArray.code ∧
      v.code ≠ TermType.makeObject.code ∧ v.code ≠ TermType.func.code ∧
      v.code ≠ Verb.var.code := by
  revert hv
  cases v <;> decide

namespace Outline

/-- No operation is in the outline. -/
def Nodeless (o : Outline) : Prop :=
  ∀ v r args own given, ¬Within (.node v r args own given) o

theorem nodeless_data (d : Datum) : (data d).Nodeless := by
  intro v r args own given h
  cases h with
  | child _ hy => cases hy

theorem nodeless_numbers (ns : List Nat) :
    (array (ns.map fun n => data (Datum.ofDouble (Double.ofNat n)))).Nodeless := by
  intro v r args own given h
  cases h with
  | child h hy =>
      obtain ⟨n, -, rfl⟩ := List.mem_map.1 hy
      exact nodeless_data _ _ _ _ _ _ h

theorem exists_of_mem_terms {os : List Outline} {u : Term} (h : u ∈ terms os) :
    ∃ y ∈ os, y.term = u := by
  rw [terms_eq_map] at h
  exact List.mem_map.1 h

theorem exists_of_mem_options {os : List (String × Outline)} {name : Option String} {u : Term}
    (h : (name, some u) ∈ options os) : ∃ y ∈ os.map (·.2), y.term = u := by
  rw [options_eq_map] at h
  obtain ⟨e, he, hu⟩ := List.mem_map.1 h
  exact ⟨e.2, List.mem_map_of_mem he, Option.some.inj (Prod.mk.inj hu).2⟩

/-- What the term of an outline is made of comes from a child of the outline, or holds
nothing but numbers. -/
theorem exists_of_argument {o : Outline} {u : Term} (h : u ∈ o.term.args) :
    ∃ y : Outline, y.term = u ∧ (y ∈ o.children ∨ y.Nodeless) := by
  cases o with
  | data d => cases h
  | object entries => cases h
  | reference n =>
      rw [List.mem_singleton.1 h]
      exact ⟨.data _, rfl, .inr (nodeless_data _)⟩
  | array items =>
      obtain ⟨y, hy, hu⟩ := exists_of_mem_terms h
      exact ⟨y, hu, .inl hy⟩
  | function source params body =>
      simp only [term, functionTerm, List.mem_cons, List.not_mem_nil, or_false] at h
      obtain rfl | rfl := h
      · refine ⟨.array (params.map fun n => .data _), ?_, .inr (nodeless_numbers params)⟩
        rw [term, terms_eq_map, List.map_map]
        rfl
      · exact ⟨body, rfl, .inl List.mem_cons_self⟩
  | node v r args own given =>
      obtain ⟨y, hy, hu⟩ := exists_of_mem_terms h
      exact ⟨y, hu, .inl (List.mem_append_left _ hy)⟩

theorem exists_of_option {o : Outline} {name : Option String} {u : Term}
    (h : (name, some u) ∈ o.term.options) : ∃ y ∈ o.children, y.term = u := by
  cases o with
  | data | reference | array | function => cases h
  | object entries => exact exists_of_mem_options h
  | node v r args own given =>
      obtain h | h := List.mem_append.1 h
      · obtain ⟨y, hy, hu⟩ := exists_of_mem_options h
        exact ⟨y, List.mem_append_right _ (List.mem_append_left _ hy), hu⟩
      · obtain ⟨y, hy, hu⟩ := exists_of_mem_options h
        exact ⟨y, List.mem_append_right _ (List.mem_append_right _ hy), hu⟩

/-- An operation with a code of its own, anywhere in the term of an outline, is one of the
operations in the outline. -/
theorem exists_node {x t : Term} {v : Verb} (hv : v.code ≠ TermType.datum.code ∧
      v.code ≠ TermType.makeArray.code ∧ v.code ≠ TermType.makeObject.code ∧
      v.code ≠ TermType.func.code ∧ v.code ≠ Verb.var.code) (hx : x.tag = some v.code)
    (h : x.Inside t) : ∀ {o : Outline}, o.term = t →
      ∃ r args own given, Within (node v r args own given) o ∧
        (node v r args own given).term = x := by
  -- The way down from the term to `x` is followed in the outline, child by child.
  induction h with
  | refl =>
      rintro o rfl
      obtain ⟨hdatum, harray, hobject, hfunc, hvar⟩ := hv
      cases o with
      | data d => exact absurd (Option.some.inj hx).symm hdatum
      | array items => exact absurd (Option.some.inj hx).symm harray
      | object entries => exact absurd (Option.some.inj hx).symm hobject
      | reference n => exact absurd (Option.some.inj hx).symm hvar
      | function source params body => exact absurd (Option.some.inj hx).symm hfunc
      | node v' r args own given =>
          obtain rfl := Verb.code_injective (Option.some.inj hx)
          exact ⟨r, args, own, given, .refl _, rfl⟩
  | argument _ hu ih =>
      rintro o rfl
      obtain ⟨y, rfl, hy⟩ := exists_of_argument hu
      obtain ⟨r, args, own, given, hwithin, hterm⟩ := ih rfl
      obtain hy | hy := hy
      · exact ⟨r, args, own, given, .child hwithin hy, hterm⟩
      · exact absurd hwithin (hy _ _ _ _ _)
  | option _ hu ih =>
      rintro o rfl
      obtain ⟨y, hy, rfl⟩ := exists_of_option hu
      obtain ⟨r, args, own, given, hwithin, hterm⟩ := ih rfl
      exact ⟨r, args, own, given, .child hwithin hy, hterm⟩

end Outline

/-! ### Queries -/

/-- The options of a term that a value was compiled to are settled by the settings of the value
and by the scope. Every operation of the outline stands at a place of the value, and its options
are settled by the settings above that place (`Outline.Scoped`); and every operation of the
term that listens to settings is one of those. -/
structure Optioned (c : Scope) (v : Value) (t : Term) : Prop where
  outlined : ∃ o : Outline, o.term = t ∧ (∃ m m', Lowers c [] v m o m') ∧ o.Scoped c v ∧
    ∀ x op, x.Inside t → x.tag = some op.code → op.settings ≠ [] →
      ∃ r args own given, Outline.Within (.node op r args own given) o ∧
        (Outline.node op r args own given).term = x

theorem Lowers.optioned {c : Scope} (hc : c.Typed) {v : Value} (hv : v.LaidOut) {m m' : Mark}
    {o : Outline} (h : Lowers c [] v m o m') : Optioned c v o.term :=
  ⟨o, rfl, ⟨m, m', h⟩, h.scoped hc hv (.place .root) nofun,
    fun _ _ hx htag hop => Outline.exists_node (Verb.code_ne_of_settings hop) htag hx rfl⟩

/-- Without its settings a value becomes the same term, but for the options that settings give,
and takes the same numbers. -/
structure SetterFree (c : Scope) (v : Value) (p : Progress) (t : Term) (p' : Progress) : Prop where
  setterless : v.bare.Throughout fun w => w.isSetting = false
  same : ∃ u q, (v.bare.lower c).run p = (.ok u, q) ∧ t.Same u ∧ p'.Agrees q

/-- What can be built is compiled with exactly those options that its settings and the scope
call for, and its settings contribute nothing else. -/
theorem optioned_of_built {v : Value} {c : Scope} (hv : v.Built) (hc : c.Typed) :
    (∀ p t p', (v.lower c).run p = (.ok t, p') → Optioned c v t ∧ SetterFree c v p t p') ∧
    ∀ token j q j', (compile v c token).run j = (.ok q, j') →
      ∃ t p', q.term = some t ∧ j' = j.resume p' ∧ Optioned c v t ∧
        SetterFree c v j.progress t p' := by
  have hlaid := hv.laidOut
  have hlower (p : Progress) (t : Term) (p' : Progress) (h : (v.lower c).run p = (.ok t, p')) :
      Optioned c v t ∧ SetterFree c v p t p' := by
    constructor
    · obtain ⟨o, ho, rfl⟩ := lower_becomes (r := []) v h
      exact ho.optioned hc hlaid
    · have hmatches := alike_lower hlaid hc hc rfl p p ⟨rfl, rfl⟩
      rw [h] at hmatches
      generalize hbare : (v.bare.lower c).run p = right at hmatches
      cases hmatches with
      | ok hsame hp => exact ⟨Value.setterless_bare hlaid, _, _, hbare, hsame, hp⟩
  refine ⟨hlower, fun token j q j' h => ?_⟩
  obtain ⟨t, p, ht, hterm, hj⟩ := compile_eq_ok h
  exact ⟨t, p, hterm, hj, hlower _ _ _ ht⟩

/-- A table that may be read outdated. -/
def staleTable : Value :=
  .expr (.setting .useOutdated) [.expr (.verb .table) [.text "t"], .bool true]

/-- The rows of that table are counted, and the count must not be outdated. -/
def staleCount : Value :=
  .expr (.setting .useOutdated) [.expr (.verb .count) [staleTable], .bool false]

theorem built_staleCount : staleCount.Built := by
  have hflag (b : Bool) : ∀ w ∈ [Value.bool b], w.Built := List.forall_mem_singleton.2 (.leaf rfl)
  have htable : Query.call "table" ⟨[.text "t"], []⟩ = .ok (.expr (.verb .table) [.text "t"]) := rfl
  have hstale : (Value.expr (.verb .table) [.text "t"]).method "use_outdated" ⟨[.bool true], []⟩ =
      .ok staleTable := rfl
  have hcount : staleTable.method "count" ⟨[], []⟩ = .ok (.expr (.verb .count) [staleTable]) := rfl
  have hfresh : (Value.expr (.verb .count) [staleTable]).method "use_outdated" ⟨[.bool false], []⟩ =
      .ok staleCount := rfl
  have built_table : (Value.expr (.verb .table) [.text "t"]).Built :=
    .call (by decide) (List.forall_mem_singleton.2 (.leaf rfl)) (List.forall_mem_nil _) htable
  have built_stale : staleTable.Built :=
    .method built_table (hflag true) (List.forall_mem_nil _) hstale
  have built_count : (Value.expr (.verb .count) [staleTable]).Built :=
    .method built_stale (List.forall_mem_nil _) (List.forall_mem_nil _) hcount
  exact .method built_count (hflag false) (List.forall_mem_nil _) hfresh

/-- The table is sent with what is set on it, and not with what is set on the count. -/
theorem optioned_staleCount : ∃ t p',
    (staleCount.lower .initial).run ⟨1, 0, .text ""⟩ = (.ok t, p') ∧
    t.args.map (·.options) = [[(some "use_outdated", some (Term.ofDatum (Datum.ofBool true)))]] ∧
    Optioned .initial staleCount t ∧ SetterFree .initial staleCount ⟨1, 0, .text ""⟩ t p' := by
  obtain ⟨t, p', hrun, hoptions⟩ : ∃ t p',
      (staleCount.lower .initial).run ⟨1, 0, .text ""⟩ = (.ok t, p') ∧
      t.args.map (·.options) = [[(some "use_outdated", some (Term.ofDatum (Datum.ofBool true)))]] :=
    ⟨_, _, rfl, rfl⟩
  obtain ⟨hlower, -⟩ := optioned_of_built built_staleCount Scope.initial_typed
  exact ⟨t, p', hrun, hoptions, hlower _ _ _ hrun⟩

end QueryDriver
