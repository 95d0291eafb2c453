import QueryDriver.Proofs.Compilation.Boundary
import QueryDriver.Proofs.Lowering.Hygiene
import QueryDriver.Proofs.Number.Exact

/-!
# Variables of a query

What is said of the parameters and variables of an outline holds of the term that is sent.
The wire shows numbers as doubles, so that different numbers look different there takes
numbers that doubles can hold; the rest holds whatever the counter says.
-/

namespace QueryDriver

open Wire

/-! ### Parameters and variables of a term -/

mutual

/-- The parameters of all functions of a term, as they are sent. -/
def Wire.Term.binders : Term → List Term
  | ⟨tag, _, args, options⟩ =>
    (if tag = some TermType.func.code then (args.headD Term.empty).args else [])
      ++ (Term.bindersEach args ++ Term.bindersOf options)

def Wire.Term.bindersEach : List Term → List Term
  | [] => []
  | t :: ts => t.binders ++ Term.bindersEach ts

def Wire.Term.bindersOf : List (Option String × Option Term) → List Term
  | [] => []
  | (_, value) :: os => Term.bindersIn value ++ Term.bindersOf os

def Wire.Term.bindersIn : Option Term → List Term
  | none => []
  | some t => t.binders

end

/-- Every variable of a term is in the second argument of a function that has its number
among its parameters. -/
inductive Wire.Term.Bound : List Term → Term → Prop where
  | reference {env : List Term} {t number : Term} (htag : t.tag = some Verb.var.code)
      (hargs : t.args = [number]) (hoptions : t.options = []) (h : number ∈ env) : Bound env t
  | function {env : List Term} {t params body : Term} (htag : t.tag = some TermType.func.code)
      (hargs : t.args = [params, body]) (hoptions : t.options = []) (hparams : Bound env params)
      (hbody : Bound (params.args ++ env) body) : Bound env t
  | other {env : List Term} {t : Term} (hvar : t.tag ≠ some Verb.var.code)
      (hfunc : t.tag ≠ some TermType.func.code) (hargs : ∀ a ∈ t.args, Bound env a)
      (hoptions : ∀ o ∈ t.options, ∀ a, o.2 = some a → Bound env a) : Bound env t

theorem bindersOf_append (os qs : List (Option String × Option Term)) :
    Term.bindersOf (os ++ qs) = Term.bindersOf os ++ Term.bindersOf qs := by
  induction os with
  | nil => rfl
  | cons o os ih => simp [Term.bindersOf, ih]

theorem binders_ofDatum (d : Datum) : (Term.ofDatum d).binders = [] := rfl

theorem binders_makeArray (ts : List Term) :
    (Term.makeArray ts).binders = Term.bindersEach ts := by
  rw [Term.makeArray, Term.binders]
  simp [Term.empty, Term.bindersOf, TermType.code]

theorem bindersEach_numbers (ns : List Nat) : Term.bindersEach (ns.map numberTerm) = [] := by
  induction ns with
  | nil => rfl
  | cons n ns ih => simp [Term.bindersEach, ih, numberTerm, binders_ofDatum]

theorem binders_functionTerm (params : List Nat) (body : Term) :
    (functionTerm params body).binders = params.map numberTerm ++ body.binders := by
  rw [functionTerm, Term.binders]
  simp only [Term.bindersEach, binders_makeArray, bindersEach_numbers]
  simp [Term.empty, Term.bindersOf, Term.makeArray]

theorem Verb.code_ne_func (v : Verb) : v.code ≠ TermType.func.code := by
  cases v <;> decide

theorem Verb.code_ne_var {v : Verb} (h : v ≠ .var) : v.code ≠ Verb.var.code := by
  revert h
  cases v <;> decide

mutual

/-- The parameters of a term are those of its outline. -/
theorem Outline.binders_term : ∀ o : Outline, o.term.binders = o.binders.map numberTerm
  | .data d => binders_ofDatum d
  | .reference n => by
      simp [Outline.term, Term.binders, Outline.binders, Verb.code_ne_func, Term.bindersEach,
        Term.bindersOf, Term.empty, numberTerm, binders_ofDatum]
  | .array items => by
      rw [Outline.term, binders_makeArray, Outline.binders_terms, Outline.binders]
  | .object entries => by
      rw [Outline.term, Term.binders, Outline.binders, ← Outline.binders_options]
      simp [TermType.code, Term.bindersEach, Term.empty]
  | .function _ params body => by
      rw [Outline.term, binders_functionTerm, Outline.binders_term body, Outline.binders,
        List.map_append]
  | .node v _ args own given => by
      rw [Outline.term, Term.binders, Outline.binders, Outline.binders_terms, bindersOf_append,
        Outline.binders_options, Outline.binders_options]
      simp [Verb.code_ne_func]

theorem Outline.binders_terms : ∀ os : List Outline,
    Term.bindersEach (Outline.terms os) = (Outline.bindersEach os).map numberTerm
  | [] => rfl
  | o :: os => by
      rw [Outline.terms, Term.bindersEach, Outline.binders_term o, Outline.binders_terms os,
        Outline.bindersEach, List.map_append]

theorem Outline.binders_options : ∀ os : List (String × Outline),
    Term.bindersOf (Outline.options os) = (Outline.bindersOf os).map numberTerm
  | [] => rfl
  | (_, o) :: os => by
      rw [Outline.options, Term.bindersOf, Term.bindersIn, Outline.binders_term o,
        Outline.binders_options os, Outline.bindersOf, List.map_append]

end

theorem bound_ofDatum {env : List Term} (d : Datum) : (Term.ofDatum d).Bound env := by
  apply Term.Bound.other
  · change some TermType.datum.code ≠ _
    decide
  · change some TermType.datum.code ≠ _
    decide
  · exact nofun
  · exact nofun

theorem bound_makeArray {env : List Term} {ts : List Term} (h : ∀ t ∈ ts, t.Bound env) :
    (Term.makeArray ts).Bound env := by
  apply Term.Bound.other
  · change some TermType.makeArray.code ≠ _
    decide
  · change some TermType.makeArray.code ≠ _
    decide
  · exact h
  · exact nofun

theorem bound_numbers {env : List Term} (ns : List Nat) :
    (Term.makeArray (ns.map numberTerm)).Bound env :=
  bound_makeArray (List.forall_mem_map.2 fun _ _ => bound_ofDatum _)

theorem bound_terms {env : List Term} {os : List Outline} (h : ∀ o ∈ os, o.term.Bound env) :
    ∀ t ∈ Outline.terms os, t.Bound env := by
  rw [Outline.terms_eq_map]
  exact List.forall_mem_map.2 h

theorem bound_options {env : List Term} {os : List (String × Outline)}
    (h : ∀ o ∈ os.map (·.2), o.term.Bound env) :
    ∀ o ∈ Outline.options os, ∀ t, o.2 = some t → t.Bound env := by
  rw [Outline.options_eq_map]
  intro o ho t ht
  obtain ⟨e, he, rfl⟩ := List.mem_map.1 ho
  cases ht
  exact h _ (List.mem_map_of_mem he)

/-- What is bound in an outline is bound in its term. -/
theorem Outline.Bound.term {ns : List Nat} {o : Outline} (h : o.Bound ns) {env : List Term}
    (henv : ∀ n ∈ ns, numberTerm n ∈ env) : o.term.Bound env := by
  induction h generalizing env with
  | reference h => exact .reference rfl rfl rfl (henv _ h)
  | @function ns source params body _ ih =>
      refine .function rfl rfl rfl (bound_numbers _) (ih fun n hn => ?_)
      change numberTerm n ∈ params.map numberTerm ++ env
      have hn : n ∈ params ++ ns := by
        split at hn
        · exact hn
        · exact List.mem_append_right _ hn
      obtain hn | hn := List.mem_append.1 hn
      · exact List.mem_append_left _ (List.mem_map_of_mem hn)
      · exact List.mem_append_right _ (henv n hn)
  | @plain ns o ho _ ih =>
      have hchildren : ∀ x ∈ o.children, x.term.Bound env := fun x hx => ih x hx henv
      cases o with
      | data d => exact bound_ofDatum d
      | reference n => cases ho
      | function => cases ho
      | array items => exact bound_makeArray (bound_terms hchildren)
      | object entries =>
          apply Term.Bound.other
          · change some TermType.makeObject.code ≠ _
            decide
          · change some TermType.makeObject.code ≠ _
            decide
          · exact nofun
          · exact bound_options hchildren
      | node v r args own given =>
          simp only [children, List.forall_mem_append] at hchildren
          obtain ⟨hargs, hown, hgiven⟩ := hchildren
          have hv : v ≠ .var := by
            rintro rfl
            cases ho
          apply Term.Bound.other
          · exact fun h => Verb.code_ne_var hv (Option.some.inj h)
          · exact fun h => Verb.code_ne_func v (Option.some.inj h)
          · exact bound_terms hargs
          · intro o ho
            obtain ho | ho := List.mem_append.1 ho
            · exact bound_options hown o ho
            · exact bound_options hgiven o ho

theorem numberTerm_injOn {m n : Nat} (hm : m < 2 ^ 53) (hn : n < 2 ^ 53)
    (h : numberTerm m = numberTerm n) : m = n := by
  apply Double.ofNat_injOn hm hn
  simpa [numberTerm, Term.ofDatum, Datum.ofDouble] using h

theorem Numbered.nodup_map {n n' : Nat} {ns : List Nat} (h : Numbered n n' ns) (hn : n' ≤ 2 ^ 53) :
    (ns.map numberTerm).Nodup := by
  apply List.Nodup.map_on _ h.nodup
  intro a ha b hb
  exact numberTerm_injOn ((h.within a ha).2.trans_le hn) ((h.within b hb).2.trans_le hn)

/-! ### Queries -/

/-- The variables of a term that a value was compiled to, with numbers from `n` up to but
without `n'`, are in order: its parameters all differ, its variables are bound, and every
function that was made of a callable is the one whose parameters the callable was handed. -/
structure Hygienic (c : Scope) (v : Value) (n n' : Nat) (t : Term) : Prop where
  outlined : ∃ o : Outline, o.term = t ∧ (∃ m m', Lowers c [] v m o m') ∧
    Numbered n n' o.binders ∧ o.Bound [] ∧ o.Traced c ∧ t.binders = o.binders.map numberTerm
  bound : t.Bound []
  distinct : n' ≤ 2 ^ 53 → t.binders.Nodup

theorem Lowers.hygienic {c : Scope} (hc : c.Closed) {v : Value} (hv : v.ScopedBy []) {m m' : Mark}
    {o : Outline} (h : Lowers c [] v m o m') : Hygienic c v m.next m'.next o.term := by
  have hbound : o.Bound [] := h.bound hc hv nofun
  constructor
  · exact ⟨o, rfl, ⟨m, m', h⟩, h.numbered, hbound, h.traced, o.binders_term⟩
  · exact hbound.term nofun
  · intro hn
    rw [o.binders_term]
    exact h.numbered.nodup_map hn

/-- A callable with one parameter, written in place. -/
def Face.unary : Face := .function Face.anonymous ⟨["x"], [], false, []⟩

/-- Two callables one inside of the other, the inner one using the parameters of both. -/
def nestedPair : Value :=
  .func .unary fun
    | [x] => .ok (.func .unary fun
      | [y] => .ok (.list [.placeholder x, .placeholder y])
      | _ => .ok .null)
    | _ => .ok .null

theorem scopedBy_nestedPair : nestedPair.ScopedBy [] := by
  refine .func fun params w _ hw => ?_
  split at hw <;> cases hw
  · refine .func fun params w _ hw => ?_
    split at hw <;> cases hw
    · refine .parts rfl fun w hw => ?_
      cases hw with
      | item hw =>
          simp only [List.mem_cons, List.not_mem_nil, or_false] at hw
          obtain rfl | rfl := hw
          · exact .placeholder (by simp)
          · exact .placeholder (by simp)
    · exact .parts rfl (Value.forall_isPart_leaf rfl)
  · exact .parts rfl (Value.forall_isPart_leaf rfl)

theorem Scope.initial_closed : Scope.initial.Closed := by
  refine ⟨.text _, fun s => ?_⟩
  cases s <;> first | exact .text _ | exact .bool _

end QueryDriver
