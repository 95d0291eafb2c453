import QueryDriver.Proofs.Builder.Positions
import QueryDriver.Proofs.Compilation.Agreement
import QueryDriver.Proofs.Compilation.Options
import QueryDriver.Proofs.Lowering.Calling
import QueryDriver.Proofs.Lowering.Holding

/-!
# Functions of operations

Where an operation takes a function, the server is sent one with as many parameters as the
operation passes, or else a constant, in which the current row is mentioned nowhere
(`Wire.Term.Suits`). A callable always becomes a function, and one that requires another number of
parameters keeps the whole query from being compiled.
-/

namespace QueryDriver

open Wire

/-! ### Terms for functions -/

namespace Wire.Term

/-- A function with `k` parameters. -/
def IsFunction (t : Term) (k : Nat) : Prop :=
  ∃ params body, params.length = k ∧ t = functionTerm params body

/-- A datum, an array, an object or a script, with the current row nowhere in it. -/
structure IsRowless (t : Term) : Prop where
  kind : t.kind ∈ [TermType.datum.code, TermType.makeArray.code, TermType.makeObject.code,
    Verb.javascript.code]
  rowless : ∀ x : Term, x.Inside t → x.kind ≠ Verb.implicitVar.code

theorem anyMentionsRow_of_mem {ts : List Term} {u : Term} (hu : u ∈ ts)
    (h : u.mentionsRow = true) : anyMentionsRow ts = true := by
  induction ts with
  | nil => cases hu
  | cons t ts ih =>
      obtain rfl | hu := List.mem_cons.1 hu
      · simp [anyMentionsRow, h]
      · simp [anyMentionsRow, ih hu]

theorem anyOptionMentionsRow_of_mem {os : List (Option String × Option Term)}
    {name : Option String} {u : Term} (hu : (name, some u) ∈ os) (h : u.mentionsRow = true) :
    anyOptionMentionsRow os = true := by
  induction os with
  | nil => cases hu
  | cons o os ih =>
      obtain rfl | hu := List.mem_cons.1 hu
      · simp [anyOptionMentionsRow, valueMentionsRow, h]
      · simp [anyOptionMentionsRow, ih hu]

theorem mentionsRow_eq_or (t : Term) : t.mentionsRow = (t.kind == Verb.implicitVar.code ||
    anyMentionsRow t.args || anyOptionMentionsRow t.options) := by
  cases t
  rw [Term.mentionsRow]
  rfl

theorem Inside.mentionsRow {x t : Term} (h : x.Inside t) (hx : x.mentionsRow = true) :
    t.mentionsRow = true := by
  induction h with
  | refl => exact hx
  | argument _ hu ih => simp [mentionsRow_eq_or, anyMentionsRow_of_mem hu ih]
  | option _ hu ih => simp [mentionsRow_eq_or, anyOptionMentionsRow_of_mem hu ih]

theorem isRowless_of_isConstant {t : Term} (h : t.isConstant = true) : t.IsRowless := by
  simp only [isConstant, Bool.and_eq_true, Bool.not_eq_true'] at h
  obtain ⟨hkind, hrow⟩ := h
  constructor
  · simp only [TermType.isLeafCode, Bool.or_eq_true, beq_iff_eq] at hkind
    simp only [List.mem_cons, List.not_mem_nil, or_false]
    exact or_assoc.1 (or_assoc.1 hkind)
  · intro x hx himplicit
    rw [hx.mentionsRow (by simp [mentionsRow_eq_or, himplicit])] at hrow
    cases hrow

/-- What a value became where an operation passes `k` parameters to a function: a function of `k`
parameters, or a constant unless the value is a callable. A callable that takes only what it
requires has to require that many. -/
structure Suits (t : Term) (k : Nat) (b : Value) : Prop where
  form : t.IsFunction k ∨ t.IsRowless
  applied : b.isApplied = true → t.IsFunction k
  agrees : ∀ face run s, b = .func face run → face.signature = .ok s → s.variadic = false →
    s.required.length = k

end Wire.Term

/-! ### Arguments that are functions -/

theorem Signature.Agrees.passed_eq {s : Signature} {k : Nat} (h : s.Agrees k) : s.passed k = k := by
  cases hvariadic : s.variadic with
  | true => rw [passed_of_variadic hvariadic, Int.toNat_natCast]
  | false =>
      rw [passed_of_fixed hvariadic]
      obtain htrue | hany | hequal := h
      · rw [hvariadic] at htrue
        cases htrue
      · omega
      · omega

theorem isFunction_function (source : Value) (n k : Nat) (o : Outline) :
    (Outline.function source (List.range' n k) o).term.IsFunction k :=
  ⟨_, _, List.length_range', rfl⟩

/-- What a callable is handed where an operation passes `k` parameters. -/
theorem LowersCall.suits {c : Scope} {r : Trail} {b : Value} {k : Nat} {m m' : Mark} {o : Outline}
    (h : LowersCall c r b (.int k) m o m') : o.term.Suits k b := by
  cases h with
  | @call r face run hint result m m' count o htype hcount hadmits hresult h =>
      cases hs : face.signature with
      | error reason =>
          rw [parametersOf, Face.arity, hs] at hcount
          cases hcount
      | ok s =>
          have hinteger : (Value.int k).integer? = some (k : Int) := rfl
          obtain ⟨shown, hshown⟩ := (Value.isInteger_of_integer? hinteger).display_ok
          rw [parametersOf_of_integer hs hinteger hshown] at hcount
          split at hcount
          case isFalse => cases hcount
          case isTrue hagrees =>
            rw [hagrees.passed_eq] at hcount
            cases hcount
            have hfunction := isFunction_function (.func face run) m.next k o
            refine ⟨.inl hfunction, fun _ => hfunction, fun face' run' s' hb hs' hfixed => ?_⟩
            cases hb
            cases hs.symm.trans hs'
            rw [← Signature.passed_of_fixed hfixed, hagrees.passed_eq]

/-- A class is not compiled. -/
theorem Lowers.isType_eq_false {c : Scope} {r : Trail} {face : Face}
    {run : List Nat → Except Failure Value} {m m' : Mark} {o : Outline}
    (h : Lowers c r (.func face run) m o m') : face.isType = false := by
  cases h with
  | scalar h => cases h
  | callable h =>
      cases h with
      | call htype => exact htype

/-- What a builder has wrapped as a function of `k` parameters. -/
theorem Lowers.suits {c : Scope} {r : Trail} {b : Value} {k : Nat} {m m' : Mark} {o : Outline}
    (h : Lowers c r (.expr .func [b, .int k]) m o m') : o.term.Suits k b := by
  have hneither (happlied : b.isApplied = false) {m m' : Mark} {o : Outline}
      (h : Lowers c r b m o m') (face : Face) (run : List Nat → Except Failure Value) :
      b ≠ .func face run := by
    rintro rfl
    simp [Value.isApplied, h.isType_eq_false] at happlied
  cases h with
  | scalar h => cases h
  | callable h => cases h
  | applied h => exact h.suits
  | constant happlied h hconstant =>
      refine ⟨.inr (Term.isRowless_of_isConstant hconstant), fun htrue => ?_,
        fun face run _ hb => absurd hb (hneither happlied h face run)⟩
      rw [happlied] at htrue
      cases htrue
  | wrapped happlied h _ hcount =>
      rw [Value.parameterCount_int, Int.toNat_natCast] at hcount
      cases hcount
      exact ⟨.inl (isFunction_function ..), fun _ => isFunction_function ..,
        fun face run _ hb => absurd hb (hneither happlied h face run)⟩

/-- Where an argument stands among the arguments that are sent by position: those that are left
out do not count. -/
def sentBefore (args : List Value) (i : Nat) : Nat :=
  ((args.take i).filter fun a => !a.isAbsent).length

theorem getElem?_sentBefore {args : List Value} {i : Nat} {x : Value} (hx : args[i]? = some x)
    (habsent : x.isAbsent = false) :
    (args.filter fun a => !a.isAbsent)[sentBefore args i]? = some x := by
  have hsplit : args = args.take i ++ x :: args.drop (i + 1) := by
    obtain ⟨hi, rfl⟩ := List.getElem?_eq_some_iff.1 hx
    simp
  rw [sentBefore]
  generalize args.take i = front at hsplit ⊢
  rw [hsplit, List.filter_append, List.getElem?_append_right le_rfl, Nat.sub_self,
    List.filter_cons_of_pos (by simp [habsent])]
  rfl

theorem LowersEach.exists_of_getElem? {c : Scope} {r : Trail} {vs : List Value} {m m' : Mark}
    {os : List Outline} (h : LowersEach c r vs m os m') {j : Nat} {v : Value}
    (hv : vs[j]? = some v) :
    ∃ o m₁ m₂, os[j]? = some o ∧ Lowers c r v m₁ o m₂ := by
  induction j generalizing vs m os with
  | zero =>
      cases h <;> cases hv
      exact ⟨_, _, _, rfl, ‹_›⟩
  | succ j ih =>
      cases h with
      | nil => cases hv
      | cons _ hs => exact ih hs hv

namespace Value

/-- A function whose number of parameters the caller has chosen. -/
def isExplicit : Value → Bool
  | .expr .func _ => true
  | _ => false

theorem wrapFunction_of_isExplicit {b : Value} (hb : b.isExplicit = false) (hint : Value) :
    b.wrapFunction hint = .expr .func [b, hint] := by
  unfold wrapFunction
  split
  · cases hb
  · rfl

end Value

namespace Verb

variable {v : Verb}

theorem afterDatabase?_of_takesFunctions (h : v.takesFunctions = true) :
    v.afterDatabase? = none ∧ v ≠ .tableCreate ∧ v ≠ .db := by
  revert h
  cases v <;> decide

theorem length_parameters_le (h : v.trailing?.isSome = true) :
    v.parameters.length ≤ v.leading ∧ v ≠ .orderBy := by
  revert h
  cases v <;> decide

/-- An argument that is a function is sent by position. -/
theorem positional_of_arrange {args : List Value} {a : Arrangement} (hfits : v.Fits args)
    (ha : v.arrange args = .ok a) {i k : Nat} (hi : v.passes? i = some k) {x : Value}
    (hx : args[i]? = some x) (habsent : x.isAbsent = false) :
    a.implicit = false ∧ a.positional[sentBefore args i]? = some x := by
  obtain ⟨hdatabase, hcreate, -⟩ := afterDatabase?_of_takesFunctions (takesFunctions_of_passes? hi)
  obtain ⟨rest, trailing, positional, fields, hrest, hpositional, rfl⟩ := arrange_ok ha
  rw [splitSpec, if_neg hcreate] at hpositional
  cases hpositional
  refine ⟨by simp [hdatabase], ?_⟩
  unfold splitOption at hrest
  split at hrest
  case h_1 =>
    cases hrest
    exact getElem?_sentBefore hx habsent
  case h_2 name hname =>
    obtain ⟨front, last, rfl, hfront⟩ := hfits.trailing (by rw [hname]; rfl)
    obtain ⟨hparameters, horder⟩ := length_parameters_le (v := v) (by rw [hname]; rfl)
    have hlt : i < front.length := by
      have hi := lt_length_of_passes? horder hi
      obtain hfront | ⟨-, hfront⟩ := hfront <;> omega
    rw [List.getLast?_concat, List.dropLast_concat] at hrest
    cases hrest
    rw [List.getElem?_append_left hlt] at hx
    rw [sentBefore, List.take_append_of_le_length hlt.le]
    exact getElem?_sentBefore hx habsent

/-- The term of an operation is sent what suits it, wherever the operation takes a function and a
builder has wrapped one. -/
def Supplied (v : Verb) (args : List Value) (x : Term) : Prop :=
  ∀ i k b, v.passes? i = some k → args[i]? = some (b.wrapFunction (.int k)) →
    b.isExplicit = false → ∃ u, x.args[sentBefore args i]? = some u ∧ u.Suits k b

end Verb

theorem Lowers.supplied {c : Scope} {r : Trail} {v : Verb} {args : List Value} {m m' : Mark}
    {o : Outline} (hfits : v.Fits args) (h : Lowers c r (.expr (.verb v) args) m o m') :
    o.term.tag = some v.code ∧ v.Supplied args o.term := by
  cases h with
  | scalar h => cases h
  | callable h => cases h
  | verb ha hpositional hown hgiven =>
      refine ⟨rfl, fun i k b hi hb hexplicit => ?_⟩
      rw [Value.wrapFunction_of_isExplicit hexplicit] at hb
      obtain ⟨himplicit, hat⟩ := Verb.positional_of_arrange hfits ha hi hb rfl
      rw [Arrangement.receiver, himplicit] at hpositional
      obtain ⟨o, _, _, ho, hlowers⟩ := hpositional.exists_of_getElem? hat
      refine ⟨o.term, ?_, hlowers.suits⟩
      rw [Outline.term, Outline.terms_eq_map]
      simp [ho]

/-! ### Operations of a query -/

namespace Outline

theorem mem_term_of_mem_children {y o : Outline} (hy : y ∈ o.children) :
    y.term ∈ o.term.args ∨ ∃ name, (name, some y.term) ∈ o.term.options := by
  have hoption {entries : List (String × Outline)} (hy : y ∈ entries.map (·.2)) :
      ∃ name, (name, some y.term) ∈ options entries := by
    obtain ⟨e, he, rfl⟩ := List.mem_map.1 hy
    rw [options_eq_map]
    exact ⟨some e.1, List.mem_map_of_mem he⟩
  cases o with
  | data | reference => cases hy
  | array items =>
      left
      rw [term, terms_eq_map]
      exact List.mem_map_of_mem hy
  | object entries => exact .inr (hoption hy)
  | function source params body =>
      obtain rfl := List.mem_singleton.1 hy
      exact .inl (List.mem_cons_of_mem _ List.mem_cons_self)
  | node v r args own given =>
      rw [children, ← List.map_append] at hy
      obtain hy | hy := List.mem_append.1 hy
      · left
        rw [term, terms_eq_map]
        exact List.mem_map_of_mem hy
      · right
        obtain ⟨name, hname⟩ := hoption hy
        refine ⟨name, ?_⟩
        rw [term, options_eq_map, options_eq_map, ← List.map_append, ← options_eq_map]
        exact hname

theorem Within.inside {x o : Outline} (h : Within x o) : x.term.Inside o.term := by
  induction h with
  | refl => exact .refl
  | child _ hy ih =>
      obtain harg | ⟨name, hoption⟩ := mem_term_of_mem_children hy
      · exact .argument ih harg
      · exact .option ih hoption

end Outline

theorem Verb.code_ne_of_takesFunctions {v : Verb} (h : v.takesFunctions = true) :
    v.code ≠ TermType.datum.code ∧ v.code ≠ TermType.makeArray.code ∧
      v.code ≠ TermType.makeObject.code ∧ v.code ≠ TermType.func.code ∧
      v.code ≠ Verb.var.code := by
  revert h
  cases v <;> decide

/-- The operations of a value that take functions are sent what suits them. -/
structure SuppliesFunctions (v : Value) (t : Term) : Prop where
  /-- Every operation of the term that takes functions was made of one in the value. -/
  term (x : Term) (op : Verb) : x.Inside t → x.tag = some op.code → op.takesFunctions = true →
    ∃ r args, v.Lies r (.expr (.verb op) args) ∧ op.Supplied args x
  /-- Whatever operation the value is bound to make is in the term. -/
  value (P : Verb → List Value → Prop) : v.Holds P → ∃ op args x, P op args ∧
    x.Inside t ∧ x.tag = some op.code ∧ op.Supplied args x

theorem Outline.Scoped.supplied {c : Scope} {root : Value} {o : Outline} (h : o.Scoped c root)
    (hroot : root.LaidOut) {x : Term} {op : Verb} (hx : x.Inside o.term)
    (htag : x.tag = some op.code) (hop : op.takesFunctions = true) :
    ∃ r args, root.Lies r (.expr (.verb op) args) ∧ op.Supplied args x := by
  obtain ⟨r, os, own, given, hwithin, rfl⟩ :=
    Outline.exists_node (Verb.code_ne_of_takesFunctions hop) htag hx rfl
  obtain ⟨⟨w, args, m, m', hplace, hnode, hlowers⟩, -⟩ := h _ _ _ _ _ hwithin
  obtain ⟨-, -, hdb⟩ := Verb.afterDatabase?_of_takesFunctions hop
  have hw : w = .expr (.verb op) args := by
    cases w with
    | expr =>
        cases hnode
        rfl
    | row | placeholder =>
        cases hnode
        cases hop
    | _ => cases hnode
  subst hw
  obtain hlies | hreceiver := hplace
  · exact ⟨r, args, hlies, (hlowers.supplied ((hlies.laidOut hroot).self _ _ rfl)).2⟩
  · cases hreceiver
    exact absurd rfl hdb

theorem Outline.Realizes.supplied {c : Scope} {P : Verb → List Value → Prop} {o : Outline}
    (h : o.Realizes c P) : ∃ op args x, P op args ∧ x.Inside o.term ∧ x.tag = some op.code ∧
      op.Supplied args x := by
  obtain ⟨r, op, args, m, x, m', hP, hfits, hlowers, hwithin⟩ := h
  obtain ⟨htag, hsupplied⟩ := hlowers.supplied hfits
  exact ⟨op, args, x.term, hP, hwithin.inside, htag, hsupplied⟩

theorem Lowers.suppliesFunctions {c : Scope} (hc : c.Typed) {v : Value} (hv : v.LaidOut)
    {m m' : Mark} {o : Outline} (h : Lowers c [] v m o m') : SuppliesFunctions v o.term :=
  ⟨fun _ _ hx htag hop => (h.scoped hc hv (.place .root) nofun).supplied hv hx htag hop,
    fun _ hheld => (h.realizes hv hheld).supplied⟩

/-- Where the operation takes a function it has a callable which always requires another number of
parameters than the operation passes. -/
def Verb.Misfits (v : Verb) (args : List Value) : Prop :=
  ∃ i k face run s, v.passes? i = some k ∧
    args[i]? = some ((Value.func face run).wrapFunction (.int k)) ∧
    face.signature = .ok s ∧ s.variadic = false ∧ s.required.length ≠ k

theorem Verb.Supplied.not_misfits {v : Verb} {args : List Value} {x : Term}
    (h : v.Supplied args x) : ¬v.Misfits args := by
  rintro ⟨i, k, face, run, s, hi, hargs, hs, hfixed, hne⟩
  obtain ⟨u, -, hsuits⟩ := h i k _ hi hargs rfl
  exact hne (hsuits.agrees face run s rfl hs hfixed)

theorem SuppliesFunctions.not_holds {v : Value} {t : Term} (h : SuppliesFunctions v t) :
    ¬v.Holds Verb.Misfits := by
  intro hheld
  obtain ⟨op, args, x, hmisfits, -, -, hsupplied⟩ := h.value _ hheld
  exact hsupplied.not_misfits hmisfits

/-- Builders wrap what they are given for a function with the number of parameters that the
operation passes, and wherever a query takes a function it is sent what suits that number. A
callable which always requires another number keeps what it is built into from being compiled. -/
theorem suppliesFunctions_of_built :
    (∀ op : Verb, op.takesFunctions = true → ∀ name args nodeArgs,
      (∀ receiver : Value, receiver.method name args = .ok (.expr (.verb op) nodeArgs) →
        Row.Makes Catalog.methods name op args nodeArgs) ∧
      (Query.call name args = .ok (.expr (.verb op) nodeArgs) →
        Row.Makes Catalog.functions name op args nodeArgs ∨
          .expr (.verb op) nodeArgs ∈ args.positional ++ args.keywords.map (·.2))) ∧
    ∀ v : Value, v.Built → ∀ c : Scope, c.Typed →
      (∀ p t p', (v.lower c).run p = (.ok t, p') → SuppliesFunctions v t) ∧
      (∀ token j q j', (compile v c token).run j = (.ok q, j') →
        ∃ t, q.term = some t ∧ SuppliesFunctions v t) ∧
      (v.Holds Verb.Misfits → ∀ token j q, ((compile v c token).run j).1 ≠ .ok q) := by
  refine ⟨fun op hop name args nodeArgs => ?_, fun v hv c hc => ?_⟩
  · exact ⟨fun receiver => Value.makes_of_method hop, Query.makes_of_call hop⟩
  · have hlower (p : Progress) (t : Term) (p' : Progress)
        (h : (v.lower c).run p = (.ok t, p')) : SuppliesFunctions v t := by
      obtain ⟨o, ho, rfl⟩ := lower_becomes (r := []) v h
      exact ho.suppliesFunctions hc hv.laidOut
    have hcompile (token : Int64) (j : Journal) (q : Query) (j' : Journal)
        (h : (compile v c token).run j = (.ok q, j')) :
        ∃ t, q.term = some t ∧ SuppliesFunctions v t := by
      obtain ⟨t, p, ht, hterm, -⟩ := compile_eq_ok h
      exact ⟨t, hterm, hlower _ _ _ ht⟩
    refine ⟨hlower, hcompile, fun hheld token j q h => ?_⟩
    obtain ⟨t, -, hsupplies⟩ := hcompile token j q _ (Prod.ext h rfl)
    exact hsupplies.not_holds hheld

/-- Rows of a table that are mapped by adding them up, two at a time. -/
def misfit : Value :=
  .expr (.verb .map) [.expr (.verb .table) [.text "t"], .expr .func [addition, .int 1]]

theorem built_addition : addition.Built := by
  refine .callable fun params w h => ?_
  obtain ⟨x, y, h⟩ | rfl := addition_cases h
  · exact .method (.leaf rfl) (List.forall_mem_singleton.2 (.leaf rfl)) (List.forall_mem_nil _) h
  · exact .leaf rfl

theorem built_misfit : misfit.Built := by
  have htable : Query.call "table" ⟨[.text "t"], []⟩ = .ok (.expr (.verb .table) [.text "t"]) := rfl
  have hmap : (Value.expr (.verb .table) [.text "t"]).method "map" ⟨[addition], []⟩ = .ok misfit :=
    rfl
  refine .method (.call (by decide) ?_ (List.forall_mem_nil _) htable)
    (List.forall_mem_singleton.2 built_addition) (List.forall_mem_nil _) hmap
  exact List.forall_mem_singleton.2 (.leaf rfl)

/-- An addition is wrapped as a function of two parameters where rows are reduced, and that is what
is sent. Where rows are mapped one at a time it is not compiled. -/
theorem suppliesFunctions_total :
    Row.Makes Catalog.methods "reduce" .reduce ⟨[addition], []⟩
      [.expr (.verb .table) [.text "t"], .expr .func [addition, .int 2], .absent] ∧
    Row.Makes Catalog.functions "asc" .asc ⟨[addition], []⟩ [.expr .func [addition, .int 1]] ∧
    (∃ t p', (total.lower .initial).run ⟨1, 0, .text ""⟩ = (.ok t, p') ∧
      SuppliesFunctions total t) ∧
    (∃ q j' t, (compile total .initial 1).run .fresh = (.ok q, j') ∧ q.term = some t ∧
      SuppliesFunctions total t) ∧
    ∀ token j q, ((compile misfit .initial token).run j).1 ≠ .ok q := by
  obtain ⟨hmakes, hbuilt⟩ := suppliesFunctions_of_built
  obtain ⟨hlower, hcompile, -⟩ := hbuilt total built_total .initial Scope.initial_typed
  obtain ⟨-, -, hmisfit⟩ := hbuilt misfit built_misfit .initial Scope.initial_typed
  obtain ⟨hmethod, -⟩ := hmakes .reduce rfl "reduce" ⟨[addition], []⟩
    [.expr (.verb .table) [.text "t"], .expr .func [addition, .int 2], .absent]
  obtain ⟨-, hcall⟩ := hmakes .asc rfl "asc" ⟨[addition], []⟩ [.expr .func [addition, .int 1]]
  have hasc : Query.call "asc" ⟨[addition], []⟩ =
      .ok (.expr (.verb .asc) [.expr .func [addition, .int 1]]) := rfl
  have hnew : .expr (.verb .asc) [.expr .func [addition, .int 1]] ∉ [addition] ++ [] := by
    rw [List.append_nil, List.mem_singleton]
    exact fun h => (by cases h)
  obtain ⟨t, p', hrun⟩ : ∃ t p', (total.lower .initial).run ⟨1, 0, .text ""⟩ = (.ok t, p') :=
    ⟨_, _, rfl⟩
  obtain ⟨q, j', hq⟩ : ∃ q j', (compile total .initial 1).run .fresh = (.ok q, j') := ⟨_, _, rfl⟩
  obtain ⟨u, hterm, hsupplies⟩ := hcompile _ _ _ _ hq
  refine ⟨hmethod _ method_total, (hcall hasc).resolve_right hnew,
    ⟨t, p', hrun, hlower _ _ _ hrun⟩, ⟨q, j', u, hq, hterm, hsupplies⟩, hmisfit ?_⟩
  exact .self ⟨.map, _, rfl, 1, 1, .binary, _, ⟨["x", "y"], [], false, []⟩, rfl, rfl, rfl, rfl,
    by decide⟩

end QueryDriver
