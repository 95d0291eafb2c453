import QueryDriver.Proofs.Builder.Built

/-!
# Where operations take functions

`Verb.passes?` lists the arguments of operations that are functions, each with the number of
parameters that the server passes to it. Whatever a caller puts there a builder wraps as a
function of that many parameters (`Row.Wraps`), but for the orderings of a sequence, which may
stand by themselves. As with the layout of arguments, this is a matter of the rows of the catalog,
and no operation that takes functions is made in any other way (`Row.Makes`).
-/

namespace QueryDriver

/-! ### The positions -/

namespace Verb

/-- The arguments of an operation up to the last one that may be a function, with the number of
parameters of those that are. -/
def parameters : Verb → List (Option Nat)
  | .asc | .desc => [some 1]
  | .filter | .map | .concatMap | .indexesOf | .forEach | .update | .replace => [none, some 1]
  | .reduce => [none, some 2]
  | .indexCreate => [none, none, some 1]
  | .innerJoin | .outerJoin => [none, none, some 2]
  | .groupedMapReduce => [none, some 1, some 1, some 2]
  | _ => []

/-- How many parameters an operation passes to the function at a position of its arguments. A
sequence is ordered by any number of functions. -/
def passes? (v : Verb) (i : Nat) : Option Nat :=
  if v = .orderBy then (if i = 0 then none else some 1) else (v.parameters[i]?).join

/-- Some argument of the operation is a function. -/
def takesFunctions (v : Verb) : Bool := v = .orderBy || !v.parameters.isEmpty

/-- What an operation has for an argument that is a function of `k` parameters, given what the
caller put there. An ordering is left as it is, and an index may do without a function. -/
def function? (v : Verb) (k : Nat) (b : Value) : Option Value :=
  if v = .indexCreate ∧ b.isAbsent = true then none
  else some (if v = .orderBy ∧ b.isOrdering = true then b else b.wrapFunction (.int k))

/-- The role in which a builder takes such an argument, orderings apart. -/
def functionRole (v : Verb) (k : Nat) : Role :=
  if v = .indexCreate then .optionalFunction k else .function k

theorem eq_indexCreate_of_function? {v : Verb} {k : Nat} {b : Value} (h : v.function? k b = none) :
    v = .indexCreate := by
  unfold function? at h
  split at h
  · exact And.left ‹_›
  · cases h

theorem passes?_eq {v : Verb} (hv : v ≠ .orderBy) (i : Nat) :
    v.passes? i = (v.parameters[i]?).join := if_neg hv

theorem lt_length_of_passes? {v : Verb} (hv : v ≠ .orderBy) {i k : Nat} (h : v.passes? i = some k) :
    i < v.parameters.length := by
  rw [passes?_eq hv, Option.join_eq_some_iff] at h
  exact (List.getElem?_eq_some_iff.1 h).1

theorem takesFunctions_of_passes? {v : Verb} {i k : Nat} (h : v.passes? i = some k) :
    v.takesFunctions = true := by
  by_cases hv : v = .orderBy
  · simp [takesFunctions, hv]
  · have hlength := lt_length_of_passes? hv h
    cases hparameters : v.parameters with
    | nil => simp [hparameters] at hlength
    | cons => simp [takesFunctions, hparameters]

end Verb

/-! ### What a call gives a parameter -/

theorem getElem?_fill {params : List Parameter} {positional values : List Value}
    {keywords : List (String × Value)} (h : fill params positional keywords = .ok values)
    {j : Nat} {p : Parameter} (hp : params[j]? = some p) :
    values[j]? = (positional[j]?).or (p.valueIn keywords) := by
  induction params generalizing positional values j with
  | nil => cases hp
  | cons q params ih =>
      obtain ⟨v, vs, rfl, hv, hrest⟩ := fill_cons h
      cases j with
      | zero =>
          cases hp
          rw [hv]
          rfl
      | succ j =>
          have htail : positional[j + 1]? = positional.tail[j]? := by simp
          rw [List.getElem?_cons_succ, htail]
          exact ih hrest hp

namespace Row

/-- What a call gives the row at a position behind the receivers: the argument there, or else what
the parameter has without it. -/
def passed (row : Row) (args : Arguments) (j : Nat) : Option Value :=
  (args.positional[j]?).or ((row.params[j]?).bind fun p => p.valueIn args.keywords)

/-- Behind parameters that become one argument each, the arguments that a parameter becomes stand
at its own position. -/
theorem exists_of_convert {params : List Parameter} {values ws : List Value} {j : Nat}
    {p : Parameter} {value : Value} (hp : params[j]? = some p) (hvalue : values[j]? = some value)
    (hsingle : ∀ q ∈ params.take j, q.role.isSingle = true) (h : convert params values = .ok ws) :
    ∃ front part back, ws = front ++ (part ++ back) ∧ front.length = j ∧
      p.role.convert value = .ok part ∧ (j + 1 = params.length → back = []) := by
  obtain ⟨parts, hparts, rfl⟩ := convert_ok h
  clear h
  induction j generalizing params values parts with
  | zero =>
      cases params <;> cases hp
      cases values <;> cases hvalue
      rename_i params values
      cases hparts with
      | cons hpart hparts =>
          refine ⟨[], _, _, rfl, rfl, hpart, fun hlength => ?_⟩
          obtain rfl : params = [] := by simpa using hlength
          cases hparts
          rfl
  | succ j ih =>
      cases params with
      | nil => cases hp
      | cons q params =>
          cases values with
          | nil => cases hvalue
          | cons w values =>
              obtain ⟨hq, hsingle⟩ := List.forall_mem_cons.1 hsingle
              cases hparts with
              | cons hfirst hparts =>
                  obtain ⟨x, rfl⟩ := Role.convert_single hq hfirst
                  obtain ⟨front, part, back, hws, hfront, hpart, hback⟩ :=
                    ih hp hvalue hsingle _ hparts
                  refine ⟨x :: front, part, back, ?_, ?_, hpart, fun hlength => hback ?_⟩
                  · rw [List.flatten_cons, hws]
                    rfl
                  · rw [List.length_cons, hfront]
                  · simpa using hlength

/-- A call gives the row what one of its operations has for a function: it takes nothing but its
parameters, and all of them in front of that one become one argument each. -/
def wrapsAt (row : Row) (v : Verb) (k j : Nat) : Bool :=
  row.place != .last && !row.rest.takesAny && row.keywordOnly.isEmpty && row.preset.isEmpty
    && (row.params.take j).all (·.role.isSingle)
    && (row.params[j]?).any (·.role = v.functionRole k)
    && (v ≠ .indexCreate || j + 1 = row.params.length)

/-- The row takes any number of orderings and nothing else. -/
def wrapsOrderings (row : Row) : Bool :=
  row.place = .first && row.params.isEmpty && row.keywordOnly.isEmpty && row.preset.isEmpty
    && match row.rest with
      | .some .ordering _ => true
      | _ => false

/-- Wherever an operation takes a function, the row wraps what it is given there. -/
def wraps (row : Row) (v : Verb) : Bool :=
  if v = .orderBy then row.wrapsOrderings
  else (List.range v.parameters.length).all fun i => (v.passes? i).all fun k =>
    row.receivers ≤ i && row.wrapsAt v k (i - row.receivers)

/-- Where the operation takes a function, the arguments of a node have what the call gave the row
there, as a function with the number of parameters that the operation passes. -/
def Wraps (row : Row) (v : Verb) (args : Arguments) (nodeArgs : List Value) : Prop :=
  ∀ i k, v.passes? i = some k →
    nodeArgs[i]? = (row.passed args (i - row.receivers)).bind (v.function? k)

section Apply

variable {row : Row} {v : Verb} {receiver : List Value} {args : Arguments} {w : Value}

theorem passed_of_fill {values : List Value}
    (h : fill row.params args.positional args.keywords = .ok values) {j : Nat} {p : Parameter}
    (hp : row.params[j]? = some p) : values[j]? = row.passed args j := by
  rw [getElem?_fill h hp, passed, hp]
  rfl

/-- In the role of a function an argument becomes what the operation has for it. -/
theorem convert_functionRole {k : Nat} {value : Value} {part : List Value} (hv : v ≠ .orderBy)
    (h : (v.functionRole k).convert value = .ok part) : part = (v.function? k value).toList := by
  unfold Verb.function?
  by_cases hindex : v = .indexCreate
  · rw [Verb.functionRole, if_pos hindex] at h
    cases h
    cases habsent : value.isAbsent <;> simp [hindex]
  · rw [Verb.functionRole, if_neg hindex] at h
    cases h
    simp [hindex, hv]

/-- The argument at such a position becomes a function of the node at the same position. -/
theorem apply_wrapsAt {k j : Nat} (hv : v ≠ .orderBy) (hrow : row.wrapsAt v k j = true)
    (h : row.apply receiver args = .ok w) :
    ∃ fixed, w = .expr row.op (receiver ++ fixed) ∧
      fixed[j]? = (row.passed args j).bind (v.function? k) := by
  simp only [wrapsAt, Bool.and_eq_true, List.all_eq_true, Bool.not_eq_true', List.isEmpty_iff,
    bne_iff_ne, Option.any_eq_true, Bool.or_eq_true, decide_eq_true_eq] at hrow
  obtain ⟨⟨⟨⟨⟨⟨hplace, hrest⟩, hkeyword⟩, hpreset⟩, hsingle⟩, p, hp, hrole⟩, hlast⟩ := hrow
  obtain ⟨values, keyed, fixed, rest, named, hvalues, hkeyed, hfixed, hconverted, hnamed, -, rfl⟩ :=
    apply_ok h
  rw [hkeyword] at hkeyed hnamed
  cases hkeyed
  cases hnamed
  have hnone : row.rest = .none := by
    cases hr : row.rest <;> rw [hr] at hrest <;> first | rfl | cases hrest
  rw [hnone] at hconverted
  cases hconverted
  refine ⟨fixed, by rw [if_neg hplace, hpreset]; simp, ?_⟩
  obtain ⟨value, hvalue⟩ : ∃ value, values[j]? = some value := by
    have hj := (List.getElem?_eq_some_iff.1 hp).1
    rw [← length_fill hvalues] at hj
    exact ⟨_, List.getElem?_eq_getElem hj⟩
  obtain ⟨front, part, back, rfl, hfront, hpart, hback⟩ :=
    exists_of_convert hp hvalue hsingle hfixed
  rw [hrole] at hpart
  rw [← passed_of_fill hvalues hp, hvalue, convert_functionRole hv hpart,
    List.getElem?_append_right hfront.le, hfront, Nat.sub_self, Option.bind_some]
  cases hfunction : v.function? k value with
  | some x => rfl
  | none =>
      -- Only an index does without a function, and that is its last argument.
      have hindex := Verb.eq_indexCreate_of_function? hfunction
      rw [hback (hlast.resolve_left fun hne => hne hindex)]
      rfl

theorem convert_orderings (values : List Value) :
    (values.mapM Role.ordering.convert).map List.flatten =
      .ok (values.map fun b => if b.isOrdering then b else b.wrapFunction (.int 1)) := by
  have hmapM : values.mapM Role.ordering.convert =
      .ok (values.map fun b => [if b.isOrdering then b else b.wrapFunction (.int 1)]) := by
    induction values with
    | nil => rfl
    | cons v vs ih =>
        rw [List.mapM_cons, ih]
        rfl
  rw [hmapM]
  exact congrArg Except.ok (List.flatMap_def.symm.trans (List.flatMap_pure_eq_map _ _))

/-- Orderings become arguments of the node at the same positions. -/
theorem apply_wrapsOrderings (hrow : row.wrapsOrderings = true)
    (h : row.apply receiver args = .ok w) :
    ∃ rest, w = .expr row.op (receiver ++ rest) ∧
      ∀ j, rest[j]? = (row.passed args j).bind (Verb.orderBy.function? 1) := by
  simp only [wrapsOrderings, Bool.and_eq_true, List.isEmpty_iff, decide_eq_true_eq] at hrow
  obtain ⟨⟨⟨⟨hplace, hparams⟩, hkeyword⟩, hpreset⟩, hrest⟩ := hrow
  obtain ⟨values, keyed, fixed, rest, named, hvalues, hkeyed, hfixed, hconverted, hnamed, -, rfl⟩ :=
    apply_ok h
  rw [hparams] at hvalues hfixed hconverted
  rw [hkeyword] at hkeyed hnamed
  cases hvalues
  cases hkeyed
  cases hfixed
  cases hnamed
  refine ⟨rest, by simp [hplace, hpreset], fun j => ?_⟩
  split at hrest <;> cases hrest
  rename_i hrest
  rw [hrest, Rest.convert] at hconverted
  split at hconverted
  case isTrue => cases hconverted
  case isFalse =>
    rw [List.length_nil, List.drop_zero, convert_orderings] at hconverted
    cases hconverted
    rw [passed, hparams, List.getElem?_map]
    cases args.positional[j]? <;> simp [Verb.function?]

/-- What the check of a row is good for: wherever the operation takes a function, the node has
what the row was given there. -/
theorem wraps_of_apply (hrow : row.wraps v = true) (hreceiver : receiver.length = row.receivers)
    {nodeArgs : List Value} (h : row.apply receiver args = .ok (.expr row.op nodeArgs)) :
    row.Wraps v args nodeArgs := by
  intro i k hk
  by_cases hv : v = .orderBy
  · subst hv
    rw [wraps, if_pos rfl] at hrow
    obtain ⟨rest, hw, hrest⟩ := apply_wrapsOrderings hrow h
    cases hw
    have hone : row.receivers = 1 := by
      simp only [wrapsOrderings, Bool.and_eq_true, decide_eq_true_eq] at hrow
      simp [receivers, hrow.1.1.1.1]
    cases i with
    | zero => cases hk
    | succ i =>
        cases hk
        rw [← hrest, List.getElem?_append_right (by omega), hreceiver]
  · rw [wraps, if_neg hv, List.all_eq_true] at hrow
    have hi := hrow i (List.mem_range.2 (Verb.lt_length_of_passes? hv hk))
    simp only [hk, Option.all_some, Bool.and_eq_true, decide_eq_true_eq] at hi
    obtain ⟨hle, hrow⟩ := hi
    obtain ⟨fixed, hw, hfixed⟩ := apply_wrapsAt hv hrow h
    cases hw
    rw [← hfixed, List.getElem?_append_right (hreceiver ▸ hle), hreceiver]

end Apply

end Row

theorem Catalog.wraps_of_mem {row : Row} (hrow : row ∈ Catalog.methods ++ Catalog.functions)
    {v : Verb} (hop : row.op = .verb v) : row.wraps v = true := by
  have hall : (Catalog.methods ++ Catalog.functions).all (fun row =>
      Verb.all.all fun v => row.op ≠ .verb v || row.wraps v) = true := by decide +kernel
  have h := List.all_eq_true.1 (List.all_eq_true.1 hall row hrow) v (Verb.mem_all v)
  simpa [hop] using h

/-! ### Calls of builders -/

/-- The node was made by a row of a name, which wraps what it was given for functions. -/
def Row.Makes (rows : List Row) (name : String) (op : Verb) (args : Arguments)
    (nodeArgs : List Value) : Prop :=
  ∃ row ∈ rows, row.name = name ∧ row.op = .verb op ∧ row.Wraps op args nodeArgs

theorem Row.makes_of_find {rows : List Row} (hrows : rows ⊆ Catalog.methods ++ Catalog.functions)
    {name : String} {row : Row} (hrow : rows.find? (fun r => r.name == name) = some row)
    {receiver : List Value} {args : Arguments} {op : Verb} {nodeArgs : List Value}
    (h : row.apply receiver args = .ok (.expr (.verb op) nodeArgs))
    (hreceiver : receiver.length = row.receivers) :
    Row.Makes rows name op args nodeArgs := by
  have hmem := List.mem_of_find?_eq_some hrow
  have hname := List.find?_some hrow
  obtain ⟨_, _, _, _, _, _, _, _, _, _, _, hw⟩ := Row.apply_ok h
  obtain ⟨hop, -⟩ := Value.expr.inj hw
  have hwraps := Catalog.wraps_of_mem (hrows hmem) hop.symm
  rw [hop] at h
  exact ⟨row, hmem, by simpa using hname, hop.symm, Row.wraps_of_apply hwraps hreceiver h⟩

namespace Value

variable {receiver : Value} {name : String} {args : Arguments} {op : Verb} {nodeArgs : List Value}

theorem index_not_takesFunctions {key : Value}
    (h : receiver.index key = .ok (.expr (.verb op) nodeArgs)) : op.takesFunctions = false := by
  unfold index at h
  split at h
  · obtain ⟨_, -, h⟩ := bind_ok h
    cases h
    rfl
  · split at h <;> cases h
    rfl
  · cases h
    rfl
  · cases h

/-- A method that makes an operation with functions wraps what it is given for them. -/
theorem makes_of_method (hop : op.takesFunctions = true)
    (h : receiver.method name args = .ok (.expr (.verb op) nodeArgs)) :
    Row.Makes Catalog.methods name op args nodeArgs := by
  unfold method at h
  split at h
  · cases h
  · split at h
    case h_1 =>
      obtain ⟨_, -, h⟩ := bind_ok h
      rw [index_not_takesFunctions h] at hop
      cases hop
    case h_5 =>
      obtain ⟨-, -, h⟩ := bind_ok h
      obtain ⟨shown, -, h⟩ := bind_ok h
      cases h
    case h_2 | h_3 | h_4 =>
      obtain ⟨-, -, h⟩ := bind_ok h
      cases h
    case h_6 | h_7 => cases h
    case h_8 =>
      split at h
      · rename_i row hrow
        have hmem : row ∈ Catalog.methods := List.mem_of_find?_eq_some hrow
        exact Row.makes_of_find (List.subset_append_left _ _) hrow h
          (Catalog.receivers_methods hmem).symm
      · cases h

theorem wrapFunction_ne_verb (body hint : Value) :
    body.wrapFunction hint ≠ .expr (.verb op) nodeArgs := by
  unfold wrapFunction
  split <;> exact fun h => (by cases h)

theorem eq_of_lift {v : Value} (h : v.lift = .ok (.expr (.verb op) nodeArgs)) :
    v = .expr (.verb op) nodeArgs := by
  unfold lift at h
  split at h
  · exact Except.ok.inj h
  · split at h
    · exact absurd (Except.ok.inj h) (wrapFunction_ne_verb _ _)
    · split at h <;> cases h

end Value

/-- What a parameter without a default has was given by position or by its name. -/
theorem Query.mem_of_bound {callee name : String} {args : Arguments} {values : List Value}
    (h : bound callee [.arg name] args = .ok values) :
    values.headD .null ∈ args.positional ++ args.keywords.map (·.2) := by
  obtain ⟨b, hbound, rfl⟩ := map_ok h
  obtain ⟨hfixed, -, -, -⟩ := bind_fill hbound
  obtain ⟨v, vs, hvalues, hv, -⟩ := fill_cons hfixed
  rw [hvalues, List.headD_cons]
  obtain hv | ⟨-, hv⟩ := Option.or_eq_some_iff.1 hv
  · exact List.mem_append_left _ (List.mem_of_getElem? hv)
  · obtain hv | ⟨-, hv⟩ := Option.or_eq_some_iff.1 hv
    · obtain ⟨e, he, rfl⟩ := Option.map_eq_some_iff.1 hv
      exact List.mem_append_right _ (List.mem_map_of_mem (List.mem_of_find?_eq_some he))
    · cases hv

/-- So does a function that starts an expression, unless the operation was handed to it. -/
theorem Query.makes_of_call {name : String} {args : Arguments} {op : Verb} {nodeArgs : List Value}
    (hop : op.takesFunctions = true) (h : Query.call name args = .ok (.expr (.verb op) nodeArgs)) :
    Row.Makes Catalog.functions name op args nodeArgs ∨
      .expr (.verb op) nodeArgs ∈ args.positional ++ args.keywords.map (·.2) := by
  unfold Query.call at h
  split at h
  case h_1 =>
    obtain ⟨values, hvalues, h⟩ := bind_ok h
    rw [← Value.eq_of_lift h]
    exact .inr (mem_of_bound hvalues)
  case h_2 =>
    obtain ⟨values, -, h⟩ := bind_ok h
    obtain ⟨_, -, h⟩ := bind_ok h
    exact absurd (Except.ok.inj h) (Value.wrapFunction_ne_verb _ _)
  case h_3 =>
    obtain ⟨b, -, h⟩ := bind_ok h
    unfold Query.invoke at h
    split at h <;> cases h
    cases hop
  case h_4 =>
    obtain ⟨-, -, h⟩ := bind_ok h
    cases h
  case h_5 | h_6 =>
    obtain ⟨values, -, h⟩ := bind_ok h
    obtain ⟨_, -, h⟩ := bind_ok h
    cases h
  case h_7 =>
    split at h
    · rename_i row hrow
      have hmem : row ∈ Catalog.functions := List.mem_of_find?_eq_some hrow
      exact .inl (Row.makes_of_find (List.subset_append_right _ _) hrow h
        (Catalog.receivers_functions hmem).symm)
    · cases h

end QueryDriver
