import QueryDriver.Proofs.Builder.Layout
import QueryDriver.Proofs.Value.Part

/-!
# What can be built

`Value.Built` is the closure of the builders: the leaves of the host, its containers,
callables that return something built, and whatever a builder makes of built arguments. A
node with an operator and arguments of one's own choice is not among it.

What the builders uphold of the nodes that they make holds throughout of a built value
(`Value.Built.throughout`), below it too, in all that its callables return. So every node in it is
laid out as the compiler reads it (`Value.Built.laidOut`), since the arguments that builders add or
wrap are laid out themselves.
-/

namespace QueryDriver

/-- If the value is a node, its arguments are laid out as the compiler reads them. -/
def Value.Fits (v : Value) : Prop := ∀ op args, v = .expr op args → op.Fits args

/-- Every node in the value is laid out as the compiler reads it. -/
abbrev Value.LaidOut : Value → Prop := Value.Throughout Value.Fits

namespace Value

inductive Built : Value → Prop where
  | leaf {v : Value} (h : v.isLeaf = true) : Built v
  | list {items : List Value} (h : ∀ v ∈ items, Built v) : Built (.list items)
  | tuple {items : List Value} (h : ∀ v ∈ items, Built v) : Built (.tuple items)
  | dict {entries : List (Value × Value)} (h : ∀ e ∈ entries, Built e.2) : Built (.dict entries)
  | mapping {entries : List (Value × Value)} (h : ∀ e ∈ entries, Built e.2) :
      Built (.mapping entries)
  | slice {start stop step : Value} (hstart : Built start) (hstop : Built stop)
      (hstep : Built step) : Built (.slice start stop step)
  | spec {fields : List (String × Value)} {v : Value} (hfields : ∀ e ∈ fields, Built e.2)
      (h : tableSpecOfFields fields = .ok v) : Built v
  | callable {face : Face} {run : List Nat → Except Failure Value}
      (h : ∀ params v, run params = .ok v → Built v) : Built (.func face run)
  | function {body arity v : Value} (hbody : Built body) (harity : arity.IsInteger)
      (h : Query.func body arity = .ok v) : Built v
  | call {name : String} {args : Arguments} {v : Value} (hname : name ≠ "func")
      (hpositional : ∀ w ∈ args.positional, Built w) (hkeywords : ∀ e ∈ args.keywords, Built e.2)
      (h : Query.call name args = .ok v) : Built v
  | method {name : String} {receiver : Value} {args : Arguments} {v : Value}
      (hreceiver : Built receiver) (hpositional : ∀ w ∈ args.positional, Built w)
      (hkeywords : ∀ e ∈ args.keywords, Built e.2) (h : receiver.method name args = .ok v) : Built v

end Value

/-- An operation without a receiver, an option or a database of its own. -/
def Verb.isFree (v : Verb) : Bool :=
  v != .var && !v.needsTable && v.trailing?.isNone && v.afterDatabase?.isNone && v != .tableCreate

theorem Verb.fits_of_isFree {v : Verb} (h : v.isFree = true) (args : List Value) : v.Fits args := by
  simp only [isFree, Bool.and_eq_true, bne_iff_ne, Bool.not_eq_true',
    Option.isNone_iff_eq_none] at h
  obtain ⟨⟨⟨⟨hvar, htable⟩, htrailing⟩, hdatabase⟩, hcreate⟩ := h
  exact ⟨hvar, by simp [htable], by simp [htrailing], by simp [hdatabase],
    fun h => absurd h hcreate⟩

/-- A property that builders uphold: it holds of all that is no node, and of every node that a
builder makes, whatever the arguments are. -/
structure Value.Upheld (P : Value → Prop) : Prop where
  bare {v : Value} (h : ∀ op args, v ≠ .expr op args) : P v
  literal (v : Value) : P (.expr .literal [v])
  func {hint : Value} (h : hint.IsInteger) (body : Value) : P (.expr .func [body, hint])
  free {v : Verb} (h : v.isFree = true) (args : List Value) : P (.expr (.verb v) args)
  made {row : Row} {receiver : List Value} {args : Arguments} {v : Value}
    (hrow : row ∈ Catalog.methods ++ Catalog.functions) (hlength : receiver.length = row.receivers)
    (hexpr : ∀ w ∈ receiver, w.isExpr = true) (h : row.apply receiver args = .ok v) : P v

section Upheld

variable {P : Value → Prop}

/-! ### What builders do to one argument -/

namespace Value

theorem Throughout.node {op : Operator} {args : List Value} (hself : P (.expr op args))
    (h : ∀ w ∈ args, w.Throughout P) : (Value.expr op args).Throughout P := by
  refine .of_parts hself fun w hw => ?_
  cases hw with
  | argument hw => exact h w hw

namespace Upheld

variable (hP : Upheld P)

include hP

theorem leaf {v : Value} (h : v.isLeaf = true) : v.Throughout P := by
  refine .of_parts (hP.bare ?_) (forall_isPart_leaf h)
  rintro op args rfl
  cases h

theorem text {v : Value} (h : ∃ s, v = .text s) : v.Throughout P := by
  obtain ⟨s, rfl⟩ := h
  exact hP.leaf rfl

theorem list {items : List Value} (h : ∀ w ∈ items, w.Throughout P) :
    (Value.list items).Throughout P := by
  refine .of_parts (hP.bare nofun) fun w hw => ?_
  cases hw with
  | item hw => exact h w hw

theorem entry {key w : Value} (h : w.Throughout P) : (Value.dict [(key, w)]).Throughout P := by
  refine .of_parts (hP.bare nofun) fun x hx => ?_
  cases hx with
  | entry he =>
      rw [List.mem_singleton.1 he]
      exact h

theorem tableSpec {name durability : String} {p d c : Value} (hp : p.Throughout P)
    (hd : d.Throughout P) (hc : c.Throughout P) :
    (Value.tableSpec name p d c durability).Throughout P := by
  refine .of_parts (hP.bare nofun) fun w hw => ?_
  cases hw with
  | primaryKey => exact hp
  | datacenter => exact hd
  | cacheSize => exact hc

theorem wrapFunction {body arity : Value} (hbody : body.Throughout P) (harity : arity.IsInteger) :
    (body.wrapFunction arity).Throughout P := by
  unfold Value.wrapFunction
  split
  · exact hbody
  · refine .node (hP.func harity body) fun w hw => ?_
    simp only [List.mem_cons, List.not_mem_nil, or_false] at hw
    obtain rfl | rfl := hw
    · exact hbody
    · obtain ⟨n, rfl⟩ | ⟨b, rfl⟩ := harity <;> exact hP.leaf rfl

theorem wrapCounted {body : Value} (hbody : body.Throughout P) (n : Int) :
    (body.wrapFunction (.int n)).Throughout P :=
  hP.wrapFunction hbody (.inl ⟨n, rfl⟩)

theorem lift {v w : Value} (hv : v.Throughout P) (h : v.lift = .ok w) : w.Throughout P := by
  unfold Value.lift at h
  split at h
  · cases h
    exact hv
  · split at h
    · cases h
      exact hP.wrapCounted hv _
    · split at h
      · cases h
      · cases h
        exact .node (hP.literal v) (List.forall_mem_singleton.2 hv)

theorem tableSpecOf {name p d c durability v : Value} (hp : p.Throughout P)
    (hd : d.Throughout P) (hc : c.Throughout P)
    (h : Value.tableSpecOf name p d c durability = .ok v) : v.Throughout P := by
  obtain ⟨_, _, rfl⟩ := tableSpecOf_ok h
  exact hP.tableSpec hp hd hc

theorem asTableSpec {v w : Value} (hv : v.Throughout P) (h : v.asTableSpec = .ok w) :
    w.Throughout P := by
  unfold Value.asTableSpec at h
  split at h
  · cases h
    exact hv
  · exact hP.tableSpecOf (hP.leaf rfl) (hP.leaf rfl) (hP.leaf rfl) h
  · cases h

theorem convert {role : Role} {v : Value} {ws : List Value} (hv : v.Throughout P)
    (h : role.convert v = .ok ws) : ∀ w ∈ ws, w.Throughout P := by
  cases role with
  | plain | flag | function | ordering =>
      cases h
      refine List.forall_mem_singleton.2 ?_
      first
        | exact hv
        | exact hP.leaf rfl
        | exact hP.wrapCounted hv _
        | split
          · exact hv
          · exact hP.wrapCounted hv _
  | optionalFunction arity =>
      cases h
      split
      · exact List.forall_mem_nil _
      · exact List.forall_mem_singleton.2 (hP.wrapCounted hv _)
  | choice =>
      obtain ⟨w, hw, rfl⟩ := map_ok h
      obtain ⟨s, -, hs⟩ := checkChoice_ok hw
      exact List.forall_mem_singleton.2 (hP.text ⟨s, hs⟩)
  | name | attributes | tableSpec | lifted =>
      obtain ⟨w, hw, rfl⟩ := map_ok h
      refine List.forall_mem_singleton.2 ?_
      first
        | exact hP.text (checkName_ok hw)
        | exact hP.asTableSpec hv hw
        | exact hP.lift hv hw
        | obtain ⟨names, rfl, hnames⟩ := asAttributes_ok hw
          exact hP.list fun n hn => hP.text (hnames n hn)

end Upheld

end Value

/-! ### Calls of builders -/

theorem fill_forall {params : List Parameter} {positional values : List Value}
    {keywords : List (String × Value)} (hpositional : ∀ w ∈ positional, P w)
    (hkeywords : ∀ e ∈ keywords, P e.2) (hdefault : ∀ p ∈ params, ∀ d ∈ p.default, P d)
    (h : fill params positional keywords = .ok values) : ∀ w ∈ values, P w := by
  induction params generalizing positional values with
  | nil =>
      rw [fill] at h
      cases h
      exact List.forall_mem_nil _
  | cons p ps ih =>
      obtain ⟨v, vs, rfl, hv, hrest⟩ := fill_cons h
      obtain ⟨hp, hps⟩ := List.forall_mem_cons.1 hdefault
      refine List.forall_mem_cons.2
        ⟨?_, ih (fun w hw => hpositional w (List.mem_of_mem_tail hw)) hps hrest⟩
      obtain hv | ⟨-, hv⟩ := Option.or_eq_some_iff.1 hv
      · exact hpositional v (List.mem_of_getElem? hv)
      · obtain hv | ⟨-, hv⟩ := Option.or_eq_some_iff.1 hv
        · obtain ⟨e, he, rfl⟩ := Option.map_eq_some_iff.1 hv
          exact hkeywords e (List.mem_of_find?_eq_some he)
        · exact hp v hv

/-- What a row adds to the arguments of a call has no parts. -/
def Row.addsLeaves (row : Row) : Bool :=
  (row.params ++ row.keywordOnly).all (fun p => p.default.all Value.isLeaf)
    && row.preset.all Value.isLeaf

theorem Catalog.addsLeaves_rows : (methods ++ functions).all Row.addsLeaves = true := by
  decide +kernel

theorem Catalog.receivers_methods {row : Row} (h : row ∈ Catalog.methods) : row.receivers = 1 := by
  have hall : Catalog.methods.all (fun r => r.receivers = 1) = true := by decide +kernel
  simpa using List.all_eq_true.1 hall row h

theorem Catalog.receivers_functions {row : Row} (h : row ∈ Catalog.functions) :
    row.receivers = 0 := by
  have hall : Catalog.functions.all (fun r => r.receivers = 0) = true := by decide +kernel
  simpa using List.all_eq_true.1 hall row h

namespace Value.Upheld

variable (hP : Upheld P)

include hP

theorem convertAll {params : List Parameter} {values ws : List Value}
    (hvalues : ∀ v ∈ values, v.Throughout P) (h : Row.convert params values = .ok ws) :
    ∀ w ∈ ws, w.Throughout P := by
  obtain ⟨parts, hparts, h⟩ := bind_ok h
  cases h
  intro w hw
  obtain ⟨part, hpart, hw⟩ := List.mem_flatten.1 hw
  obtain ⟨pv, hpv, hconvert⟩ := exists_of_mapM_ok hparts part hpart
  exact hP.convert (hvalues pv.2 (List.of_mem_zip hpv).2) hconvert w hw

theorem convertRest {rest : Rest} {callee : String} {values ws : List Value}
    (hvalues : ∀ v ∈ values, v.Throughout P) (h : rest.convert callee values = .ok ws) :
    ∀ w ∈ ws, w.Throughout P := by
  have hmap {role : Role} (h : (values.mapM role.convert).map List.flatten = .ok ws) :
      ∀ w ∈ ws, w.Throughout P := by
    obtain ⟨parts, hparts, rfl⟩ := map_ok h
    intro w hw
    obtain ⟨part, hpart, hw⟩ := List.mem_flatten.1 hw
    obtain ⟨v, hv, hconvert⟩ := exists_of_mapM_ok hparts part hpart
    exact hP.convert (hvalues v hv) hconvert w hw
  unfold Rest.convert at h
  split at h
  · cases h
    exact List.forall_mem_nil _
  · exact hmap h
  · split at h
    · cases h
    · exact hmap h
  · split at h
    · cases h
      exact hvalues
    · cases h

theorem apply {row : Row} (hrow : row ∈ Catalog.methods ++ Catalog.functions)
    {receiver : List Value} {args : Arguments} {v : Value}
    (hlength : receiver.length = row.receivers) (hexpr : ∀ w ∈ receiver, w.isExpr = true)
    (hreceiver : ∀ w ∈ receiver, w.Throughout P)
    (hpositional : ∀ w ∈ args.positional, w.Throughout P)
    (hkeywords : ∀ e ∈ args.keywords, e.2.Throughout P) (h : row.apply receiver args = .ok v) :
    v.Throughout P := by
  have hself := hP.made hrow hlength hexpr h
  obtain ⟨values, keyed, fixed, rest, named, hvalues, hkeyed, hfixed, hrest, hnamed, -, rfl⟩ :=
    Row.apply_ok h
  refine .node hself ?_
  have hadds := List.all_eq_true.1 Catalog.addsLeaves_rows row hrow
  simp only [Row.addsLeaves, Bool.and_eq_true, List.all_append, List.all_eq_true,
    Option.all_eq_true] at hadds
  obtain ⟨⟨hparams, hkeywordOnly⟩, hpreset⟩ := hadds
  have hvalues := fill_forall hpositional hkeywords
    (fun p hp d hd => hP.leaf (hparams p hp d hd)) hvalues
  have hkeyed := fill_forall (List.forall_mem_nil _) hkeywords
    (fun p hp d hd => hP.leaf (hkeywordOnly p hp d hd)) hkeyed
  have hmade : ∀ w ∈ fixed ++ rest ++ named ++ row.preset, w.Throughout P := by
    simp only [List.forall_mem_append]
    exact ⟨⟨⟨hP.convertAll hvalues hfixed,
      hP.convertRest (fun w hw => hpositional w (List.mem_of_mem_drop hw)) hrest⟩,
      hP.convertAll hkeyed hnamed⟩, fun w hw => hP.leaf (hpreset w hw)⟩
  split
  · exact List.forall_mem_append.2 ⟨hmade, hreceiver⟩
  · exact List.forall_mem_append.2 ⟨hreceiver, hmade⟩

/-! ### Builders outside the catalog -/

variable {v w receiver key : Value} {args : Arguments}

theorem first {callee : String} {params : List Parameter} {values : List Value}
    {receiver : Nat} (hdefault : ∀ p ∈ params, p.default = none)
    (hpositional : ∀ w ∈ args.positional, w.Throughout P)
    (hkeywords : ∀ e ∈ args.keywords, e.2.Throughout P)
    (h : (bind callee receiver params false [] args).map (·.fixed) = .ok values) :
    (values.headD .null).Throughout P := by
  obtain ⟨b, hbound, rfl⟩ := map_ok h
  obtain ⟨hfixed, -, -, -⟩ := bind_fill hbound
  have hvalues := fill_forall hpositional hkeywords
    (fun p hp d hd => by rw [hdefault p hp] at hd; cases hd) hfixed
  cases hb : b.fixed with
  | nil => exact hP.leaf rfl
  | cons v vs =>
      rw [hb] at hvalues
      exact hvalues v List.mem_cons_self

theorem index (hreceiver : receiver.Throughout P) (hkey : key.Throughout P)
    (h : receiver.index key = .ok w) : w.Throughout P := by
  unfold Value.index at h
  split at h
  · obtain ⟨name, hname, h⟩ := bind_ok h
    cases h
    refine .node (hP.free rfl _) ?_
    simp only [List.forall_mem_cons]
    exact ⟨hreceiver, hP.text (checkName_ok hname), nofun⟩
  · split at h
    · cases h
    · cases h
      refine .node (hP.free rfl _) ?_
      simp only [List.forall_mem_cons]
      refine ⟨hreceiver, ?_, ?_, nofun⟩
      · split
        · exact hP.leaf rfl
        · exact hkey.part .start
      · split
        · exact hP.leaf rfl
        · exact hkey.part .stop
  · cases h
    refine .node (hP.free rfl _) ?_
    simp only [List.forall_mem_cons]
    exact ⟨hreceiver, hkey, nofun⟩
  · cases h

theorem method {name : String} (hreceiver : receiver.Throughout P)
    (hpositional : ∀ w ∈ args.positional, w.Throughout P)
    (hkeywords : ∀ e ∈ args.keywords, e.2.Throughout P)
    (h : receiver.method name args = .ok v) : v.Throughout P := by
  unfold Value.method at h
  split at h
  · cases h
  · rename_i hexpr
    split at h
    case h_1 =>
      obtain ⟨values, hvalues, h⟩ := bind_ok h
      exact hP.index hreceiver
        (hP.first (List.forall_mem_singleton.2 rfl) hpositional hkeywords hvalues) h
    case h_5 =>
      obtain ⟨-, -, h⟩ := bind_ok h
      obtain ⟨shown, -, h⟩ := bind_ok h
      cases h
      exact hP.leaf rfl
    case h_2 | h_3 | h_4 =>
      obtain ⟨-, -, h⟩ := bind_ok h
      cases h
    case h_6 | h_7 => cases h
    case h_8 =>
      split at h
      · rename_i row hrow
        have hmem : row ∈ Catalog.methods := List.mem_of_find?_eq_some hrow
        have hlength : [receiver].length = row.receivers := (Catalog.receivers_methods hmem).symm
        exact hP.apply (List.mem_append_left _ hmem) hlength
          (List.forall_mem_singleton.2 (by simpa using hexpr))
          (List.forall_mem_singleton.2 hreceiver) hpositional hkeywords h
      · cases h

theorem call {name : String} (hname : name ≠ "func")
    (hpositional : ∀ w ∈ args.positional, w.Throughout P)
    (hkeywords : ∀ e ∈ args.keywords, e.2.Throughout P)
    (h : Query.call name args = .ok v) : v.Throughout P := by
  unfold Query.call at h
  split at h
  case h_1 =>
    obtain ⟨values, hvalues, h⟩ := bind_ok h
    exact hP.lift (hP.first (List.forall_mem_singleton.2 rfl) hpositional hkeywords hvalues) h
  case h_2 => exact absurd rfl hname
  case h_3 =>
    obtain ⟨b, hbound, h⟩ := bind_ok h
    obtain ⟨-, -, hrest, -⟩ := bind_fill hbound
    rw [hrest, List.length_nil, List.drop_zero] at h
    unfold Query.invoke at h
    split at h
    · cases h
    · rename_i function hlast
      cases h
      refine .node (hP.free rfl _) (List.forall_mem_cons.2 ⟨?_, fun w hw => ?_⟩)
      · exact hP.wrapCounted (hpositional _ (List.mem_of_getLast? hlast)) _
      · exact hpositional w (List.dropLast_subset _ hw)
  case h_4 =>
    obtain ⟨-, -, h⟩ := bind_ok h
    cases h
    exact hP.entry (hP.leaf rfl)
  case h_5 | h_6 =>
    obtain ⟨values, -, h⟩ := bind_ok h
    obtain ⟨name, hchecked, h⟩ := bind_ok h
    cases h
    exact hP.entry (hP.text (checkName_ok hchecked))
  case h_7 =>
    split at h
    · rename_i row hrow
      have hmem : row ∈ Catalog.functions := List.mem_of_find?_eq_some hrow
      have hlength : ([] : List Value).length = row.receivers :=
        (Catalog.receivers_functions hmem).symm
      exact hP.apply (List.mem_append_right _ hmem) hlength (List.forall_mem_nil _)
        (List.forall_mem_nil _) hpositional hkeywords h
    · cases h

theorem tableSpecOfFields {fields : List (String × Value)}
    (hfields : ∀ e ∈ fields, e.2.Throughout P) (h : Value.tableSpecOfFields fields = .ok v) :
    v.Throughout P := by
  obtain ⟨b, hbound, h⟩ := bind_ok h
  obtain ⟨hfixed, -, -, -⟩ := bind_fill hbound
  have hvalues : ∀ w ∈ b.fixed, w.Throughout P := by
    refine fill_forall (List.forall_mem_nil _) hfields ?_ hfixed
    simp only [List.forall_mem_cons, Parameter.arg, Option.mem_def, Option.some.injEq]
    refine ⟨nofun, ?_, ?_, ?_, ?_, nofun⟩ <;> (rintro d rfl; exact hP.leaf rfl)
  split at h
  · rename_i name p d c durability hb
    rw [hb] at hvalues
    simp only [List.forall_mem_cons] at hvalues
    obtain ⟨-, hp, hd, hc, -⟩ := hvalues
    exact hP.tableSpecOf hp hd hc h
  · cases h

end Value.Upheld

/-! ### Everything that can be built -/

namespace Value

/-- What builders uphold holds throughout of everything that can be built. -/
theorem Built.throughout (hP : Upheld P) {v : Value} (h : v.Built) : v.Throughout P := by
  induction h with
  | leaf h => exact hP.leaf h
  | list _ ih => exact hP.list ih
  | tuple _ ih =>
      refine .of_parts (hP.bare nofun) fun w hw => ?_
      cases hw with
      | component hw => exact ih w hw
  | dict _ ih =>
      refine .of_parts (hP.bare nofun) fun w hw => ?_
      cases hw with
      | entry he => exact ih _ he
  | mapping _ ih =>
      refine .of_parts (hP.bare nofun) fun w hw => ?_
      cases hw with
      | image he => exact ih _ he
  | slice _ _ _ ihstart ihstop ihstep =>
      refine .of_parts (hP.bare nofun) fun w hw => ?_
      cases hw with
      | start => exact ihstart
      | stop => exact ihstop
      | step => exact ihstep
  | spec _ h ih => exact hP.tableSpecOfFields ih h
  | callable _ ih =>
      refine .of_parts (hP.bare nofun) fun w hw => ?_
      cases hw with
      | result hrun => exact ih _ w hrun
  | function _ harity h ih =>
      obtain ⟨-, -, h⟩ := bind_ok h
      cases h
      exact hP.wrapFunction ih harity
  | call hname _ _ h ihpositional ihkeywords => exact hP.call hname ihpositional ihkeywords h
  | method _ _ _ h ihreceiver ihpositional ihkeywords =>
      exact hP.method ihreceiver ihpositional ihkeywords h

theorem Fits.upheld : Upheld Fits where
  bare h op args hnode := absurd hnode (h op args)
  literal v op args hnode := by
    cases hnode
    exact ⟨v, rfl⟩
  func harity body op args hnode := by
    cases hnode
    exact ⟨body, _, rfl, harity⟩
  free hfree args op args' hnode := by
    cases hnode
    exact Verb.fits_of_isFree hfree args
  made hrow hlength hexpr h op args hnode := by
    have hfits := (List.forall_mem_append.2 ⟨List.all_eq_true.1 Catalog.fits_methods,
      List.all_eq_true.1 Catalog.fits_functions⟩) _ hrow
    obtain ⟨nodeArgs, rfl, hlays⟩ := Row.lays_of_fits hfits hlength hexpr h
    cases hnode
    exact hlays.fits

theorem LaidOut.leaf {v : Value} (h : v.isLeaf = true) : v.LaidOut := Fits.upheld.leaf h

/-- Everything that can be built is laid out as the compiler reads it, throughout. -/
theorem Built.laidOut {v : Value} (h : v.Built) : v.LaidOut := h.throughout Fits.upheld

end Value

end Upheld

end QueryDriver
