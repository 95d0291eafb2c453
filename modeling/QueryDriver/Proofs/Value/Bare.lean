import QueryDriver.Proofs.Builder.Built
import QueryDriver.Proofs.Lowering.Outline

/-!
# Values without settings

`Value.bare` deletes every setting from a value, also from what its callables return: what a
setting is set on takes its place. All that the compiler asks a value about before it is
compiled has the same answer then, so the arguments of an operation are arranged alike.
-/

namespace QueryDriver

namespace Value

mutual

/-- The value with its settings deleted. -/
def bare (v : Value) : Value :=
  match v with
  | .list items => .list (bareItems items)
  | .tuple items => .tuple (bareItems items)
  | .dict entries => .dict (bareEntries entries)
  | .mapping entries => .mapping (bareEntries entries)
  | .slice start stop step => .slice (bare start) (bare stop) (bare step)
  | .tableSpec name p d c durability => .tableSpec name (bare p) (bare d) (bare c) durability
  | .expr (.setting s) args => (bareItems args).headD (.expr (.setting s) [])
  | .expr op args => .expr op (bareItems args)
  | .func face run => .func face fun params => bareResult (run params)
  | v => v

def bareItems : List Value → List Value
  | [] => []
  | v :: vs => bare v :: bareItems vs

def bareEntries : List (Value × Value) → List (Value × Value)
  | [] => []
  | (k, v) :: es => (k, bare v) :: bareEntries es

def bareResult : Except Failure Value → Except Failure Value
  | .ok v => .ok (bare v)
  | .error f => .error f

end

theorem bareItems_eq_map (items : List Value) : bareItems items = items.map bare := by
  induction items with
  | nil => rfl
  | cons v vs ih => rw [bareItems, ih, List.map_cons]

theorem bareEntries_eq_map (entries : List (Value × Value)) :
    bareEntries entries = entries.map fun e => (e.1, e.2.bare) := by
  induction entries with
  | nil => rfl
  | cons e es ih =>
      obtain ⟨k, v⟩ := e
      rw [bareEntries, ih, List.map_cons]

theorem bareResult_eq_map (result : Except Failure Value) :
    bareResult result = result.map bare := by
  cases result <;> rfl

def isSetting : Value → Bool
  | .expr (.setting _) _ => true
  | _ => false

theorem bare_setting (s : Setting) (inner value : Value) :
    (Value.expr (.setting s) [inner, value]).bare = inner.bare := rfl

/-- Any other node keeps its operator. -/
theorem bare_expr {op : Operator} {args : List Value} (h : (Value.expr op args).isSetting = false) :
    (Value.expr op args).bare = .expr op (args.map bare) := by
  rw [← bareItems_eq_map]
  cases op with
  | setting s => cases h
  | _ =>
      rw [bare]
      exact nofun

/-- Of any other value the parts are laid bare. -/
theorem bare_eq_mapParts {v : Value} (h : v.isSetting = false) : v.bare = v.mapParts bare := by
  cases v with
  | list items | tuple items => rw [bare, bareItems_eq_map, mapParts]
  | dict entries | mapping entries => rw [bare, bareEntries_eq_map, mapParts]
  | expr op args => exact bare_expr h
  | func face run => simp only [bare, bareResult_eq_map, mapParts]
  | _ => rfl

/-- What is true of what a setting is set on, and of every other value, is true of all values
that are laid out. -/
@[elab_as_elim]
theorem LaidOut.induction {motive : (v : Value) → v.LaidOut → Prop}
    (setting : ∀ (s : Setting) (inner value : Value)
      (hv : (Value.expr (.setting s) [inner, value]).LaidOut) (hinner : inner.LaidOut),
      inner.isExpr = true → s.Admits value → motive inner hinner → motive _ hv)
    (other : ∀ (v : Value) (hv : v.LaidOut), v.isSetting = false → motive v hv) {v : Value}
    (hv : v.LaidOut) : motive v hv := by
  induction v using Value.induction with
  | step v ih =>
  cases hs : v.isSetting with
  | false => exact other v hv hs
  | true =>
      unfold isSetting at hs
      split at hs
      · rename_i s args
        obtain ⟨inner, value, rfl, hinner, hvalue⟩ := hv.self _ _ rfl
        have hpart : IsPart inner (.expr (.setting s) [inner, value]) :=
          .argument List.mem_cons_self
        exact setting s inner value hv (hv.part hpart) hinner hvalue
          (ih inner (.single hpart) (hv.part hpart))
      · cases hs

/-- No setting is left anywhere in a value without its settings. -/
theorem setterless_bare {v : Value} (hv : v.LaidOut) :
    v.bare.Throughout fun w => w.isSetting = false := by
  induction v using Value.induction with
  | step v ih =>
  cases hs : v.isSetting with
  | true =>
      unfold isSetting at hs
      split at hs
      · rename_i s args
        obtain ⟨inner, value, rfl, -, -⟩ := hv.self _ _ rfl
        have hpart : IsPart inner (.expr (.setting s) [inner, value]) :=
          .argument List.mem_cons_self
        exact ih inner (.single hpart) (hv.part hpart)
      · cases hs
  | false =>
      refine .of_parts ?_ fun x hx => ?_
      · cases v with
        | expr op args => cases op <;> first | (rw [bare_expr hs]; rfl) | cases hs
        | _ => rfl
      · rw [bare_eq_mapParts hs] at hx
        obtain ⟨w, hw, rfl⟩ := exists_of_isPart_mapParts hx
        exact ih w (.single hw) (hv.part hw)

/-- A value that is laid out is a node exactly if it is one without its settings. -/
theorem isExpr_bare {v : Value} (hv : v.LaidOut) : v.bare.isExpr = v.isExpr := by
  induction hv using LaidOut.induction with
  | setting s inner value _ _ hinner _ ih =>
      rw [bare_setting, ih, hinner]
      rfl
  | other v _ hv =>
      cases v with
      | expr op args =>
          rw [bare_expr hv]
          rfl
      | _ => rfl

/-- A question that all nodes answer alike, and that settings inside of a value do not matter
for, has the same answer without settings. -/
theorem eq_bare {α : Type} {f : Value → α} {x : α} (hexpr : ∀ v : Value, v.isExpr = true → f v = x)
    (hother : ∀ v : Value, v.isExpr = false → f v.bare = f v) {v : Value} (hv : v.LaidOut) :
    f v.bare = f v := by
  cases h : v.isExpr with
  | true => rw [hexpr v h, hexpr _ (by rw [isExpr_bare hv, h])]
  | false => exact hother v h

variable {v : Value}

theorem isAbsent_bare (hv : v.LaidOut) : v.bare.isAbsent = v.isAbsent := by
  refine eq_bare (x := false) (fun v h => ?_) (fun v h => ?_) hv <;>
    cases v <;> first | rfl | cases h

theorem isNull_bare (hv : v.LaidOut) : v.bare.isNull = v.isNull := by
  refine eq_bare (x := false) (fun v h => ?_) (fun v h => ?_) hv <;>
    cases v <;> first | rfl | cases h

theorem isApplied_bare (hv : v.LaidOut) : v.bare.isApplied = v.isApplied := by
  refine eq_bare (x := false) (fun v h => ?_) (fun v h => ?_) hv <;>
    cases v <;> first | rfl | cases h

theorem truthy_bare (hv : v.LaidOut) : v.bare.truthy = v.truthy := by
  refine eq_bare (x := true) (fun v h => ?_) (fun v h => ?_) hv
  · cases v <;> first | rfl | cases h
  · have hsetting : v.isSetting = false := by cases v <;> first | rfl | cases h
    rw [bare_eq_mapParts hsetting, truthy_mapParts]

/-- Whether a value can be a table does not depend on what is set on it. -/
theorem notATable_bare {v : Value} (hv : v.LaidOut) : notATable? v.bare = notATable? v := by
  induction hv using LaidOut.induction with
  | setting s inner value _ _ _ _ ih =>
      rw [bare_setting, ih]
      rfl
  | other v _ hv =>
      cases v with
      | expr op args =>
          rw [bare_expr hv]
          cases op with
          | setting s => cases hv
          | literal | func => rfl
          | verb op => cases op <;> rfl
      | _ => rfl

/-- The options of a table are bare exactly if the table is. -/
theorem tableFields_bare {v : Value} (hv : v.LaidOut) :
    v.bare.tableFields = v.tableFields.map fun e => (e.1, e.2.bare) := by
  induction hv using LaidOut.induction with
  | setting s inner value _ _ hinner _ ih =>
      rw [bare_setting, ih]
      cases inner <;> first | rfl | cases hinner
  | other v hlaid hv =>
      cases v with
      | expr op args =>
          rw [bare_expr hv]
          rfl
      | tableSpec name p d c durability =>
          have hp := truthy_bare (hlaid.part .primaryKey)
          have hd := truthy_bare (hlaid.part .datacenter)
          have hc := truthy_bare (hlaid.part .cacheSize)
          have htext : (Value.text durability).bare = .text durability := rfl
          have hfields : ([("primary_key", p.bare), ("datacenter", d.bare),
              ("cache_size", c.bare), ("durability", .text durability)] : List (String × Value)) =
              [("primary_key", p), ("datacenter", d), ("cache_size", c),
                ("durability", .text durability)].map fun e => (e.1, e.2.bare) := by
            simp [htext]
          rw [bare, tableFields, tableFields, hfields, List.filter_map]
          congr 1
          refine List.filter_congr ?_
          simp only [List.forall_mem_cons]
          exact ⟨hp, hd, hc, congrArg truthy htext, List.forall_mem_nil _⟩
      | _ => rfl

end Value

/-! ### Arguments -/

/-- An arrangement of bare values. -/
def Arrangement.bare (a : Arrangement) : Arrangement :=
  ⟨a.implicit, a.positional.map Value.bare, a.named.map fun e => (e.1, e.2.bare)⟩

namespace Verb

variable {v : Verb} {args : List Value}

theorem checkReceiver_bare (h : ∀ w ∈ args, w.LaidOut) :
    v.checkReceiver (args.map Value.bare) = v.checkReceiver args := by
  unfold checkReceiver
  cases args with
  | nil => rfl
  | cons receiver rest =>
      rw [List.map_cons]
      dsimp only
      rw [Value.notATable_bare (h receiver List.mem_cons_self)]

theorem splitOption_bare (h : ∀ w ∈ args, w.LaidOut) :
    v.splitOption (args.map Value.bare) = (v.splitOption args).map fun split =>
      (split.1.map Value.bare, split.2.map fun e => (e.1, e.2.bare)) := by
  unfold splitOption
  cases v.trailing? with
  | none => rfl
  | some name =>
      dsimp only
      rw [List.getLast?_map]
      cases hlast : args.getLast? with
      | none => rfl
      | some last =>
          have hlaid := h last (List.mem_of_getLast? hlast)
          simp only [Option.map_some, Except.map, Value.isAbsent_bare hlaid, List.map_dropLast]
          cases last.isAbsent <;> rfl

theorem splitSpec_of_isExpr {last : Value} (hlast : args.getLast? = some last)
    (hexpr : last.isExpr = true) :
    tableCreate.splitSpec args = .error (.ofCause .needsTableSpec) := by
  rw [splitSpec, if_pos rfl, hlast]
  cases last <;> first | rfl | cases hexpr

theorem splitSpec_bare (h : ∀ w ∈ args, w.LaidOut) :
    v.splitSpec (args.map Value.bare) = (v.splitSpec args).map fun split =>
      (split.1.map Value.bare, split.2.map fun e => (e.1, e.2.bare)) := by
  by_cases hv : v = .tableCreate
  · subst hv
    cases hlast : args.getLast? with
    | none =>
        rw [List.getLast?_eq_none_iff] at hlast
        subst hlast
        rfl
    | some last =>
        have hlaid := h last (List.mem_of_getLast? hlast)
        have hbare : (args.map Value.bare).getLast? = some last.bare := by
          rw [List.getLast?_map, hlast]
          rfl
        cases hexpr : last.isExpr with
        | true =>
            rw [splitSpec_of_isExpr hlast hexpr,
              splitSpec_of_isExpr hbare (by rw [Value.isExpr_bare hlaid, hexpr])]
            rfl
        | false =>
            have hfields := Value.tableFields_bare hlaid
            rw [splitSpec, splitSpec, if_pos rfl, if_pos rfl, hlast, hbare]
            cases last with
            | tableSpec name p d c durability =>
                simp only [Value.bare] at hfields ⊢
                rw [hfields]
                simp [Except.map, List.map_dropLast]
                rfl
            | expr | row | placeholder => cases hexpr
            | _ => rfl
  · rw [splitSpec, splitSpec, if_neg hv, if_neg hv]
    rfl

/-- The arguments of an operation are arranged as they would be without settings. -/
theorem arrange_bare (h : ∀ w ∈ args, w.LaidOut) :
    v.arrange (args.map Value.bare) = (v.arrange args).map Arrangement.bare := by
  have ok_bind {α β : Type} (x : α) (f : α → Except Failure β) : (Except.ok x >>= f) = f x := rfl
  unfold arrange
  rw [checkReceiver_bare h, splitOption_bare h]
  cases v.checkReceiver args with
  | error f => rfl
  | ok u =>
      cases hoption : v.splitOption args with
      | error f => rfl
      | ok split =>
          obtain ⟨rest, trailing⟩ := split
          have hrest : ∀ w ∈ rest, w.LaidOut := fun w hw => h w ((mem_splitOption hoption).1 w hw)
          simp only [Except.map, ok_bind, splitSpec_bare hrest]
          cases hspec : v.splitSpec rest with
          | error f => rfl
          | ok split =>
              obtain ⟨positional, fields⟩ := split
              have habsent : ∀ w ∈ positional, w.bare.isAbsent = w.isAbsent := by
                intro w hw
                obtain hw | ⟨s, rfl⟩ := (mem_splitSpec hspec).1 w hw
                · exact Value.isAbsent_bare (hrest w hw)
                · rfl
              have hfilter : (positional.map Value.bare).filter (fun a => !a.isAbsent) =
                  (positional.filter fun a => !a.isAbsent).map Value.bare := by
                rw [List.filter_map]
                congr 1
                exact List.filter_congr fun w hw => congrArg Bool.not (habsent w hw)
              simp only [ok_bind, List.length_map, hfilter]
              change Except.ok _ = Except.ok _
              simp [Arrangement.bare]

end Verb

end QueryDriver
