import QueryDriver.Proofs.Rendering.Legible

/-!
# What is legible is written

The text of a legible value is that of a phrase that spells it, whatever the next number of a
placeholder is. The proof goes over the value as rendering does, with one lemma for each way in
which a node is written.
-/

namespace QueryDriver.Value

variable {ρ : Nat → Nat → Prop}

/-! ### Nodes -/

theorem commaList_nil : Text.commaList [] = "" := rfl

theorem commaList_singleton (s : String) : Text.commaList [s] = s := String.intercalate_singleton

theorem callText_head (op : Operator) (args : List String) :
    "r." ++ Phrase.callText op args = "r." ++ op.label ++ "(" ++ Text.commaList args ++ ")" := by
  simp only [Phrase.callText, String.append_assoc]

theorem callText_link (op : Operator) (args : List String) (receiver : String) :
    receiver ++ ("." ++ Phrase.callText op args) =
      receiver ++ "." ++ op.label ++ "(" ++ Text.commaList args ++ ")" := by
  simp only [Phrase.callText, String.append_assoc]

theorem tells_literal {v : Value} (h : Tells .value ρ v) : Tells .value ρ (.expr .literal [v]) := by
  intro m hρ
  obtain ⟨φ, k', hk', hφ, hwrites⟩ := h m hρ
  refine ⟨_, k', hk', .literal hφ, ?_⟩
  have htext : (Phrase.chain (.call .literal [φ] []) []).text = "r.expr(" ++ φ.text ++ ")" := by
    rw [Phrase.text_head]
    refine (callText_head _ _).trans ?_
    rw [Phrase.namedTexts, List.append_nil, Phrase.texts, Phrase.texts, commaList_singleton]
    rfl
  rw [htext]
  exact hwrites.bind (Rendering.writes_pure _ _)

theorem node_sketch {v : Value} (h : v.isExpr = true) : v.sketch.node = v.sketch.text := by
  rw [Sketch.node, value_sketch, if_pos h]

theorem tells_setting {s : Setting} {inner value : Value} (hs : s ≠ .returnValues)
    (hadmits : s.Admits value) (hexpr : inner.isExpr = true) (hfunction : inner.isFunction = false)
    (h : Tells .value ρ inner) : Tells .value ρ (.expr (.setting s) [inner, value]) := by
  intro m hρ
  obtain ⟨φ, k', hk', hφ, hwrites⟩ := h m hρ
  obtain ⟨head, links, rfl⟩ := hφ.exists_chain hfunction
  obtain ⟨shown, hshown, hvalue⟩ : ∃ shown : Phrase.Head, value.sketch.shown = pure shown.text ∧
      Spells .value ρ value (.chain shown []) := by
    obtain ⟨b, rfl⟩ | ⟨t, rfl⟩ := hadmits.bool_or_text
    · exact ⟨.bool b, rfl, .bool b⟩
    · exact ⟨.quoted t, rfl, .text t⟩
  refine ⟨_, k', hk', .setting hs hadmits hφ hvalue, ?_⟩
  have hsketch : (Value.expr (.setting s) [inner, value]).sketch.text = (do
      let receiver ← inner.sketch.text
      return receiver ++ "." ++ s.label ++ "(" ++ shown.text ++ ")") := by
    change Sketch.setting s [inner.sketch, value.sketch] = _
    rw [Sketch.setting, if_neg hs, hshown, node_sketch hexpr, pure_bind]
  rw [hsketch, Phrase.text_link, Phrase.Link.text, Phrase.namedTexts, List.append_nil,
    callText_link, Phrase.texts, Phrase.texts, commaList_singleton, Phrase.text_head]
  exact hwrites.bind (Rendering.writes_pure _ _)

theorem tells_returnValues {inner : Value} (hexpr : inner.isExpr = true)
    (hfunction : inner.isFunction = false) (h : Tells .value ρ inner) :
    Tells .value ρ (.expr (.setting .returnValues) [inner, .bool true]) := by
  intro m hρ
  obtain ⟨φ, k', hk', hφ, hwrites⟩ := h m hρ
  obtain ⟨head, links, rfl⟩ := hφ.exists_chain hfunction
  refine ⟨_, k', hk', .returnValues hφ, ?_⟩
  have hsketch : (Value.expr (.setting .returnValues) [inner, .bool true]).sketch.text = (do
      let receiver ← inner.sketch.text
      return receiver ++ "." ++ "return_values" ++ "(" ++ "" ++ ")") := by
    change Sketch.setting .returnValues [inner.sketch, (Value.bool true).sketch] = _
    rw [Sketch.setting, if_pos rfl, node_sketch hexpr, pure_bind]
    rfl
  rw [hsketch, Phrase.text_link, Phrase.Link.text, Phrase.namedTexts, List.append_nil,
    callText_link]
  exact hwrites.bind (Rendering.writes_pure _ _)

theorem tells_field {receiver : Value} {name : String} (hfunction : receiver.isFunction = false)
    (h : Tells .value ρ receiver) : Tells .value ρ (.expr (.verb .field) [receiver, .text name]) := by
  intro m hρ
  obtain ⟨φ, k', hk', hφ, hwrites⟩ := h m hρ
  obtain ⟨head, links, rfl⟩ := hφ.exists_chain hfunction
  refine ⟨_, k', hk', .field hφ, ?_⟩
  rw [Phrase.text_link, Phrase.Link.text, ← String.append_assoc, ← String.append_assoc]
  exact hwrites.bind (Rendering.writes_pure _ _)

theorem tells_callBehind {function operand : Value} (hexpr : operand.isExpr = true)
    (hreceiver : operand.isFunction = false) (hoperand : Tells .value ρ operand)
    (hfunction : Tells (.function (-1)) ρ function) :
    Tells .value ρ (.expr (.verb .call) [function, operand]) := by
  intro m hρ
  obtain ⟨φ, k', hk', hφ, hwrites⟩ := hoperand m hρ
  obtain ⟨head, links, rfl⟩ := hφ.exists_chain hreceiver
  obtain ⟨ψ, k'', hk'', hψ, hwrites'⟩ := hfunction k' (hρ.mono hk')
  refine ⟨_, k'', hk'.trans hk'', .callBehind hexpr hφ hψ, ?_⟩
  have hsketch : (Value.expr (.verb .call) [function, operand]).sketch.text = (do
      let receiver ← operand.sketch.text
      let body ← function.sketch.text
      return receiver ++ ".do(" ++ body ++ ")") := by
    change Sketch.call [function.sketch, operand.sketch] = _
    rw [Sketch.call]
    simp [Sketch.arg, value_sketch, hexpr]
  have htext : (Phrase.chain head (.call (.verb .call) [ψ] [] :: links)).text =
      (Phrase.chain head links).text ++ ".do(" ++ ψ.text ++ ")" := by
    rw [Phrase.text_link, Phrase.Link.text, Phrase.namedTexts, List.append_nil, callText_link,
      Phrase.texts, Phrase.texts, commaList_singleton]
    simp only [String.append_assoc]
    rfl
  rw [hsketch, htext]
  exact hwrites.bind (hwrites'.bind (Rendering.writes_pure _ _))

theorem writes_each_concat {xs : List (Rendering String)} {x : Rendering String} {k k' k'' : Nat}
    {ts : List String} {t : String} (hxs : (Rendering.each xs).Writes k ts k')
    (hx : x.Writes k' t k'') : (Rendering.each (xs ++ [x])).Writes k (ts ++ [t]) k'' := by
  rw [Rendering.each, List.mapM_append, List.mapM_cons, List.mapM_nil]
  have hlast : Rendering.Writes (do
      let a ← id x
      let as ← pure []
      return a :: as) k' [t] k'' :=
    hx.bind ((Rendering.writes_pure [] _).bind (Rendering.writes_pure _ _))
  exact hxs.bind (hlast.bind (Rendering.writes_pure _ _))

theorem tells_callOf {function : Value} {operands : List Value}
    (hform : ∀ w, operands = [w] → w.isExpr = false) (h : ∀ w ∈ operands, Tells .value ρ w)
    (hfunction : Tells (.function (-1)) ρ function) :
    Tells .value ρ (.expr (.verb .call) (function :: operands)) := by
  intro m hρ
  obtain ⟨φs, k', hk', hlength, hφs, hwrites⟩ := tells_each (fun _ => .value)
    (fun i v hv => h v (List.mem_of_getElem? hv)) hρ
  obtain ⟨ψ, k'', hk'', hψ, hwrites'⟩ := hfunction k' (hρ.mono hk')
  refine ⟨_, k'', hk'.trans hk'', .callOf hform hlength hφs hψ, ?_⟩
  have hsketch : (Value.expr (.verb .call) (function :: operands)).sketch.text = (do
      let parts ← Rendering.each (operands.map (·.sketch.text) ++ [function.sketch.text])
      return "r.do(" ++ Text.commaList parts ++ ")") := by
    change Sketch.call (function.sketch :: sketches operands) = _
    rw [sketches_eq_map]
    rcases operands with - | ⟨w, - | ⟨x, rest⟩⟩
    · rfl
    · simp [Sketch.call, Sketch.arg, value_sketch, hform w rfl]
    · simp [Sketch.call, Sketch.arg, Function.comp_def]
  have htext : (Phrase.chain (.call (.verb .call) (φs ++ [ψ]) []) []).text =
      "r.do(" ++ Text.commaList (φs.map Phrase.text ++ [ψ.text]) ++ ")" := by
    rw [Phrase.text_head, Phrase.Head.text, Phrase.namedTexts, List.append_nil, callText_head,
      Phrase.texts_eq_map, List.map_append]
    rfl
  rw [hsketch, htext]
  exact (writes_each_concat hwrites hwrites').bind (Rendering.writes_pure _ _)

/-! ### Calls with arguments as they stand -/

theorem getElem?_concat_eq_some {α : Type} {xs : List α} {x y : α} {i : Nat} :
    (xs ++ [x])[i]? = some y ↔ i < xs.length ∧ xs[i]? = some y ∨ i = xs.length ∧ y = x := by
  rcases Nat.lt_trichotomy i xs.length with hi | rfl | hi
  · simp [List.getElem?_append_left hi, hi, hi.ne]
  · simp [eq_comm]
  · have hlength : (xs ++ [x]).length ≤ i := by
      rw [List.length_append]
      exact hi
    simp [List.getElem?_eq_none hlength, hi.not_gt, hi.ne']

theorem given_sketches (args : List Value) :
    ((args.map sketch).filter fun s => !s.value.isAbsent).map (·.text) =
      (given args).map (·.sketch.text) := by
  rw [List.filter_map, List.map_map, given]
  congr 2
  funext w
  rw [Function.comp_apply, value_sketch]

/-- The phrases for the arguments of a call, those behind being written by their names. -/
structure Spelled (v : Verb) (slot : Nat → Slot) (ρ : Nat → Nat → Prop) (args : List Value)
    (φs ψs : List Phrase) : Prop where
  trails : ψs.length = (v.trails args).toNat
  length : (given args).length = (φs ++ ψs).length
  spells (i : Nat) (w : Value) (φ : Phrase) : (given args)[i]? = some w →
    (φs ++ ψs)[i]? = some φ → Spells (slot i) ρ w φ

section Arguments

variable {v : Verb} {args : List Value} (slot : Nat → Slot) {k : Nat}

theorem tells_positional (h : ∀ (i : Nat) w, (given args)[i]? = some w → Tells (slot i) ρ w)
    (hρ : Numbered k ρ) (htrails : v.trails args = false)
    (hsketch : Sketch.callArgs (.verb v) (args.map sketch) = (do
      let parts ← Rendering.each ((given args).map (·.sketch.text))
      return Text.commaList parts)) :
    ∃ (φs ψs : List Phrase) (k' : Nat), k ≤ k' ∧ Spelled v slot ρ args φs ψs ∧
      (Sketch.callArgs (.verb v) (args.map sketch)).Writes k
        (Text.commaList (Phrase.texts φs ++ Phrase.namedTexts (Operator.verb v).keyword ψs)) k' := by
  obtain ⟨φs, k', hk', hlength, hφs, hwrites⟩ := tells_each slot h hρ
  refine ⟨φs, [], k', hk', ⟨by rw [htrails]; rfl, by rw [List.append_nil, hlength],
    by rw [List.append_nil]; exact hφs⟩, ?_⟩
  rw [hsketch, Phrase.namedTexts, List.append_nil, Phrase.texts_eq_map]
  exact hwrites.bind (Rendering.writes_pure _ _)

section Named

variable {front : List Value} {last : Value} {keyword : String} (hname : v.trailing? = some keyword)

include hname

/-- The argument that is written by its name is the first one to be rendered. -/
theorem callArgs_concat : Sketch.callArgs (.verb v) ((front ++ [last]).map sketch) = (do
    let named ← if last.isAbsent then pure []
      else do
        let text ← last.sketch.text
        pure [keyword ++ "=" ++ text]
    let parts ← Rendering.each ((given front).map (·.sketch.text))
    return Text.commaList (parts ++ named)) := by
  rw [Sketch.callArgs, hname, ← given_sketches]
  simp only [List.map_append, List.map_cons, List.map_nil, List.getLast?_append_cons,
    List.getLast?_singleton, List.dropLast_concat, value_sketch]

theorem spelled_concat {φs : List Phrase} {ψ : Phrase} (habsent : last.isAbsent = false)
    (hlength : (given front).length = φs.length)
    (hφs : ∀ (i : Nat) w φ, (given front)[i]? = some w → φs[i]? = some φ → Spells (slot i) ρ w φ)
    (hψ : Spells (slot (given front).length) ρ last ψ) :
    Spelled v slot ρ (front ++ [last]) φs [ψ] := by
  have hgiven : given (front ++ [last]) = given front ++ [last] := by
    simp [given, habsent]
  refine ⟨by simp [Verb.trails, hname, habsent], ?_, fun i w φ hw hφ => ?_⟩
  · rw [hgiven, List.length_append, List.length_append, hlength]
    rfl
  · rw [hgiven, getElem?_concat_eq_some] at hw
    rw [getElem?_concat_eq_some, ← hlength] at hφ
    obtain ⟨hi, hw⟩ | ⟨rfl, rfl⟩ := hw
    · obtain ⟨-, hφ⟩ | ⟨rfl, -⟩ := hφ
      · exact hφs i w φ hw hφ
      · exact absurd hi (lt_irrefl _)
    · obtain ⟨hi, -⟩ | ⟨-, rfl⟩ := hφ
      · exact absurd hi (lt_irrefl _)
      · exact hψ

theorem tells_named (habsent : last.isAbsent = false)
    (h : ∀ (i : Nat) w, (given front ++ [last])[i]? = some w → Tells (slot i) ρ w)
    (hρ : Numbered k ρ) :
    ∃ (φs ψs : List Phrase) (k' : Nat), k ≤ k' ∧ Spelled v slot ρ (front ++ [last]) φs ψs ∧
      (Sketch.callArgs (.verb v) ((front ++ [last]).map sketch)).Writes k
        (Text.commaList (Phrase.texts φs ++ Phrase.namedTexts (Operator.verb v).keyword ψs)) k' := by
  have hkeyword : (Operator.verb v).keyword = keyword := by
    rw [Operator.keyword, hname, Option.getD_some]
  obtain ⟨ψ, k', hk', hψ, hwrites⟩ := h (given front).length last (by simp) k hρ
  have hfront (i : Nat) (w : Value) (hw : (given front)[i]? = some w) : Tells (slot i) ρ w :=
    h i w (by rw [List.getElem?_append_left (List.getElem?_eq_some_iff.1 hw).1, hw])
  obtain ⟨φs, k'', hk'', hlength, hφs, hwrites'⟩ := tells_each slot hfront (hρ.mono hk')
  refine ⟨φs, [ψ], k'', hk'.trans hk'', spelled_concat slot hname habsent hlength hφs hψ, ?_⟩
  rw [callArgs_concat hname, habsent, Phrase.texts_eq_map, hkeyword, if_neg Bool.false_ne_true]
  exact hwrites.bind ((Rendering.writes_pure _ _).bind (hwrites'.bind (Rendering.writes_pure _ _)))

end Named

theorem tells_callArgs (h : ∀ (i : Nat) w, (given args)[i]? = some w → Tells (slot i) ρ w)
    (hρ : Numbered k ρ) :
    ∃ (φs ψs : List Phrase) (k' : Nat), k ≤ k' ∧ Spelled v slot ρ args φs ψs ∧
      (Sketch.callArgs (.verb v) (args.map sketch)).Writes k
        (Text.commaList (Phrase.texts φs ++ Phrase.namedTexts (Operator.verb v).keyword ψs)) k' := by
  cases hname : v.trailing? with
  | none =>
      refine tells_positional slot h hρ (by rw [Verb.trails, hname]; rfl) ?_
      rw [Sketch.callArgs, hname, ← given_sketches]
  | some keyword =>
      cases args using List.reverseRecOn with
      | nil =>
          refine tells_positional slot h hρ
            (by rw [Verb.trails, List.getLast?_nil, Option.any_none, Bool.and_false]) ?_
          simp [Sketch.callArgs, hname, given]
      | append_singleton front last =>
          cases habsent : last.isAbsent with
          | true =>
              have hgiven : given (front ++ [last]) = given front := by
                simp [given, habsent]
              refine tells_positional slot h hρ (by simp [Verb.trails, habsent]) ?_
              rw [callArgs_concat hname, habsent, hgiven]
              simp
          | false =>
              have hgiven : given (front ++ [last]) = given front ++ [last] := by
                simp [given, habsent]
              exact tells_named slot hname habsent (hgiven ▸ h) hρ

end Arguments

theorem sketch_call {v : Verb} (hv : v.isCall = true) (args : List Value) :
    (Value.expr (.verb v) args).sketch.text = Sketch.plain (.verb v) (args.map sketch) := by
  have hnode (args : List Sketch) : Sketch.ofNode (.verb v) args = Sketch.plain (.verb v) args := by
    cases v <;> first | rfl | cases hv
  rw [← hnode, ← sketches_eq_map]
  rfl

theorem tells_method {v : Verb} {receiver : Value} {others : List Value} (hcall : v.isCall = true)
    (halone : v.standsAlone = false) (hexpr : receiver.isExpr = true)
    (hfunction : receiver.isFunction = false) (hreceiver : Tells .value ρ receiver)
    (hwhole : v.afterDatabase?.isSome = true → ∀ w ∈ others, w.isAbsent = false)
    (h : ∀ (i : Nat) w, (given others)[i]? = some w → Tells (v.slot (i + 1)) ρ w) :
    Tells .value ρ (.expr (.verb v) (receiver :: others)) := by
  intro m hρ
  obtain ⟨φ, k', hk', hφ, hwrites⟩ := hreceiver m hρ
  obtain ⟨head, links, rfl⟩ := hφ.exists_chain hfunction
  obtain ⟨φs, ψs, k'', hk'', hargs, hwrites'⟩ := tells_callArgs
    (fun i => v.slot (i + 1)) h (hρ.mono hk')
  refine ⟨_, k'', hk'.trans hk'', .method hcall halone hexpr hφ hwhole hargs.trails
    hargs.length hargs.spells, ?_⟩
  have hsketch : (Value.expr (.verb v) (receiver :: others)).sketch.text = (do
      let receiver ← receiver.sketch.text
      let inner ← Sketch.callArgs (.verb v) (others.map sketch)
      return receiver ++ "." ++ v.label ++ "(" ++ inner ++ ")") := by
    have hplain : (Operator.standsAlone (.verb v) || !receiver.sketch.value.isExpr) = false := by
      rw [value_sketch, hexpr]
      exact (Bool.or_false _).trans halone
    rw [sketch_call hcall, List.map_cons, Sketch.plain, hplain]
    rfl
  rw [hsketch, Phrase.text_link, Phrase.Link.text, callText_link]
  exact hwrites.bind (hwrites'.bind (Rendering.writes_pure _ _))

theorem tells_function {v : Verb} {args : List Value} (hcall : v.isCall = true)
    (hform : v.standsAlone = true ∨ ∀ w ∈ args.head?, w.isExpr = false)
    (hwhole : v.afterDatabase?.isSome = true → ∀ w ∈ args, w.isAbsent = false)
    (h : ∀ (i : Nat) w, (given args)[i]? = some w → Tells (v.slot i) ρ w) :
    Tells .value ρ (.expr (.verb v) args) := by
  intro m hρ
  cases args with
  | nil =>
      have htrails : v.trails [] = false := Bool.and_false _
      have hφ : Spells .value ρ (.expr (.verb v) []) (.chain (.call (.verb v) [] []) []) :=
        .function hcall hform hwhole (by rw [htrails]; rfl) rfl fun i w φ hw => by cases hw
      have htext : (Phrase.chain (.call (.verb v) [] []) []).text =
          "r." ++ (Operator.verb v).label ++ "()" := by
        rw [Phrase.text_head, Phrase.Head.text, callText_head, Phrase.texts, Phrase.namedTexts]
        rw [List.append_nil, commaList_nil, String.append_empty, String.append_assoc]
        rfl
      refine ⟨_, m, le_rfl, hφ, ?_⟩
      rw [sketch_call hcall, htext]
      exact Rendering.writes_pure _ _
  | cons first others =>
      obtain ⟨φs, ψs, k', hk', hargs, hwrites⟩ := tells_callArgs (v := v) v.slot h hρ
      refine ⟨_, k', hk', .function hcall hform hwhole hargs.trails hargs.length hargs.spells, ?_⟩
      rw [Phrase.text_head, Phrase.Head.text, callText_head]
      have hplain : (Operator.standsAlone (.verb v) || !first.sketch.value.isExpr) = true := by
        rw [value_sketch]
        obtain halone | hfirst := hform
        · exact (congrArg (· || _) halone).trans (Bool.true_or _)
        · rw [hfirst first rfl]
          exact Bool.or_true _
      rw [sketch_call hcall, List.map_cons, Sketch.plain, hplain]
      exact hwrites.bind (Rendering.writes_pure _ _)

/-! ### What can be read is written -/

theorem Renamed.self_items {items : List Value} {v : Value}
    (h : List.Forall₂ (Renamed ρ) items items) (hv : v ∈ items) : Renamed ρ v v :=
  List.forall₂_same.1 h v hv

theorem Renamed.self_argument {op : Operator} {args : List Value} {v : Value}
    (h : Renamed ρ (.expr op args) (.expr op args)) (hv : v ∈ args) : Renamed ρ v v := by
  obtain ⟨args', hw, hargs, -⟩ := h.of_expr
  cases hw
  exact Renamed.self_items hargs hv

theorem Tells.of_function {face : Face} {run : List Nat → Except Failure Value} {j : Int}
    {v : Value} (h : Tells (.function (-1)) ρ (.expr .func [.func face run, .int j]))
    (hv : ∀ φ, Spells (.function (-1)) ρ (.expr .func [.func face run, .int j]) φ →
      Spells .value ρ v φ)
    (hsketch : v.sketch.text = (Value.expr .func [.func face run, .int j]).sketch.text) :
    Tells .value ρ v := by
  intro m hρ
  obtain ⟨φ, k', hk', hφ, hwrites⟩ := h m hρ
  exact ⟨φ, k', hk', hv φ hφ, hsketch ▸ hwrites⟩

theorem Legible.isAbsent_eq {slot : Slot} {v : Value} (h : Legible slot v) :
    v.isAbsent = false := by
  induction h with
  | @basic v h => cases v <;> first | rfl | cases h
  | ordered _ _ ih => exact ih
  | _ => rfl

theorem given_append {args spare : List Value} (hpresent : ∀ w ∈ args, w.isAbsent = false)
    (hspare : spare = [] ∨ spare = [.absent]) : given (args ++ spare) = args := by
  have hnone : given spare = [] := by
    obtain rfl | rfl := hspare <;> rfl
  rw [given, List.filter_append, ← given, ← given, given_eq_self hpresent, hnone, List.append_nil]

/-- A call is written behind its first argument if that is an expression. -/
theorem tells_verb {v : Verb} {args spare : List Value} (hcall : v.isCall = true)
    (hspare : spare = [] ∨ v.hasSpare = true ∧ spare = [.absent])
    (hpresent : ∀ w ∈ args, w.isAbsent = false)
    (hreceiver : v.standsAlone = false → ∀ w ∈ args.head?, w.isExpr = true → w.isFunction = false)
    (h : ∀ (i : Nat) w, args[i]? = some w → Tells (v.slot i) ρ w) :
    Tells .value ρ (.expr (.verb v) (args ++ spare)) := by
  have hwhole (hv : v.afterDatabase?.isSome = true) : ∀ w ∈ args ++ spare, w.isAbsent = false := by
    obtain rfl | ⟨hspare, -⟩ := hspare
    · rwa [List.append_nil]
    · exact absurd hspare (by rw [Verb.hasSpare_of_afterDatabase hv]; exact Bool.false_ne_true)
  have hgiven := given_append hpresent (hspare.imp_right And.right)
  have hfunction (hform : v.standsAlone = true ∨ ∀ w ∈ (args ++ spare).head?, w.isExpr = false) :
      Tells .value ρ (.expr (.verb v) (args ++ spare)) :=
    tells_function hcall hform hwhole fun i w hw => h i w (hgiven ▸ hw)
  cases halone : v.standsAlone with
  | true => exact hfunction (.inl halone)
  | false =>
      cases args with
      | nil =>
          refine hfunction (.inr fun w hw => ?_)
          obtain rfl | ⟨-, rfl⟩ := hspare
          · cases hw
          · cases hw
            rfl
      | cons receiver others =>
          cases hexpr : receiver.isExpr with
          | false =>
              refine hfunction (.inr fun w hw => ?_)
              cases hw
              exact hexpr
          | true =>
              have hgiven := given_append (List.forall_mem_cons.1 hpresent).2
                (hspare.imp_right And.right)
              have hslot : v.slot 0 = .value := by
                cases v <;> first | rfl | exact absurd halone (by decide) | cases hcall
              exact tells_method hcall halone hexpr (hreceiver halone receiver rfl hexpr)
                (hslot ▸ h 0 receiver rfl) (fun hv => (List.forall_mem_cons.1 (hwhole hv)).2)
                fun i w hw => h (i + 1) w (hgiven ▸ hw)

theorem tells_call {function : Value} {operands : List Value}
    (hreceiver : ∀ w, operands = [w] → w.isExpr = true → w.isFunction = false)
    (hfunction : Tells (.function (-1)) ρ function) (h : ∀ w ∈ operands, Tells .value ρ w) :
    Tells .value ρ (.expr (.verb .call) (function :: operands)) := by
  by_cases hone : ∃ w, operands = [w] ∧ w.isExpr = true
  · obtain ⟨operand, rfl, hexpr⟩ := hone
    exact tells_callBehind hexpr (hreceiver operand rfl hexpr) (h operand List.mem_cons_self)
      hfunction
  · refine tells_callOf (fun w hw => ?_) h hfunction
    exact Bool.eq_false_iff.2 fun hexpr => hone ⟨w, hw, hexpr⟩

/-- The text of a legible value is that of a phrase that spells it. -/
theorem Legible.tells {slot : Slot} {v : Value} (h : Legible slot v) (hself : Renamed ρ v v)
    (hlaid : v.LaidOut) : Tells slot ρ v := by
  induction h generalizing ρ with
  | basic h => exact tells_basic h
  | row => exact tells_of_pure .row rfl
  | placeholder n =>
      cases hself with
      | atom h => cases h
      | placeholder h => exact tells_of_pure (.placeholder h) rfl
  | list _ ih =>
      cases hself with
      | atom h => cases h
      | list hlength h =>
          exact tells_list fun v hv => ih v hv
            (Renamed.self_items (Renamed.items_of_zip hlength h) hv) (hlaid.part (.item hv))
  | dict hkey _ ih =>
      cases hself with
      | atom h => cases h
      | dict hlength hkeys h =>
          have hentries := Renamed.entries_of_zip hlength hkeys h
          exact tells_dict hkey fun e he => ih e he (List.forall₂_same.1 hentries e he).2
            (hlaid.part (.entry he))
  | spec hp hd hc => exact tells_spec hp hd hc
  | applied hj htakes htype hcount hadmits hrun _ ih =>
      have hfunction := hlaid.part (.argument List.mem_cons_self)
      exact tells_applied hj htakes htype hcount hadmits hrun (hself.self_argument List.mem_cons_self)
        fun first v hv ρ hself => ih first v hv hself (hfunction.part (.result hv))
  | constant hbody _ ih =>
      exact tells_constant hbody (ih (hself.self_argument List.mem_cons_self)
        (hlaid.part (.argument List.mem_cons_self)))
  | callable _ ih =>
      exact (ih (hself.function (-1)) (Value.Fits.upheld.wrapCounted hlaid (-1))).of_function
        (fun _ => .callable) rfl
  | wrapped _ ih => exact (ih hself hlaid).of_function (fun _ => .wrapped) rfl
  | ordered hv _ ih =>
      intro m hρ
      obtain ⟨φ, k', hk', hφ, hwrites⟩ := ih hself hlaid m hρ
      exact ⟨φ, k', hk', .ordered hv hφ, hwrites⟩
  | key hbody _ ih =>
      intro m hρ
      obtain ⟨φ, k', hk', hφ, hwrites⟩ := ih hself hlaid m hρ
      exact ⟨φ, k', hk', .key hbody hφ, hwrites⟩
  | literal _ ih =>
      exact tells_literal (ih (hself.self_argument List.mem_cons_self)
        (hlaid.part (.argument List.mem_cons_self)))
  | setting hs hinner _ ih =>
      obtain ⟨_, _, hargs, hexpr, hadmits⟩ := hlaid.self _ _ rfl
      cases hargs
      exact tells_setting hs hadmits hexpr hinner (ih (hself.self_argument List.mem_cons_self)
        (hlaid.part (.argument List.mem_cons_self)))
  | returnValues hinner _ ih =>
      obtain ⟨_, _, hargs, hexpr, -⟩ := hlaid.self _ _ rfl
      cases hargs
      exact tells_returnValues hexpr hinner (ih (hself.self_argument List.mem_cons_self)
        (hlaid.part (.argument List.mem_cons_self)))
  | field hreceiver _ ih =>
      exact tells_field hreceiver (ih (hself.self_argument List.mem_cons_self)
        (hlaid.part (.argument List.mem_cons_self)))
  | @call function operands hreceiver _ _ ihfunction ih =>
      refine tells_call hreceiver (ihfunction (hself.self_argument List.mem_cons_self)
        (hlaid.part (.argument List.mem_cons_self))) fun w hw => ?_
      have hmem : w ∈ function :: operands := List.mem_cons_of_mem _ hw
      exact ih w hw (hself.self_argument hmem) (hlaid.part (.argument hmem))
  | @verb v args spare hcall hspare hreceiver hlegible ih =>
      refine tells_verb hcall hspare (fun w hw => ?_) hreceiver fun i w hw => ?_
      · obtain ⟨i, hw⟩ := List.mem_iff_getElem?.1 hw
        exact (hlegible i w hw).isAbsent_eq
      · have hmem : w ∈ args ++ spare := List.mem_append_left _ (List.mem_of_getElem? hw)
        exact ih i w hw (hself.self_argument hmem) (hlaid.part (.argument hmem))

end QueryDriver.Value
