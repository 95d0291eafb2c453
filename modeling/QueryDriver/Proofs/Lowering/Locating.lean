import QueryDriver.Proofs.Compilation.Variables
import QueryDriver.Proofs.Value.Located

/-!
# The database of a scope is a shorthand

A table operation that leaves its database out is compiled with the database of the scope as its
receiver. Compiling a value is the same as compiling what it is located with that receiver, under
any database: the same term, the same numbers of variables, the same failures. So the database of a
scope matters for nothing but the nodes that leave theirs out.
-/

namespace QueryDriver

open Wire Lowering

/-! ### The receiver in front -/

namespace Verb

variable {v : Verb} {args : List Value}

/-- Operations whose database may be left out need no table and have no option of their own. -/
theorem plain_of_afterDatabase (h : v.afterDatabase?.isSome = true) :
    v.needsTable = false ∧ v.trailing? = none := by
  cases v <;> first | exact ⟨rfl, rfl⟩ | cases h

theorem arrange_of_afterDatabase (h : v.afterDatabase?.isSome = true) (args : List Value) :
    v.arrange args = (v.splitSpec args).map fun split =>
      ⟨v.afterDatabase? = some args.length, split.1.filter fun a => !a.isAbsent, split.2⟩ := by
  obtain ⟨htable, htrailing⟩ := plain_of_afterDatabase h
  have hreceiver : v.checkReceiver args = .ok () := by simp [checkReceiver, htable]
  have hoption : v.splitOption args = .ok (args, []) := by rw [splitOption, htrailing]
  rw [arrange, hreceiver, hoption]
  change (v.splitSpec args >>= fun split => _) = _
  cases v.splitSpec args <;> rfl

theorem splitSpec_cons (d : Value) (h : v = .tableCreate → args ≠ []) :
    v.splitSpec (d :: args) = (v.splitSpec args).map fun split => (d :: split.1, split.2) := by
  by_cases hv : v = .tableCreate
  · subst hv
    cases args using List.reverseRecOn with
    | nil => exact absurd rfl (h rfl)
    | append_singleton front last =>
        rw [← List.cons_append, splitSpec_append_singleton, splitSpec_append_singleton]
        cases last.specName? <;> rfl
  · rw [splitSpec, splitSpec, if_neg hv, if_neg hv]
    rfl

/-- A receiver in front takes the place of the database of the scope. -/
theorem arrange_cons {d : Value} (h : v.afterDatabase? = some args.length)
    (hd : d.isAbsent = false) :
    v.arrange (d :: args) = (v.arrange args).map fun a =>
      { a with implicit := false, positional := d :: a.positional } := by
  have hsome : v.afterDatabase?.isSome = true := by rw [h]; rfl
  have hne : v = .tableCreate → args ≠ [] := by
    rintro rfl rfl
    cases h
  rw [arrange_of_afterDatabase hsome, arrange_of_afterDatabase hsome, splitSpec_cons d hne, h]
  cases v.splitSpec args <;> simp [Except.map, hd]

/-- The database of the scope is put in front exactly if it is left out. -/
theorem implicit_of_arrange {a : Arrangement} (h : v.arrange args = .ok a) :
    a.implicit = (Operator.verb v).omitsDatabase args.length := by
  cases hdatabase : v.afterDatabase? with
  | none =>
      obtain ⟨rest, trailing, positional, fields, -, -, rfl⟩ := arrange_ok h
      simp [Operator.omitsDatabase, hdatabase]
  | some count =>
      rw [arrange_of_afterDatabase (by rw [hdatabase]; rfl)] at h
      obtain ⟨-, -, rfl⟩ := map_ok h
      rfl

end Verb

/-- The same settings, and any database. -/
def Scope.SameSettings (c c' : Scope) : Prop := ∀ s, c.get s = c'.get s

theorem Scope.SameSettings.set {c c' : Scope} (h : c.SameSettings c') (s : Setting) (v : Value) :
    (c.set s v).SameSettings (c'.set s v) := by
  intro s'
  by_cases hs : s = s'
  · subst hs
    cases s <;> rfl
  · rw [get_set_of_ne c v hs, get_set_of_ne c' v hs]
    exact h s'

/-! ### Side by side -/

/-- Two compilations that are to be the same. -/
theorem simulation_eq : Simulation Eq (fun _ => Eq) Eq :=
  .of_eq (fun _ => parallel_refl _) fun _ => parallel_refl _

theorem result_located {operand : Value → Operand} {c c' : Scope} {d : Value}
    {result : Except Failure Value} (h : ∀ w, result = .ok w →
      Parallel Eq Eq (Value.lowerAt operand w 0 c) (Value.lowerAt operand (w.located d) 0 c')) :
    Corresponds (fun v w => v.isNull = w.isNull ∧
      Parallel Eq Eq (Value.lowerAt operand v 0 c) (Value.lowerAt operand w 0 c')) result
      (Value.locatedResult result d) := by
  cases result with
  | error f => exact .error f
  | ok w => exact .ok ⟨(Value.isNull_located d w).symm, h w rfl⟩

section Carried

variable {operand : Value → Operand} {c c' : Scope} (hoperand : ∀ s w c, Setting.Admits s w →
  (operand w).term c = (pure w.settingTerm : Lowering Term))

include hoperand

/-- The database that is put in front is compiled like a node that is written there. -/
theorem implicitDatabase_term (hc : c.Typed) :
    (implicitDatabase c operand).term c = (Value.operandBy operand c.receiver).term c' := by
  obtain ⟨s, hs⟩ := hc.database
  have hterm : (operand (.text s)).term c = (pure (Value.text s).settingTerm : Lowering Term) :=
    hoperand .durability _ c ⟨s, rfl⟩
  have hnames : lowerEach c (if (Value.text s).isAbsent then [] else [operand (.text s)]) =
      (pure [(Value.text s).settingTerm] : Lowering (List Term)) := by
    change [operand (.text s)].mapM _ = _
    rw [List.mapM_cons, hterm]
    rfl
  rw [Scope.receiver, hs]
  change (lowerEach c (if c.database.isAbsent then [] else [operand c.database]) >>= _) = _
  rw [hs, hnames]
  rfl

/-- An operation that leaves its database out, and the same operation with the database of the
scope in front. -/
theorem lowerVerb_located (hc : c.Typed) (hsettings : c.SameSettings c') {v : Verb}
    (hv : v ≠ .var) {args args' : List Value}
    (hargs' : Value.located (.expr (.verb v) args) c.receiver = .expr (.verb v) args')
    (h : ∀ a, v.arrange args = .ok a → ∀ w ∈ a.positional ++ a.named.map (·.2),
      Parallel Eq Eq (Value.lowerAt operand w 0 c)
        (Value.lowerAt operand (w.located c.receiver) 0 c')) :
    Parallel Eq Eq (lowerVerb operand v (args.map (Value.operandBy operand)) c)
      (lowerVerb operand v (args'.map (Value.operandBy operand)) c') := by
  have hmap : List.Forall₂ (fun v w => w = v.located c.receiver) args
      (args.map (Value.located · c.receiver)) := by
    rw [List.forall₂_map_right_iff, List.forall₂_same]
    exact fun _ _ => rfl
  have hplaced {a a' : Arrangement} (ha : a.Resembles (fun v w => w = v.located c.receiver) a')
      (hok : v.arrange args = .ok a) :
      List.Forall₂ (fun o o' => Parallel Eq Eq (o.term c) (o'.term c'))
        (a.positional.map (Value.operandBy operand)) (a'.positional.map (Value.operandBy operand)) ∧
      List.Forall₂ (fun e f => e.1 = f.1 ∧ Parallel Eq Eq (Value.lowerAt operand e.2 0 c)
        (Value.lowerAt operand f.2 0 c')) a.named a'.named := by
    obtain ⟨hpositional, hnamed⟩ := List.forall_mem_append.1 (h a hok)
    rw [List.forall₂_map_left_iff, List.forall₂_map_right_iff]
    refine ⟨((List.forall₂_and_left _ _).2 ⟨hpositional, ha.positional⟩).imp ?_,
      ((List.forall₂_and_left _ _).2 ⟨List.forall_mem_map.1 hnamed, ha.named⟩).imp ?_⟩
    · rintro w _ ⟨hw, rfl⟩
      exact hw
    · rintro e f ⟨he, hname, hf⟩
      exact ⟨hname, hf ▸ he⟩
  refine simulation_eq.lowerVerb hv ?_ ?_
  · have hresembles := ((Value.resemblance_located c.receiver).arrange (v := v) hmap).results
    cases homits : (Operator.verb v).omitsDatabase args.length with
    | true =>
        rw [Value.located_expr_of_omits _ homits] at hargs'
        obtain ⟨-, rfl⟩ := Value.expr.inj hargs'
        have hcount : v.afterDatabase? = some (args.map (Value.located · c.receiver)).length := by
          simpa [Operator.omitsDatabase] using homits
        rw [Verb.arrange_cons hcount rfl]
        refine hresembles.map_right fun a a' ha => ?_
        obtain ⟨ha, hok, -⟩ := ha
        rw [(Verb.implicit_of_arrange hok).trans homits]
        refine ⟨.cons ?_ (hplaced ha hok).1, (hplaced ha hok).2⟩
        rw [implicitDatabase_term hoperand hc]
        exact parallel_refl _
    | false =>
        rw [Value.located_expr_of_keeps _ homits] at hargs'
        obtain ⟨-, rfl⟩ := Value.expr.inj hargs'
        refine hresembles.mono fun a a' ha => ?_
        obtain ⟨ha, hok, -⟩ := ha
        rw [← ha.implicit, (Verb.implicit_of_arrange hok).trans homits]
        exact hplaced ha hok
  · refine scopeOptions_related (R := fun o o' => Parallel Eq Eq (o.term c) (o'.term c')) v ?_ ?_ ?_
    · exact parallel_pure rfl
    · exact fun s => by rw [hsettings s]
    · intro s
      rw [← hsettings s, hoperand s _ c (hc.setting s), hoperand s _ c' (hc.setting s)]
      exact parallel_pure rfl

theorem lowerNode_located (hc : c.Typed) (hsettings : c.SameSettings c') {op : Operator}
    {args args' : List Value} (hlaid : (Value.expr op args).LaidOut)
    (hargs' : (Value.expr op args).located c.receiver = .expr op args')
    (hbelow : ∀ w, Value.Below w (.expr op args) → ∀ c c' : Scope, c.Typed → c.SameSettings c' →
      ∀ d, c.receiver = d →
      Parallel Eq Eq (Value.lowerAt operand w 0 c) (Value.lowerAt operand (w.located d) 0 c')) :
    Parallel Eq Eq (lowerNode operand op (args.map (Value.operandBy operand)) c)
      (lowerNode operand op (args'.map (Value.operandBy operand)) c') := by
  have hfits : op.Fits args := hlaid.self op args rfl
  have hpart (w : Value) (hw : w ∈ args) := hbelow w (.single (.argument hw))
  cases op with
  | literal =>
      obtain ⟨v, rfl⟩ := hfits
      rw [Value.located_expr_of_keeps _ rfl] at hargs'
      obtain ⟨-, rfl⟩ := Value.expr.inj hargs'
      exact hpart v List.mem_cons_self c c' hc hsettings _ rfl
  | func =>
      obtain ⟨body, hint, rfl, hhint⟩ := hfits
      rw [Value.located_expr_of_keeps _ rfl] at hargs'
      obtain ⟨-, rfl⟩ := Value.expr.inj hargs'
      have hhint' : hint.located c.receiver = hint := by
        obtain ⟨n, rfl⟩ | ⟨b, rfl⟩ := hhint <;> rfl
      simp only [List.map_cons, List.map_nil, hhint']
      change Parallel Eq Eq ((Value.operandBy operand body).asFunction hint c)
        ((Value.operandBy operand (body.located c.receiver)).asFunction hint c')
      cases happlied : body.isApplied with
      | true =>
          cases body with
          | func face run =>
              have htype : face.isType = false := by simpa [Value.isApplied] using happlied
              refine simulation_eq.asFunction_func htype hint fun count ps _ _ hps => hps ▸ ?_
              exact result_located fun w hw => hbelow w
                (.tail (.single (.result hw)) (.argument List.mem_cons_self)) c c' hc hsettings _ rfl
          | _ => cases happlied
      | false =>
          exact simulation_eq.asFunction_body happlied
            (by rw [Value.isApplied_located, happlied]) hint
            (hpart body List.mem_cons_self c c' hc hsettings _ rfl)
  | setting s =>
      obtain ⟨inner, value, rfl, -, hvalue⟩ := hfits
      rw [Value.located_expr_of_keeps _ rfl] at hargs'
      obtain ⟨-, rfl⟩ := Value.expr.inj hargs'
      have hvalue' : value.located c.receiver = value := by
        obtain ⟨b, rfl⟩ | ⟨t, rfl⟩ := hvalue.bool_or_text <;> rfl
      simp only [List.map_cons, List.map_nil, hvalue', lowerNode_setting]
      refine (parallel_refl _).bind fun _ _ _ => ?_
      refine hpart inner List.mem_cons_self _ _ (hc.set hvalue) (hsettings.set s value) _ ?_
      rw [Scope.receiver, Scope.receiver]
      exact congrArg (fun d => Value.expr (.verb .db) [d]) (Scope.set_database c s value)
  | verb v =>
      refine lowerVerb_located hoperand hc hsettings hfits.ne_var hargs' fun a ha => ?_
      refine Verb.forall_of_arrange ha (fun w hw => hbelow w hw c c' hc hsettings _ rfl) fun s => ?_
      exact parallel_refl _

theorem lowerAt_located {v : Value} (hv : v.LaidOut) (hc : c.Typed) (hsettings : c.SameSettings c')
    {d : Value} (hd : c.receiver = d) (depth : Int) :
    Parallel Eq Eq (Value.lowerAt operand v depth c) (Value.lowerAt operand (v.located d) depth c')
    := by
  induction v using Value.induction generalizing c c' d depth with
  | step v ih =>
  have hpart (w : Value) (hw : Value.IsPart w v) (depth : Int) :=
    ih w (.single hw) (hv.part hw) hc hsettings hd depth
  have hentries {entries : List (Value × Value)} (he : ∀ e ∈ entries, Value.IsPart e.2 v) :
      Parallel Eq Eq (Value.lowerEntries (Value.entryParts operand entries) (depth + 1) c)
        (Value.lowerEntries (Value.entryParts operand
          (entries.map fun e => (e.1, e.2.located d))) (depth + 1) c') := by
    refine simulation_eq.lowerEntries ?_
    rw [List.forall₂_map_right_iff, List.forall₂_same]
    exact fun e hmem => ⟨parallel_refl _, hpart e.2 (he e hmem) _⟩
  have hitems {items : List Value} (hw : ∀ w ∈ items, Value.IsPart w v) :
      Parallel Eq Eq (Value.lowerItems (Value.itemParts operand items) (depth + 1) c)
        (Value.lowerItems (Value.itemParts operand (items.map (Value.located · d)))
          (depth + 1) c') := by
    refine simulation_eq.lowerItems ?_
    rw [List.forall₂_map_right_iff, List.forall₂_same]
    exact fun w hmem => hpart w (hw w hmem) _
  have hchecked := parallel_checkLiteralDepth (P := Eq) depth
  cases v with
  | expr op args =>
      obtain ⟨args', hargs'⟩ : ∃ args', (Value.expr op args).located d = .expr op args' :=
        ⟨_, Value.located_expr d op args⟩
      subst hd
      rw [hargs']
      refine hchecked.bind fun _ _ _ => ?_
      rw [Value.operands_eq_map, Value.operands_eq_map]
      refine lowerNode_located hoperand hc hsettings hv hargs' fun w hw c c' hc hsettings d hd => ?_
      exact ih w hw (hv.below hw) hc hsettings hd 0
  | dict entries =>
      rw [Value.located, Value.locatedEntries_eq_map]
      exact hchecked.bind fun _ _ _ => hentries fun _ => .entry
  | mapping entries =>
      rw [Value.located, Value.locatedEntries_eq_map]
      exact hchecked.bind fun _ _ _ => hentries fun _ => .image
  | list items =>
      rw [Value.located, Value.locatedItems_eq_map]
      exact hchecked.bind fun _ _ _ => hitems fun _ => .item
  | tuple items =>
      rw [Value.located, Value.locatedItems_eq_map]
      exact hchecked.bind fun _ _ _ => hitems fun _ => .component
  | func face run =>
      rw [Value.located]
      refine hchecked.bind fun _ _ _ => ?_
      split
      · exact parallel_throw _
      · refine simulation_eq.lowerCallable face _ fun count ps _ _ hps => hps ▸ ?_
        exact parallel_lowerResult (result_located fun w hw => hpart w (.result hw) 0)
  | row =>
      refine hchecked.bind fun _ _ _ => ?_
      rw [lowerNode_implicitVar, lowerNode_implicitVar]
      exact parallel_refl _
  | placeholder n =>
      refine hchecked.bind fun _ _ _ => ?_
      rw [lowerNode_var, lowerNode_var]
      exact parallel_refl _
  | _ => exact parallel_refl _

end Carried

/-- The database of a scope stands for a receiver: compiling a value is compiling the same value
with that receiver in front of every table operation that leaves its database out, under the same
settings and any database. No other node is touched, and none is left that would be. -/
theorem lower_eq_located {v : Value} (hv : v.Built) {c : Scope} (hc : c.Typed) :
    (∀ name : String,
      v.lower c = (v.located c.receiver).lower { c with database := .text name }) ∧
    ((v.located c.receiver).Throughout fun w => w.omitsDatabase = false) ∧
    ((v.Throughout fun w => w.omitsDatabase = false) → v.located c.receiver = v) := by
  refine ⟨fun name => ?_, Value.throughout_located ?_ v, Value.located_eq_self _⟩
  · have hcarried (s : Setting) (w : Value) (c : Scope) (hw : s.Admits w) :
        (Value.operandWithin Value.optionNesting w).term c =
          (pure w.settingTerm : Lowering Term) := by
      obtain ⟨b, rfl⟩ | ⟨t, rfl⟩ := hw.bool_or_text <;> rfl
    have hsettings : c.SameSettings { c with database := .text name } := fun s => by
      cases s <;> rfl
    exact (lowerAt_located hcarried hv.laidOut hc hsettings rfl 0).eq
  · obtain ⟨s, hs⟩ := hc.database
    refine .of_parts rfl fun w hw => ?_
    rw [Scope.receiver, hs] at hw
    cases hw with
    | argument hw =>
        obtain rfl := List.mem_singleton.1 hw
        exact .of_parts rfl (Value.forall_isPart_leaf rfl)

/-- The rows of a table, each with the tables that there are, behind receivers. -/
def tablesPerRow (receivers : List Value) : Value :=
  .expr (.verb .map) [.expr (.verb .table) (receivers ++ [.text "users"]),
    .expr .func [.func .unary fun _ => .ok (.list [.expr (.verb .tableList) receivers]), .int 1]]

theorem built_tablesPerRow : (tablesPerRow []).Built := by
  have htable : Query.call "table" ⟨[.text "users"], []⟩ =
      .ok (.expr (.verb .table) [.text "users"]) := rfl
  have htables : Query.call "table_list" ⟨[], []⟩ = .ok (.expr (.verb .tableList) []) := rfl
  have hcallable : (Value.func .unary fun _ => .ok (.list [.expr (.verb .tableList) []])).Built :=
    .callable fun _ w hw => by
      cases hw
      exact .list (List.forall_mem_singleton.2
        (.call (by decide) (List.forall_mem_nil _) (List.forall_mem_nil _) htables))
  exact .method
    (.call (by decide) (List.forall_mem_singleton.2 (.leaf rfl)) (List.forall_mem_nil _) htable)
    (List.forall_mem_singleton.2 hcallable) (List.forall_mem_nil _)
    (show Value.method _ "map" ⟨[_], []⟩ = .ok (tablesPerRow []) from rfl)

/-- A table and a list of tables, which a callable returns inside of a literal, compile under the
database that the scope names, and so they do with that database written out under another one. -/
theorem lower_tablesPerRow :
    (∃ t p', ((tablesPerRow []).lower .initial).run ⟨1, 0, .text ""⟩ = (.ok t, p')) ∧
    (tablesPerRow []).lower .initial =
      (tablesPerRow [Scope.initial.receiver]).lower
        { Scope.initial with database := .text "elsewhere" } :=
  ⟨⟨_, _, rfl⟩, (lower_eq_located built_tablesPerRow Scope.initial_typed).1 "elsewhere"⟩

end QueryDriver
