import QueryDriver.Proofs.Builder.Built
import QueryDriver.Proofs.Codec.Outcome
import QueryDriver.Proofs.Lowering.Derivation

/-!
# What compiling is refused for

A value that is laid out as the compiler reads it, whose callables do their part and whose
numbers fit a double, is compiled or it is refused: the failure is one that the client is
told about as its own mistake, never a fault of the compiler's own steps.

A callable does its part under a hint if it takes as many placeholders as it is called with
there and returns something. The same callable may stand under several hints, so
`Value.Behaves` goes along with the hint.
-/

namespace QueryDriver

open Wire

/-! ### Refusals -/

/-- An error that blames the client and not the driver. -/
def DriverError.IsRefusal (e : DriverError) : Prop :=
  .badClient ∈ e.category.lineage ∧ .internal ∉ e.category.lineage

def Failure.IsRefused (f : Failure) : Prop := ∃ e, f = .driver e ∧ e.IsRefusal

theorem DriverError.isRefusal_ofCause {cause : Cause}
    (h : cause.category = .badClient ∨ cause.category = .unmarshalable) :
    (DriverError.ofCause cause).IsRefusal := by
  change _ ∈ cause.category.lineage ∧ _ ∉ cause.category.lineage
  obtain h | h := h <;> rw [h] <;> decide

theorem Failure.isRefused_ofCause {cause : Cause}
    (h : cause.category = .badClient ∨ cause.category = .unmarshalable) :
    (Failure.ofCause cause).IsRefused := ⟨_, rfl, DriverError.isRefusal_ofCause h⟩

theorem Failure.IsUnmarshalable.isRefused {f : Failure} (h : f.IsUnmarshalable) :
    f.IsRefused := by
  obtain ⟨e, rfl, he⟩ := h
  refine ⟨e, rfl, ?_⟩
  unfold DriverError.IsRefusal
  rw [he]
  decide

/-- An outcome is no failure, or a refusal. -/
def Tame {α : Type} (o : Except Failure α) : Prop := ∀ f, o = .error f → f.IsRefused

/-- An action fails with nothing but refusals. -/
def Lowering.Tame {α : Type} (a : Lowering α) : Prop := ∀ p, QueryDriver.Tame (a.run p).1

section Tame

variable {α β : Type}

theorem tame_ok (x : α) : Tame (.ok x : Except Failure α) := by
  intro f hf
  cases hf

theorem tame_cause {cause : Cause}
    (h : cause.category = .badClient ∨ cause.category = .unmarshalable) :
    Tame (.error (.ofCause cause) : Except Failure α) := by
  intro f hf
  cases hf
  exact Failure.isRefused_ofCause h

theorem Tame.bind {o : Except Failure α} {f : α → Except Failure β} (ho : Tame o)
    (hf : ∀ x, o = .ok x → Tame (f x)) : Tame (o >>= f) := by
  cases o with
  | error e =>
      intro e' he
      cases he
      exact ho e rfl
  | ok x => exact hf x rfl

theorem Tame.map {o : Except Failure α} (ho : Tame o) (f : α → β) : Tame (o.map f) := by
  cases o with
  | error e =>
      intro e' he
      cases he
      exact ho e rfl
  | ok x => exact tame_ok _

namespace Lowering

/-- Of the second part of a sequence only those runs count that the first part leads to. -/
theorem Tame.bind_of_ok {a : Lowering α} {f : α → Lowering β} (ha : a.Tame)
    (hf : ∀ x p p', a.run p = (.ok x, p') → (f x).Tame) : (a >>= f).Tame := by
  intro p
  rw [run_bind]
  have hp := ha p
  rcases hrun : a.run p with ⟨e | x, p'⟩
  · rw [hrun] at hp
    intro e' he
    cases he
    exact hp e rfl
  · exact hf x p p' hrun p'

theorem Tame.bind {a : Lowering α} {f : α → Lowering β} (ha : a.Tame) (hf : ∀ x, (f x).Tame) :
    (a >>= f).Tame :=
  ha.bind_of_ok fun x _ _ _ => hf x

theorem tame_pure (x : α) : (pure x : Lowering α).Tame := fun _ => tame_ok x

theorem tame_liftM {o : Except Failure α} (ho : QueryDriver.Tame o) :
    (liftM o : Lowering α).Tame := fun _ => ho

theorem tame_throw {cause : Cause}
    (h : cause.category = .badClient ∨ cause.category = .unmarshalable) :
    (throw (.ofCause cause) : Lowering α).Tame := fun _ => tame_cause h

theorem tame_mapM {f : α → Lowering β} {xs : List α} (h : ∀ x ∈ xs, (f x).Tame) :
    (xs.mapM f).Tame := by
  induction xs with
  | nil =>
      rw [List.mapM_nil]
      exact tame_pure _
  | cons x xs ih =>
      obtain ⟨hx, hxs⟩ := List.forall_mem_cons.1 h
      rw [List.mapM_cons]
      exact hx.bind fun _ => (ih hxs).bind fun _ => tame_pure _

end Lowering

end Tame

/-! ### Callables that do their part -/

/-- A number that fits a double, or no number. -/
def Value.FitsDouble (v : Value) : Prop := ∀ f, v.toDouble? ≠ some (.error f)

theorem Value.fitsDouble_of_none {v : Value} (h : v.toDouble? = none) : v.FitsDouble := by
  intro f hf
  rw [h] at hf
  cases hf

/-- The callable is called with so many placeholders under a hint. -/
def Face.IsCalledWith (face : Face) (hint : Value) (count : Nat) : Prop :=
  face.isType = false ∧ parametersOf face hint = .ok count

namespace Value

/-- A value that is neither a callable nor a node for a function. -/
def isQuiet : Value → Bool
  | .func .. | .expr .func _ => false
  | _ => true

/-- A hint that asks for no number of parameters. -/
abbrev anyCount : Value := .int (-1)

/-- Every callable in the value, which stands under a hint, does its part where it is called,
and every number fits a double. -/
inductive Behaves : Value → Value → Prop where
  | callable {hint : Value} {face : Face} {run : List Nat → Except Failure Value}
      (hadmits : ∀ count, face.IsCalledWith hint count → face.admits count = .ok ())
      (hreturns : ∀ params, face.IsCalledWith hint params.length → ∃ w, run params = .ok w)
      (hresult : ∀ params w, face.IsCalledWith hint params.length → run params = .ok w →
        Behaves w anyCount) : Behaves (.func face run) hint
  | function {hint body arity : Value} (harity : arity.FitsDouble) (hbody : Behaves body arity) :
      Behaves (.expr .func [body, arity]) hint
  | parts {hint v : Value} (hv : v.isQuiet = true) (hnumber : v.FitsDouble)
      (h : ∀ w, IsPart w v → Behaves w anyCount) : Behaves v hint

namespace Behaves

variable {hint hint' v w : Value}

theorem leaf (hleaf : v.isLeaf = true) (hnumber : v.FitsDouble) : v.Behaves hint := by
  refine .parts ?_ hnumber (forall_isPart_leaf hleaf)
  cases v <;> first | rfl | cases hleaf

theorem node {op : Operator} {args : List Value} (hop : (Value.expr op args).isQuiet = true)
    (h : ∀ w ∈ args, w.Behaves anyCount) : (Value.expr op args).Behaves hint := by
  refine .parts hop (fitsDouble_of_none rfl) fun w hw => ?_
  cases hw with
  | argument hw => exact h w hw

theorem text (s : String) : (Value.text s).Behaves hint := .leaf rfl (fitsDouble_of_none rfl)

theorem part (h : v.Behaves hint) (hv : v.isQuiet = true) (hw : IsPart w v) :
    w.Behaves anyCount := by
  cases h with
  | callable => cases hv
  | function => cases hv
  | parts _ _ h => exact h w hw

theorem number (h : v.Behaves hint) (hv : v.isQuiet = true) : v.FitsDouble := by
  cases h with
  | callable => cases hv
  | function => cases hv
  | parts _ h _ => exact h

theorem tableField {e : String × Value} (h : v.Behaves hint) (he : e ∈ v.tableFields) :
    e.2.Behaves anyCount := by
  obtain hpart | ⟨s, hs⟩ := mem_tableFields he
  · cases v with
    | tableSpec => exact h.part rfl hpart
    | _ => cases he
  · rw [hs]
    exact text s

/-- A hint matters to callables only. -/
theorem of_not_applied (h : v.Behaves hint) (hv : v.isApplied = false) : v.Behaves hint' := by
  cases h with
  | @callable _ face _ _ _ _ =>
      have htype : face.isType = true := by simpa [isApplied] using hv
      have hnever (count : Nat) : ¬face.IsCalledWith hint' count := by
        rintro ⟨hfalse, -⟩
        rw [htype] at hfalse
        cases hfalse
      exact .callable (fun count h => absurd h (hnever _)) (fun _ h => absurd h (hnever _))
        fun _ _ h => absurd h (hnever _)
  | function harity hbody => exact .function harity hbody
  | parts hv hnumber h => exact .parts hv hnumber h

end Behaves

end Value

/-! ### Functions -/

namespace Value.IsInteger

variable {hint : Value}

theorem parameterCount_ok (h : hint.IsInteger) : ∃ count, hint.parameterCount = .ok count := by
  obtain ⟨n, rfl⟩ | ⟨b, rfl⟩ := h
  · exact ⟨_, parameterCount_int n⟩
  · refine ⟨if b then 1 else 0, ?_⟩
    cases b <;> decide

theorem equalsInt_ok (h : hint.IsInteger) (n : Int) : ∃ b, hint.equalsInt n = .ok b := by
  obtain ⟨m, rfl⟩ | ⟨b, rfl⟩ := h <;> exact ⟨_, rfl⟩

theorem display_ok (h : hint.IsInteger) : ∃ text, hint.display = .ok text := by
  obtain ⟨n, rfl⟩ | ⟨b, rfl⟩ := h
  · refine ⟨toString n, ?_⟩
    simp only [display, sketch, Sketch.leaf, Sketch.of]
    rfl
  · refine ⟨if b then "True" else "False", ?_⟩
    simp only [display, sketch, Sketch.leaf, Sketch.of]
    rfl

/-- A callable does not agree with a hint, or it cannot be inspected. -/
theorem tame_parametersOf (h : hint.IsInteger) (face : Face) : Tame (parametersOf face hint) := by
  unfold parametersOf
  split
  · rename_i cause harity
    refine tame_cause (.inl ?_)
    unfold Face.arity at harity
    split at harity <;> cases harity
    rfl
  · obtain ⟨count, hcount⟩ := h.parameterCount_ok
    rw [hcount]
    exact tame_ok _
  · rename_i n _
    obtain ⟨any, hany⟩ := h.equalsInt_ok (-1)
    obtain ⟨equal, hequal⟩ := h.equalsInt_ok n
    obtain ⟨text, htext⟩ := h.display_ok
    rw [agrees, hany, hequal, htext]
    change Tame (if (any || equal) = true then _ else _)
    split
    · exact tame_ok _
    · exact tame_cause (.inl rfl)

end Value.IsInteger

theorem tame_checkDepth (depth : Int) : Tame (checkDepth depth) := by
  unfold checkDepth
  split
  · exact tame_cause (.inr rfl)
  · exact tame_ok _

section Steps

variable {operand : Value → Operand} {c : Scope}

theorem tame_lowerResult {result : Except Failure Value} {w : Value} (hw : result = .ok w)
    (h : (Value.lowerAt operand w 0 c).Tame) : (Value.lowerResult operand result c).Tame := by
  subst hw
  unfold Value.lowerResult
  split
  · exact Lowering.tame_throw (.inl rfl)
  · rename_i hok
    cases hok
    exact h
  · cases ‹Except.ok w = Except.error _›

theorem tame_lowerCallable {face : Face} {run : List Nat → Except Failure Value} {hint : Value}
    (hhint : hint.IsInteger) (htype : face.isType = false)
    (h : (Value.func face run).Behaves hint)
    (hresult : ∀ w, Value.IsPart w (.func face run) → w.Behaves Value.anyCount →
      (Value.lowerAt operand w 0 c).Tame) :
    (lowerCallable face hint fun params => Value.lowerResult operand (run params) c).Tame := by
  cases h with
  | parts hv => cases hv
  | callable hadmits hreturns hresults =>
      refine (Lowering.tame_liftM (hhint.tame_parametersOf face)).bind_of_ok
        fun count p p' hcount => ?_
      have hcalled : face.IsCalledWith hint count := ⟨htype, congrArg Prod.fst hcount⟩
      refine Lowering.Tame.bind_of_ok (fun _ => tame_ok _) fun params p₁ p₂ hparams => ?_
      have hlength : params.length = count := by
        cases hparams
        exact List.length_range'
      rw [hadmits count hcalled]
      refine (Lowering.tame_liftM (tame_ok _)).bind fun _ => ?_
      have hcounted : (Lowering.countCall face).Tame := fun p => by
        rw [run_countCall]
        exact tame_ok _
      refine hcounted.bind fun _ => ?_
      rw [← hlength] at hcalled
      obtain ⟨w, hw⟩ := hreturns params hcalled
      exact (tame_lowerResult hw (hresult w (.result hw) (hresults params w hcalled hw))).bind
        fun _ => Lowering.tame_pure _

/-- A value where a function is expected: a callable is called, the body of a function is
compiled. -/
theorem tame_asFunction {body hint : Value} (hhint : hint.IsInteger) (h : body.Behaves hint)
    (hbody : body.Behaves Value.anyCount → (Value.lowerAt operand body 0 c).Tame)
    (hresult : ∀ w, Value.IsPart w body → w.Behaves Value.anyCount →
      (Value.lowerAt operand w 0 c).Tame) :
    ((Value.operandBy operand body).asFunction hint c).Tame := by
  cases happlied : body.isApplied with
  | true =>
      cases body with
      | func face run =>
          have htype : face.isType = false := by simpa [Value.isApplied] using happlied
          rw [Value.asFunction_func htype]
          exact tame_lowerCallable hhint htype h hresult
      | _ => cases happlied
  | false =>
      rw [Value.asFunction_eq happlied]
      refine (hbody (h.of_not_applied happlied)).bind fun t => ?_
      obtain ⟨count, hcount⟩ := hhint.parameterCount_ok
      rw [hcount]
      split
      · exact Lowering.tame_pure _
      · exact Lowering.Tame.bind (fun _ => tame_ok _) fun _ => Lowering.tame_pure _

/-! ### Leaves -/

theorem tame_timeEntriesAt (t : Moment) (depth : Int) : Tame (Value.timeEntriesAt t depth) :=
  fun _ hf => (Value.timeEntriesAt_error hf).isRefused

theorem tame_scalar {v : Value} (hnumber : v.FitsDouble) : Tame v.scalar? := by
  unfold Value.scalar?
  split
  · exact tame_ok _
  · exact tame_ok _
  · exact tame_ok _
  · split
    · exact tame_ok _
    · exact absurd ‹_› (hnumber _)
    · refine Tame.map ?_ _
      unfold checkFinite
      split
      · exact tame_ok _
      · exact tame_cause (.inr rfl)

/-- What is neither a container nor an expression is refused when it cannot be sent. -/
theorem tame_marshal {v : Value} (hplain : v.isContainer = false) (hnumber : v.FitsDouble) :
    Tame (v.marshal 0) := by
  unfold Value.marshal
  refine (tame_checkDepth 0).bind fun _ _ => ?_
  split
  case h_1 => exact (tame_timeEntriesAt _ _).bind fun _ _ => tame_ok _
  case h_2 | h_3 | h_4 | h_5 => cases hplain
  case h_6 =>
    refine (tame_scalar hnumber).bind fun d _ => ?_
    cases d with
    | none => exact tame_cause (.inr rfl)
    | some d => exact tame_ok _

/-! ### Operations -/

/-- What a setting is set on is looked through for a table, so it has to be there. -/
theorem notATable_ok {v : Value} (h : v.LaidOut) : ∃ given, notATable? v = .ok given := by
  induction v using Value.induction with
  | step v ih =>
  unfold notATable?
  split
  · obtain ⟨inner, value, hargs, -⟩ := h.self _ _ rfl
    cases hargs
  · exact ih _ (.single (.argument List.mem_cons_self)) (h.part (.argument List.mem_cons_self))
  all_goals exact ⟨_, rfl⟩

namespace Verb.Fits

variable {v : Verb} {args : List Value}

theorem tame_checkReceiver (hfits : v.Fits args) (h : ∀ w ∈ args, w.LaidOut) :
    Tame (v.checkReceiver args) := by
  unfold Verb.checkReceiver
  split
  case isFalse => exact tame_ok _
  case isTrue hneeds =>
    obtain ⟨receiver, rest, rfl, -⟩ := hfits.receiver hneeds
    obtain ⟨given, hgiven⟩ := notATable_ok (h receiver List.mem_cons_self)
    dsimp only
    rw [hgiven]
    cases given with
    | none => exact tame_ok _
    | some given => exact tame_cause (.inl rfl)

theorem splitOption_ok (hfits : v.Fits args) : ∃ split, v.splitOption args = .ok split := by
  unfold Verb.splitOption
  split
  · exact ⟨_, rfl⟩
  · rename_i name hname
    obtain ⟨front, last, rfl, -⟩ := hfits.trailing (by rw [hname]; rfl)
    rw [List.getLast?_concat]
    exact ⟨_, rfl⟩

/-- The arguments of an operation that is laid out can be sorted, unless its receiver is
refused. -/
theorem tame_arrange (hfits : v.Fits args) (h : ∀ w ∈ args, w.LaidOut) : Tame (v.arrange args) := by
  refine (hfits.tame_checkReceiver h).bind fun _ _ => ?_
  obtain ⟨⟨rest, trailing⟩, hsplit⟩ := hfits.splitOption_ok
  rw [hsplit]
  refine (tame_ok _).bind fun _ hrest => ?_
  cases hrest
  refine Tame.bind ?_ fun _ _ => tame_ok _
  unfold Verb.splitSpec
  split
  case isFalse => exact tame_ok _
  case isTrue hv =>
    subst hv
    cases hsplit
    obtain ⟨front, name, p, d, c, durability, rfl⟩ := hfits.spec rfl
    rw [List.getLast?_concat]
    exact tame_ok _

end Verb.Fits

/-- A scope whose fields have the types that they are declared with. -/
structure Scope.Typed (c : Scope) : Prop where
  database : ∃ s, c.database = .text s
  setting (s : Setting) : s.Admits (c.get s)

theorem Scope.initial_typed : Scope.initial.Typed := by
  refine ⟨⟨_, rfl⟩, fun s => ?_⟩
  cases s <;> exact ⟨_, rfl⟩

theorem Scope.Typed.set (hc : c.Typed) {s : Setting} {v : Value} (hv : s.Admits v) :
    (c.set s v).Typed := by
  refine ⟨by rw [set_database]; exact hc.database, fun s' => ?_⟩
  by_cases hs : s = s'
  · subst hs
    cases s <;> first | exact hv | exact ⟨_, rfl⟩
  · rw [get_set_of_ne c v hs]
    exact hc.setting s'

theorem tame_lowerOptions {options : List (String × Operand)}
    (h : ∀ o ∈ options, (o.2.term c).Tame) : (lowerOptions c options).Tame :=
  Lowering.tame_mapM fun o ho => (h o ho).bind fun _ => Lowering.tame_pure _

theorem tame_lowerItems {items : List Value} {depth : Int}
    (h : ∀ w ∈ items, (Value.lowerAt operand w depth c).Tame) :
    (Value.lowerItems (Value.itemParts operand items) depth c).Tame := by
  rw [Value.itemParts_eq_map]
  exact Lowering.Tame.bind (Lowering.tame_mapM (List.forall_mem_map.2 h)) fun _ =>
    Lowering.tame_pure _

theorem tame_lowerEntries {entries : List (Value × Value)} {depth : Int}
    (h : ∀ e ∈ entries, (Value.lowerAt operand e.2 depth c).Tame) :
    (Value.lowerEntries (Value.entryParts operand entries) depth c).Tame := by
  have hkey (key : Value) : key.literalKey.Tame := by
    unfold Value.literalKey
    split
    · exact Lowering.tame_pure _
    · exact Lowering.tame_throw (.inl rfl)
  rw [Value.entryParts_eq_map]
  refine Lowering.Tame.bind (Lowering.tame_mapM (List.forall_mem_map.2 fun e he => ?_)) fun _ =>
    Lowering.tame_pure _
  exact (hkey e.1).bind fun _ => (h e he).bind fun _ => Lowering.tame_pure _

variable (hoperand : ∀ s w c, Setting.Admits s w → ((operand w).term c).Tame)

include hoperand

theorem tame_implicitDatabase (hc : c.Typed) : ((implicitDatabase c operand).term c).Tame := by
  obtain ⟨s, hs⟩ := hc.database
  refine Lowering.Tame.bind ?_ fun _ => Lowering.tame_pure _
  rw [hs]
  exact Lowering.tame_mapM (List.forall_mem_singleton.2 (hoperand .durability _ c ⟨s, rfl⟩))

theorem tame_scopeOptions (hc : c.Typed) (v : Verb) :
    (lowerOptions c (scopeOptions v c operand)).Tame := by
  exact tame_lowerOptions (forall_scopeOptions (P := fun o => (o.term c).Tame) v
    (fun _ => tame_ok _) fun s => hoperand s _ c (hc.setting s))

theorem tame_lowerVerb (hc : c.Typed) {v : Verb} {args : List Value} (hfits : v.Fits args)
    (hargs : ∀ w ∈ args, w.LaidOut)
    (harranged : ∀ a, v.arrange args = .ok a → ∀ w ∈ a.positional ++ a.named.map (·.2),
      (Value.lowerAt operand w 0 c).Tame) :
    (lowerVerb operand v (args.map (Value.operandBy operand)) c).Tame := by
  rw [lowerVerb_eq]
  refine (Lowering.tame_liftM (hfits.tame_arrange hargs)).bind_of_ok fun a p p' ha => ?_
  have hterm := List.forall_mem_append.1 (harranged a (congrArg Prod.fst ha))
  refine Lowering.Tame.bind (Lowering.tame_mapM ?_) fun _ =>
    Lowering.Tame.bind ?_ fun _ => Lowering.tame_pure _
  · refine List.forall_mem_append.2 ⟨?_, List.forall_mem_map.2 hterm.1⟩
    split
    · exact List.forall_mem_singleton.2 (tame_implicitDatabase hoperand hc)
    · exact nofun
  · rw [lowerOptions_append]
    refine Lowering.Tame.bind ?_ fun _ =>
      (tame_scopeOptions hoperand hc v).bind fun _ => Lowering.tame_pure _
    exact tame_lowerOptions (List.forall_mem_map.2 fun e he =>
      hterm.2 e.2 (List.mem_map_of_mem he))

theorem tame_lowerNode (hc : c.Typed) {op : Operator} {args : List Value}
    (hlaid : (Value.expr op args).LaidOut) (h : (Value.expr op args).Behaves Value.anyCount)
    (hbelow : ∀ w, Value.Below w (.expr op args) → w.Behaves Value.anyCount → ∀ c, c.Typed →
      (Value.lowerAt operand w 0 c).Tame) :
    (lowerNode operand op (args.map (Value.operandBy operand)) c).Tame := by
  have hfits : op.Fits args := hlaid.self op args rfl
  cases op with
  | literal =>
      obtain ⟨v, rfl⟩ := hfits
      have hv : Value.IsPart v (.expr .literal [v]) := .argument List.mem_cons_self
      exact hbelow v (.single hv) (h.part rfl hv) c hc
  | func =>
      obtain ⟨body, hint, rfl, hhint⟩ := hfits
      have hbody : Value.IsPart body (.expr .func [body, hint]) := .argument List.mem_cons_self
      cases h with
      | parts hv => cases hv
      | function harity hbehaves =>
          exact tame_asFunction hhint hbehaves (fun h => hbelow body (.single hbody) h c hc)
            fun w hw h => hbelow w (.head hw (.single hbody)) h c hc
  | setting s =>
      obtain ⟨inner, value, rfl, -, hvalue⟩ := hfits
      have hinner : Value.IsPart inner (.expr (.setting s) [inner, value]) :=
        .argument List.mem_cons_self
      rw [List.map_cons, List.map_cons, List.map_nil, lowerNode_setting]
      refine Lowering.Tame.bind (fun p => ?_) fun _ =>
        hbelow inner (.single hinner) (h.part rfl hinner) _ (hc.set hvalue)
      rw [run_noteSetting]
      exact tame_ok _
  | verb v =>
      refine tame_lowerVerb hoperand hc hfits (fun w hw => hlaid.part (.argument hw))
        fun a ha w hw => ?_
      obtain hw | ⟨x, hx, e, he, rfl⟩ | ⟨s, rfl⟩ := Verb.mem_of_arrange ha w hw
      · exact hbelow w (.single (.argument hw)) (h.part rfl (.argument hw)) c hc
      · have hspec : Value.IsPart x (.expr (.verb v) args) := .argument hx
        have hbehaves := (h.part rfl hspec).tableField he
        obtain hpart | ⟨s, hs⟩ := Value.mem_tableFields he
        · exact hbelow e.2 (.head hpart (.single hspec)) hbehaves c hc
        · rw [hs]
          exact fun _ => tame_ok _
      · exact fun _ => tame_ok _

theorem tame_lowerAt {v : Value} (hv : v.LaidOut) (h : v.Behaves Value.anyCount) (hc : c.Typed)
    (depth : Int) : (Value.lowerAt operand v depth c).Tame := by
  -- A callable is below the node that hands it a hint, so it is looked at there and not as a part
  -- of its own.
  induction v using Value.induction generalizing c depth with
  | step v ih =>
  have hdepth : (Value.checkLiteralDepth depth).Tame := by
    unfold Value.checkLiteralDepth
    split
    · exact Lowering.tame_throw (.inl rfl)
    · exact Lowering.tame_pure _
  have hbelow (w : Value) (hw : Value.Below w v) (hb : w.Behaves Value.anyCount) (c : Scope)
      (hc : c.Typed) (depth : Int) : (Value.lowerAt operand w depth c).Tame :=
    ih w hw (hv.below hw) hb hc depth
  have hpart (hquiet : v.isQuiet = true) (w : Value) (hw : Value.IsPart w v) (depth : Int) :
      (Value.lowerAt operand w depth c).Tame :=
    hbelow w (.single hw) (h.part hquiet hw) c hc depth
  cases v with
  | expr op args =>
      refine hdepth.bind fun _ => ?_
      rw [Value.operands_eq_map]
      exact tame_lowerNode hoperand hc hv h fun w hw hb c hc => hbelow w hw hb c hc 0
  | row => exact hdepth.bind fun _ => fun _ => tame_ok _
  | placeholder n => exact hdepth.bind fun _ => fun _ => tame_ok _
  | dict entries =>
      exact hdepth.bind fun _ => tame_lowerEntries fun e he => hpart rfl e.2 (.entry he) _
  | mapping entries =>
      exact hdepth.bind fun _ => tame_lowerEntries fun e he => hpart rfl e.2 (.image he) _
  | list items => exact hdepth.bind fun _ => tame_lowerItems fun w hw => hpart rfl w (.item hw) _
  | tuple items =>
      exact hdepth.bind fun _ => tame_lowerItems fun w hw => hpart rfl w (.component hw) _
  | func face run =>
      refine hdepth.bind fun _ => ?_
      split
      · exact fun _ => tame_cause (.inr rfl)
      · rename_i htype
        exact tame_lowerCallable (.inl ⟨_, rfl⟩) (eq_false_of_ne_true htype) h
          fun w hw hb => hbelow w (.single hw) hb c hc 0
  | _ =>
      exact hdepth.bind fun _ => Lowering.tame_liftM (tame_marshal rfl (h.number rfl))

end Steps

/-- Compiling a value that is laid out and behaves is refused if it fails, whatever the
scope. -/
theorem tame_lower {v : Value} (hv : v.LaidOut) (h : v.Behaves Value.anyCount) {c : Scope}
    (hc : c.Typed) : (v.lower c).Tame := by
  have hcarried (s : Setting) (w : Value) (c : Scope) (hw : s.Admits w) :
      ((Value.operandWithin Value.optionNesting w).term c).Tame := by
    obtain ⟨b, rfl⟩ | ⟨t, rfl⟩ := hw.bool_or_text <;> exact fun _ => tame_ok _
  exact tame_lowerAt hcarried hv h hc 0

end QueryDriver
