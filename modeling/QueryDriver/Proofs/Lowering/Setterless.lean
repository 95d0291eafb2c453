import QueryDriver.Proofs.Lowering.Stripped

/-!
# Compiling without settings

A setting contributes no term of its own. A value and the same value without its settings
are compiled alike: with the same numbers for variables, the same calls of callables, the same
failures, and terms that are the same up to the options that settings give. So no setting
changes what becomes a function or how many parameters it has.

The proof runs the two compilations side by side (`Lowering.Alike`), in scopes that may differ
in all but the database.
-/

namespace QueryDriver

open Wire

/-- The states of two compilations have the same numbers. -/
structure Progress.Agrees (p q : Progress) : Prop where
  next : p.next = q.next
  calls : p.calls = q.calls

/-- Two actions that end in agreeing states, with the same failure or related results. -/
inductive Matches {α β : Type} (R : α → β → Prop) :
    Except Failure α × Progress → Except Failure β × Progress → Prop where
  | ok {x : α} {y : β} {p q : Progress} (h : R x y) (hp : p.Agrees q) :
      Matches R (.ok x, p) (.ok y, q)
  | error {f : Failure} {p q : Progress} (hp : p.Agrees q) : Matches R (.error f, p) (.error f, q)

namespace Lowering

/-- Two actions match from all agreeing states. -/
def Alike {α β : Type} (R : α → β → Prop) (a : Lowering α) (b : Lowering β) : Prop :=
  ∀ p q : Progress, p.Agrees q → Matches R (a.run p) (b.run q)

section Alike

variable {α β α' β' : Type} {R : α → β → Prop} {S : α' → β' → Prop}

theorem Alike.bind {a : Lowering α} {b : Lowering β} {f : α → Lowering α'} {g : β → Lowering β'}
    (h : Alike R a b) (hf : ∀ x y, R x y → Alike S (f x) (g y)) : Alike S (a >>= f) (b >>= g) := by
  intro p q hpq
  rw [run_bind, run_bind]
  have hstep := h p q hpq
  generalize a.run p = left at hstep
  generalize b.run q = right at hstep
  cases hstep with
  | ok hxy hp => exact hf _ _ hxy _ _ hp
  | error hp => exact .error hp

theorem Alike.mono {Q : α → β → Prop} {a : Lowering α} {b : Lowering β} (h : Alike Q a b)
    (hQR : ∀ x y, Q x y → R x y) : Alike R a b := by
  intro p q hpq
  have hstep := h p q hpq
  generalize a.run p = left at hstep ⊢
  generalize b.run q = right at hstep ⊢
  cases hstep with
  | ok hxy hp => exact .ok (hQR _ _ hxy) hp
  | error hp => exact .error hp

theorem alike_pure {x : α} {y : β} (h : R x y) : Alike R (pure x) (pure y) :=
  fun _ _ hpq => .ok h hpq

theorem alike_throw (f : Failure) : Alike R (throw f) (throw f) := fun _ _ hpq => .error hpq

theorem alike_liftM (o : Except Failure α) : Alike Eq (liftM o) (liftM o) := by
  intro p q hpq
  cases o with
  | ok x => exact .ok rfl hpq
  | error f => exact .error hpq

theorem alike_liftM_map (o : Except Failure α) (f : α → β) :
    Alike (fun x y => o = .ok x ∧ y = f x) (liftM o) (liftM (o.map f)) := by
  intro p q hpq
  cases o with
  | ok x => exact .ok ⟨rfl, rfl⟩ hpq
  | error e => exact .error hpq

theorem alike_mapM {f : α → Lowering α'} {g : β → Lowering β'} {xs : List α} {ys : List β}
    (h : List.Forall₂ (fun x y => Alike S (f x) (g y)) xs ys) :
    Alike (List.Forall₂ S) (xs.mapM f) (ys.mapM g) := by
  induction h with
  | nil =>
      rw [List.mapM_nil, List.mapM_nil]
      exact alike_pure .nil
  | cons hx _ ih =>
      rw [List.mapM_cons, List.mapM_cons]
      exact hx.bind fun _ _ hx => ih.bind fun _ _ hxs => alike_pure (.cons hx hxs)

theorem alike_takeVariables (count : Nat) :
    Alike Eq (takeVariables count) (takeVariables count) := by
  intro p q hpq
  refine .ok ?_ ⟨?_, hpq.calls⟩
  · rw [hpq.next]
  · change p.next + count = q.next + count
    rw [hpq.next]

theorem alike_countCall (face : Face) : Alike Eq (countCall face) (countCall face) := by
  intro p q hpq
  rw [run_countCall, run_countCall, hpq.calls]
  exact .ok rfl ⟨hpq.next, rfl⟩

/-- A setting takes note of something that the numbers do not depend on. -/
theorem Alike.noteSetting {a : Lowering α} {b : Lowering β} (h : Alike R a b) (s : Setting)
    (v : Value) : Alike R (noteSetting s v >>= fun _ => a) b := by
  intro p q hpq
  rw [run_bind_of_ok (run_noteSetting s v p)]
  refine h _ q ?_
  split
  · exact ⟨hpq.next, hpq.calls⟩
  · exact hpq

end Alike

end Lowering

/-! ### Side by side -/

section Steps

open Lowering Wire.Term

variable {operand : Value → Operand} {c c' : Scope}

theorem alike_checkLiteralDepth (depth : Int) :
    Alike Eq (Value.checkLiteralDepth depth) (Value.checkLiteralDepth depth) := by
  unfold Value.checkLiteralDepth
  split
  · exact alike_throw _
  · exact alike_pure rfl

theorem alike_lowerItems {items : List Value} {depth : Int}
    (h : ∀ w ∈ items, Alike Same (Value.lowerAt operand w depth c)
      (Value.lowerAt operand w.bare depth c')) :
    Alike Same (Value.lowerItems (Value.itemParts operand items) depth c)
      (Value.lowerItems (Value.itemParts operand (items.map Value.bare)) depth c') := by
  rw [Value.itemParts_eq_map, Value.itemParts_eq_map]
  refine (alike_mapM (S := Same) ?_).bind fun ts us h => alike_pure (.makeArray h)
  rw [List.map_map, List.forall₂_map_left_iff, List.forall₂_map_right_iff, List.forall₂_same]
  exact h

theorem alike_literalKey (key : Value) : Alike Eq key.literalKey key.literalKey := by
  unfold Value.literalKey
  split
  · exact alike_pure rfl
  · exact alike_throw _

theorem alike_lowerEntries {entries : List (Value × Value)} {depth : Int}
    (h : ∀ e ∈ entries, Alike Same (Value.lowerAt operand e.2 depth c)
      (Value.lowerAt operand e.2.bare depth c')) :
    Alike Same (Value.lowerEntries (Value.entryParts operand entries) depth c)
      (Value.lowerEntries (Value.entryParts operand (entries.map fun e => (e.1, e.2.bare)))
        depth c') := by
  rw [Value.entryParts_eq_map, Value.entryParts_eq_map]
  refine (alike_mapM (S := fun e q => e.1 = q.1 ∧ Same e.2 q.2) ?_).bind
    fun es qs h => alike_pure (.makeObject h)
  rw [List.map_map, List.forall₂_map_left_iff, List.forall₂_map_right_iff, List.forall₂_same]
  exact fun e he => (alike_literalKey e.1).bind fun key _ hkey =>
    (h e he).bind fun t u hsame => alike_pure ⟨hkey, hsame⟩

theorem alike_lowerCallable (face : Face) (hint : Value) {run run' : List Nat → Lowering Term}
    (h : ∀ params, Alike Same (run params) (run' params)) :
    Alike Same (lowerCallable face hint run) (lowerCallable face hint run') := by
  refine (alike_liftM _).bind fun count _ hcount => ?_
  subst hcount
  refine (alike_takeVariables count).bind fun params _ hparams => ?_
  subst hparams
  refine (alike_liftM _).bind fun _ _ _ => (alike_countCall face).bind fun _ _ _ => ?_
  exact (h params).bind fun _ _ hsame => alike_pure (hsame.function params)

theorem lowerResult_ok (v : Value) (c : Scope) :
    Value.lowerResult operand (.ok v) c =
      if v.isNull then throw (.ofCause .noResult) else Value.lowerAt operand v 0 c := by
  cases v <;> rfl

theorem alike_lowerResult {result : Except Failure Value}
    (h : ∀ w, result = .ok w → w.LaidOut ∧
      Alike Same (Value.lowerAt operand w 0 c) (Value.lowerAt operand w.bare 0 c')) :
    Alike Same (Value.lowerResult operand result c)
      (Value.lowerResult operand (Value.bareResult result) c') := by
  cases result with
  | error f => exact alike_throw f
  | ok w =>
      obtain ⟨hlaid, hw⟩ := h w rfl
      rw [Value.bareResult, lowerResult_ok, lowerResult_ok, Value.isNull_bare hlaid]
      split
      · exact alike_throw _
      · exact hw

/-- A value where a function is expected becomes one in both, or in neither. -/
theorem alike_asFunction {body : Value} (hlaid : body.LaidOut) (hint : Value)
    (hbody : Alike Same (Value.lowerAt operand body 0 c) (Value.lowerAt operand body.bare 0 c'))
    (hresult : ∀ w, Value.IsPart w body →
      Alike Same (Value.lowerAt operand w 0 c) (Value.lowerAt operand w.bare 0 c')) :
    Alike Same ((Value.operandBy operand body).asFunction hint c)
      ((Value.operandBy operand body.bare).asFunction hint c') := by
  cases happlied : body.isApplied with
  | true =>
      cases body with
      | func face run =>
          have htype : face.isType = false := by simpa [Value.isApplied] using happlied
          rw [Value.bare, Value.asFunction_func htype, Value.asFunction_func htype]
          exact alike_lowerCallable face hint fun params => alike_lowerResult fun w hw =>
            ⟨hlaid.part (.result hw), hresult w (.result hw)⟩
      | _ => cases happlied
  | false =>
      have hbare : body.bare.isApplied = false := by rw [Value.isApplied_bare hlaid, happlied]
      rw [Value.asFunction_eq happlied, Value.asFunction_eq hbare]
      refine hbody.bind fun t u hsame => ?_
      rw [hsame.isConstant]
      split
      · exact alike_pure hsame
      · split
        · exact alike_throw _
        · refine (alike_takeVariables _).bind fun params _ hparams => ?_
          subst hparams
          exact alike_pure (hsame.function params)

theorem alike_lowerOptions {es : List (String × Value)}
    (h : ∀ e ∈ es, Alike Same ((Value.operandBy operand e.2).term c)
      ((Value.operandBy operand e.2.bare).term c')) :
    Alike (List.Forall₂ fun o q => o.1 = q.1 ∧ ∃ t u, o.2 = some t ∧ q.2 = some u ∧ Same t u)
      (lowerOptions c (es.map fun e => (e.1, Value.operandBy operand e.2)))
      (lowerOptions c' ((es.map fun e => (e.1, e.2.bare)).map fun e =>
        (e.1, Value.operandBy operand e.2))) := by
  refine alike_mapM ?_
  rw [List.map_map, List.forall₂_map_left_iff, List.forall₂_map_right_iff, List.forall₂_same]
  exact fun e he => (h e he).bind fun t u hsame => alike_pure ⟨rfl, t, u, rfl, rfl, hsame⟩

theorem settingTerm_mentionsRow (v : Value) : v.settingTerm.mentionsRow = false := by
  cases v <;> rfl

/-- The depth of a literal only matters for what is not a node. -/
theorem lowerAt_of_isExpr {v : Value} (hv : v.isExpr = true) (depth : Int) :
    Value.lowerAt operand v depth c =
      (Value.checkLiteralDepth depth >>= fun _ => Value.lowerAt operand v 0 c) := by
  cases v <;> first | rfl | cases hv

section Carried

variable (hoperand : ∀ s w c, Setting.Admits s w →
  (operand w).term c = (pure w.settingTerm : Lowering Term))

include hoperand

/-- What settings add to an operation is sent without further ado. -/
theorem lowerOptions_scopeOptions (hc : c.Typed) (v : Verb) :
    ∃ os, lowerOptions c (scopeOptions v c operand) = pure os ∧
      ∀ o ∈ os, isGiven (some v.code) o.1 = true ∧ valueMentionsRow o.2 = false := by
  refine ⟨(v.sent c.get).map fun e => (some e.1, some e.2.settingTerm), ?_, ?_⟩
  · have hoptions : List.Forall₂ (fun e o => e.1 = o.1 ∧
        o.2.term c = (pure e.2.settingTerm : Lowering Term)) (v.sent c.get)
        (scopeOptions v c operand) :=
      scopeOptions_forall₂ v (fun _ => ⟨rfl, rfl⟩) fun _ s => ⟨rfl, hoperand s _ c (hc.setting s)⟩
    generalize v.sent c.get = sent at hoptions ⊢
    generalize scopeOptions v c operand = options at hoptions ⊢
    unfold lowerOptions
    induction hoptions with
    | nil => rfl
    | cons ho _ ih =>
        rw [List.mapM_cons, ih, ho.2, ← ho.1]
        rfl
  · refine List.forall_mem_map.2 fun e he => ⟨?_, settingTerm_mentionsRow e.2⟩
    obtain ⟨s, hs, he⟩ := List.mem_flatMap.1 he
    rw [isGiven_code, Setting.key_of_mem_option he]
    exact List.any_eq_true.2 ⟨s, hs, by simp⟩

theorem alike_implicitDatabase (hc : c.Typed) (hdatabase : c.database = c'.database) :
    Alike Same ((implicitDatabase c operand).term c) ((implicitDatabase c' operand).term c') := by
  obtain ⟨s, hs⟩ := hc.database
  have hterm (c : Scope) : (operand (.text s)).term c = (pure (Value.text s).settingTerm :
      Lowering Term) := hoperand .durability _ c ⟨s, rfl⟩
  have hnames (c : Scope) :
      lowerEach c (if (Value.text s).isAbsent then [] else [operand (.text s)]) =
      (pure [(Value.text s).settingTerm] : Lowering (List Term)) := by
    change [operand (.text s)].mapM _ = _
    rw [List.mapM_cons, hterm]
    rfl
  unfold implicitDatabase
  dsimp only
  rw [← hdatabase, hs, hnames, hnames]
  exact alike_pure (.refl _)

/-- An operation is compiled alike from arguments without settings, and in a scope that other
settings have been made in. -/
theorem alike_lowerVerb (hc : c.Typed) (hc' : c'.Typed) (hdatabase : c.database = c'.database)
    {v : Verb} {args : List Value} (hargs : ∀ w ∈ args, w.LaidOut)
    (h : ∀ a, v.arrange args = .ok a → ∀ w ∈ a.positional ++ a.named.map (·.2),
      Alike Same (Value.lowerAt operand w 0 c) (Value.lowerAt operand w.bare 0 c')) :
    Alike Same (lowerVerb operand v (args.map (Value.operandBy operand)) c)
      (lowerVerb operand v ((args.map Value.bare).map (Value.operandBy operand)) c') := by
  rw [lowerVerb_eq, lowerVerb_eq, Verb.arrange_bare hargs]
  refine (alike_liftM_map _ _).bind ?_
  rintro a _ ⟨ha, rfl⟩
  have hterm := List.forall_mem_append.1 (h a ha)
  have hpositional : Alike (List.Forall₂ Same)
      (lowerEach c ((if a.implicit then [implicitDatabase c operand] else [])
        ++ a.positional.map (Value.operandBy operand)))
      (lowerEach c' ((if a.implicit then [implicitDatabase c' operand] else [])
        ++ (a.positional.map Value.bare).map (Value.operandBy operand))) := by
    refine alike_mapM (List.rel_append ?_ ?_)
    · split
      · exact .cons (alike_implicitDatabase hoperand hc hdatabase) .nil
      · exact .nil
    · rw [List.map_map, List.forall₂_map_left_iff, List.forall₂_map_right_iff, List.forall₂_same]
      exact hterm.1
  refine hpositional.bind fun ts us hts => ?_
  rw [lowerOptions_append, lowerOptions_append]
  obtain ⟨os, hos, hgiven⟩ := lowerOptions_scopeOptions hoperand hc v
  obtain ⟨qs, hqs, hgiven'⟩ := lowerOptions_scopeOptions hoperand hc' v
  rw [hos, hqs]
  refine Alike.bind (R := SameOptions (some v.code)) ?_ fun os qs hoptions =>
    alike_pure (same_of_parts hts hoptions)
  refine (alike_lowerOptions fun e he => hterm.2 e.2 (List.mem_map_of_mem he)).bind
    fun own own' hown => ?_
  rw [pure_bind, pure_bind]
  exact alike_pure ((SameOptions.of_forall₂ hown).append (.of_given hgiven hgiven'))

theorem alike_lowerNode (hc : c.Typed) (hc' : c'.Typed) (hdatabase : c.database = c'.database)
    {op : Operator} {args : List Value} (hop : (Value.expr op args).isSetting = false)
    (hlaid : (Value.expr op args).LaidOut)
    (hbelow : ∀ w, Value.Below w (.expr op args) →
      Alike Same (Value.lowerAt operand w 0 c) (Value.lowerAt operand w.bare 0 c')) :
    Alike Same (lowerNode operand op (args.map (Value.operandBy operand)) c)
      (lowerNode operand op ((args.map Value.bare).map (Value.operandBy operand)) c') := by
  have hfits : op.Fits args := hlaid.self op args rfl
  cases op with
  | setting s => cases hop
  | literal =>
      obtain ⟨v, rfl⟩ := hfits
      exact hbelow v (.single (.argument List.mem_cons_self))
  | func =>
      obtain ⟨body, hint, rfl, hhint⟩ := hfits
      have hbody : Value.IsPart body (.expr .func [body, hint]) := .argument List.mem_cons_self
      have hbare : hint.bare = hint := by
        obtain ⟨n, rfl⟩ | ⟨b, rfl⟩ := hhint <;> rfl
      simp only [List.map_cons, List.map_nil, hbare]
      exact alike_asFunction (hlaid.part hbody) hint (hbelow body (.single hbody))
        fun w hw => hbelow w (.head hw (.single hbody))
  | verb v =>
      refine alike_lowerVerb hoperand hc hc' hdatabase (fun w hw => hlaid.part (.argument hw))
        fun a ha => ?_
      exact Verb.forall_of_arrange ha hbelow fun s => fun _ _ hpq => .ok (.refl _) hpq

theorem alike_lowerAt {v : Value} (hv : v.LaidOut) (hc : c.Typed) (hc' : c'.Typed)
    (hdatabase : c.database = c'.database) (depth : Int) :
    Alike Same (Value.lowerAt operand v depth c) (Value.lowerAt operand v.bare depth c') := by
  -- Only the scope of the left side changes below a setting; the right side has none left, and
  -- the database, which the scopes share, is no setting.
  induction v using Value.induction generalizing c depth with
  | step v ih =>
  have hbelow (w : Value) (hw : Value.Below w v) (depth : Int) :
      Alike Same (Value.lowerAt operand w depth c) (Value.lowerAt operand w.bare depth c') :=
    ih w hw (hv.below hw) hc hdatabase depth
  cases hs : v.isSetting with
  | true =>
      unfold Value.isSetting at hs
      split at hs
      case h_2 => cases hs
      case h_1 s args =>
        obtain ⟨inner, value, rfl, hinner, hvalue⟩ := hv.self _ _ rfl
        have hpart : Value.IsPart inner (.expr (.setting s) [inner, value]) :=
          .argument List.mem_cons_self
        have hlaid := hv.part hpart
        have hbare : inner.bare.isExpr = true := by rw [Value.isExpr_bare hlaid, hinner]
        rw [Value.bare_setting, lowerAt_of_isExpr hbare depth]
        refine (alike_checkLiteralDepth depth).bind fun _ _ _ => ?_
        rw [Value.operands_eq_map, List.map_cons, List.map_cons, List.map_nil, lowerNode_setting]
        refine Alike.noteSetting ?_ s value
        exact ih inner (.single hpart) hlaid (hc.set hvalue)
          ((Scope.set_database c s value).trans hdatabase) 0
  | false =>
      cases v with
      | expr op args =>
          rw [Value.bare_expr hs]
          refine (alike_checkLiteralDepth depth).bind fun _ _ _ => ?_
          rw [Value.operands_eq_map, Value.operands_eq_map]
          exact alike_lowerNode hoperand hc hc' hdatabase hs hv fun w hw => hbelow w hw 0
      | dict entries =>
          rw [Value.bare, Value.bareEntries_eq_map]
          exact (alike_checkLiteralDepth depth).bind fun _ _ _ =>
            alike_lowerEntries fun e he => hbelow e.2 (.single (.entry he)) _
      | mapping entries =>
          rw [Value.bare, Value.bareEntries_eq_map]
          exact (alike_checkLiteralDepth depth).bind fun _ _ _ =>
            alike_lowerEntries fun e he => hbelow e.2 (.single (.image he)) _
      | list items =>
          rw [Value.bare, Value.bareItems_eq_map]
          exact (alike_checkLiteralDepth depth).bind fun _ _ _ =>
            alike_lowerItems fun w hw => hbelow w (.single (.item hw)) _
      | tuple items =>
          rw [Value.bare, Value.bareItems_eq_map]
          exact (alike_checkLiteralDepth depth).bind fun _ _ _ =>
            alike_lowerItems fun w hw => hbelow w (.single (.component hw)) _
      | func face run =>
          rw [Value.bare]
          refine (alike_checkLiteralDepth depth).bind fun _ _ _ => ?_
          split
          · exact alike_throw _
          · exact alike_lowerCallable face _ fun params => alike_lowerResult fun w hw =>
              ⟨hv.part (.result hw), hbelow w (.single (.result hw)) 0⟩
      | row | placeholder =>
          exact (alike_checkLiteralDepth depth).bind fun _ _ _ => fun _ _ hpq => .ok (.refl _) hpq
      | slice | tableSpec =>
          exact (alike_checkLiteralDepth depth).bind fun _ _ _ => fun _ _ hpq => .error hpq
      | _ =>
          refine (alike_checkLiteralDepth depth).bind fun _ _ _ =>
            (alike_liftM _).mono fun t u h => ?_
          rw [h]
          exact .refl u

end Carried

end Steps

/-- A value and the same value without its settings are compiled alike, in all scopes with the
same database. -/
theorem alike_lower {v : Value} (hv : v.LaidOut) {c c' : Scope} (hc : c.Typed) (hc' : c'.Typed)
    (hdatabase : c.database = c'.database) :
    Lowering.Alike Term.Same (v.lower c) (v.bare.lower c') := by
  have hcarried (s : Setting) (w : Value) (c : Scope) (hw : s.Admits w) :
      (Value.operandWithin Value.optionNesting w).term c =
        (pure w.settingTerm : Lowering Term) := by
    obtain ⟨b, rfl⟩ | ⟨t, rfl⟩ := hw.bool_or_text <;> rfl
  exact alike_lowerAt hcarried hv hc hc' hdatabase 0

end QueryDriver
