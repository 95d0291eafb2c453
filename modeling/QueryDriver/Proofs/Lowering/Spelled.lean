import QueryDriver.Proofs.Lowering.Level
import QueryDriver.Proofs.Rendering.Answers

/-!
# Values that are spelled alike

Values that one phrase spells agree. The proof is an induction on one of the values, with one case
for each form of the phrase: the phrase says how the other value is put together. Two functions are
spelled with the same names for their parameters; so whatever numbers both are called with, their
results are spelled alike again.
-/

namespace QueryDriver

open Wire Lowering

namespace Value

variable {operand : Value → Operand}

theorem toNat_injective {a b : Bool} (h : a.toNat = b.toNat) : a = b := by
  cases a <;> cases b <;> first | rfl | cases h

theorem forall₂_of_getElem? {α β : Type} {R : α → β → Prop} {xs : List α} {ys : List β}
    (hlength : xs.length = ys.length)
    (h : ∀ (i : Nat) x y, xs[i]? = some x → ys[i]? = some y → R x y) : List.Forall₂ R xs ys := by
  induction xs generalizing ys with
  | nil =>
      cases ys with
      | nil => exact .nil
      | cons => cases hlength
  | cons x xs ih =>
      cases ys with
      | nil => cases hlength
      | cons y ys =>
          exact .cons (h 0 x y rfl rfl)
            (ih (Nat.succ.inj hlength) fun i x y hx hy => h (i + 1) x y hx hy)

theorem forall₂_imp_mem {α β : Type} {R S : α → β → Prop} {xs : List α} {ys : List β}
    (h : List.Forall₂ R xs ys) (hRS : ∀ x ∈ xs, ∀ y ∈ ys, R x y → S x y) :
    List.Forall₂ S xs ys := by
  obtain ⟨hlength, h⟩ := List.forall₂_iff_zip.1 h
  exact List.forall₂_iff_zip.2 ⟨hlength, fun hp =>
    hRS _ (List.of_mem_zip hp).1 _ (List.of_mem_zip hp).2 (h hp)⟩

/-- Lists that are spelled by the same phrases. -/
theorem forall₂_of_spelled {α β γ : Type} {R : α → β → Prop} {P : Nat → α → γ → Prop}
    {Q : Nat → β → γ → Prop} {xs : List α} {ys : List β} {φs : List γ}
    (hxs : xs.length = φs.length) (hys : ys.length = φs.length)
    (hP : ∀ (i : Nat) x φ, xs[i]? = some x → φs[i]? = some φ → P i x φ)
    (hQ : ∀ (i : Nat) y φ, ys[i]? = some y → φs[i]? = some φ → Q i y φ)
    (h : ∀ (i : Nat) x y φ, x ∈ xs → y ∈ ys → P i x φ → Q i y φ → R x y) :
    List.Forall₂ R xs ys := by
  refine forall₂_of_getElem? (hxs.trans hys.symm) fun i x y hx hy => ?_
  have hi : i < φs.length := hxs ▸ (List.getElem?_eq_some_iff.1 hx).1
  exact h i x y φs[i] (List.mem_of_getElem? hx) (List.mem_of_getElem? hy)
    (hP i x _ hx (List.getElem?_eq_getElem hi)) (hQ i y _ hy (List.getElem?_eq_getElem hi))

theorem key_of_keys {entries : List (Value × Value)} {es : List (String × Phrase)}
    (hkeys : entries.map (·.1) = es.map fun e => .text e.1) {i : Nat} {e : Value × Value}
    {f : String × Phrase} (he : entries[i]? = some e) (hf : es[i]? = some f) : e.1 = .text f.1 := by
  have hi := congrArg (fun keys : List Value => keys[i]?) hkeys
  simpa [he, hf] using hi

/-! ### Values spelled by one phrase -/

theorem leftUnique_named {ρ : Nat → Nat → Prop} {first : Nat} {names : List Nat}
    (hρ : Relator.LeftUnique ρ) (hnames : names.Nodup) (hfresh : ∀ a n, ρ a n → n ∉ names) :
    Relator.LeftUnique (Named first names ρ) := by
  rintro a b n (han | han) (hbn | hbn)
  · obtain ⟨i, -, rfl, hi⟩ := mem_zip_range'.1 han
    obtain ⟨j, -, rfl, hj⟩ := mem_zip_range'.1 hbn
    rw [(List.getElem?_inj (List.getElem?_eq_some_iff.1 hi).1 hnames).1 (hi.trans hj.symm)]
  · exact absurd (List.of_mem_zip han).2 (hfresh b n hbn)
  · exact absurd (List.of_mem_zip hbn).2 (hfresh a n han)
  · exact hρ han hbn

/-- Two values are spelled by one phrase. -/
def SpelledAlike (ρ : Nat → Nat → Prop) (v w : Value) : Prop :=
  ∃ slot φ, Spells slot ρ v φ ∧ Spells slot ρ w φ

theorem SpelledAlike.symm {ρ : Nat → Nat → Prop} {v w : Value} (h : SpelledAlike ρ v w) :
    SpelledAlike ρ w v := by
  obtain ⟨slot, φ, hv, hw⟩ := h
  exact ⟨slot, φ, hw, hv⟩

theorem SpelledAlike.isAbsent_eq_false {ρ : Nat → Nat → Prop} {v w : Value}
    (h : SpelledAlike ρ v w) : v.isAbsent = false := by
  obtain ⟨slot, φ, hv, -⟩ := h
  exact hv.isAbsent_eq_false

/-- Only the same switch or text is spelled as a switch or a text is. -/
theorem SpelledAlike.eq_of_carried {ρ : Nat → Nat → Prop} {v w : Value} (h : SpelledAlike ρ v w)
    (hv : (∃ b, v = .bool b) ∨ ∃ s, v = .text s) : w = v := by
  obtain ⟨slot, φ, hvφ, hwφ⟩ := h
  obtain ⟨b, rfl⟩ | ⟨s, rfl⟩ := hv
  all_goals
    cases hvφ with
    | ordered hv => cases hv
    | _ =>
        have hnot := hwφ.isFunction_eq_false
        cases hwφ with
        | callable | wrapped => cases hnot
        | _ => rfl

/-- The options of two tables that are spelled alike. -/
theorem SpelledAlike.spec {ρ : Nat → Nat → Prop} {name durability : String} {p d c w : Value}
    (h : SpelledAlike ρ (.tableSpec name p d c durability) w) :
    ∃ p' d' c', w = .tableSpec name p' d' c' durability ∧
      List.Forall₂ (SameEntry (SpelledAlike ρ)) (Value.tableSpec name p d c durability).tableFields
        (Value.tableSpec name p' d' c' durability).tableFields := by
  obtain ⟨slot, φ, hv, hw⟩ := h
  cases hv with
  | ordered hv => cases hv
  | spec hp hd hc =>
      have hnot := hw.isFunction_eq_false
      cases hw with
      | callable | wrapped => cases hnot
      | @spec _ _ _ p' d' c' _ _ _ hp' hd' hc' =>
          have hone (key : String) {v w : Value} {φ : Phrase} (hv : Spells .value ρ v φ)
              (hw : Spells .value ρ w φ) : SameEntry (fun v w => SpelledAlike ρ v w ∧
                v.truthy = w.truthy) (key, v) (key, w) :=
            ⟨rfl, ⟨_, _, hv, hw⟩, by rw [hv.truthy_eq, hw.truthy_eq]⟩
          have hfields := forall₂_filter (p := fun e : String × Value => e.2.truthy)
            (q := fun e => e.2.truthy) (fun _ _ hef => hef.2.2)
            (.cons (hone "primary_key" hp hp') (.cons (hone "datacenter" hd hd')
              (.cons (hone "cache_size" hc hc')
                (.cons (hone "durability" (.text durability) (.text durability)) .nil))))
          exact ⟨p', d', c', rfl, hfields.imp fun _ _ hef => ⟨hef.1, hef.2.1⟩⟩

/-- Functions of the same names whose bodies agree. -/
theorem agree_applied {ρ : Nat → Nat → Prop} {k j i : Int} {face face' : Face}
    {run run' : List Nat → Except Failure Value} {names : List Nat} {body : Phrase}
    (h : Spells (.function k) ρ (.expr .func [.func face run, .int j]) (.lambda names body))
    (h' : Spells (.function k) ρ (.expr .func [.func face' run', .int i]) (.lambda names body))
    (hρ : Relator.LeftUnique ρ)
    (hresult : ∀ {ρ : Nat → Nat → Prop} {x y : Value}, (∃ ps, run ps = .ok x) →
      (∃ ps, run' ps = .ok y) → Relator.LeftUnique ρ → Spells .value ρ x body →
      Spells .value ρ y body → Agree operand x y) :
    Agree operand (.expr .func [.func face run, .int j])
      (.expr .func [.func face' run', .int i]) := by
  intro c hc depth
  cases h with
  | constant hbody => cases hbody
  | applied hj htakes htype hcount hadmits hnames hfresh hrun h =>
      cases h' with
      | constant hbody => cases hbody
      | applied hi htakes' htype' hcount' hadmits' _ _ hrun' h' =>
          rw [lowerAt_function, lowerAt_function, asFunction_func htype, asFunction_func htype']
          refine (parallel_checkLiteralDepth depth).bind fun _ _ _ =>
            level_lowerCallable hj hi htakes htakes' hcount hcount' hadmits hadmits' hc
              fun first => ?_
          obtain ⟨x, hx⟩ := hrun first
          obtain ⟨y, hy⟩ := hrun' first
          have hxφ := h first x hx
          have hyφ := h' first y hy
          exact ⟨x, y, hx, hy, by rw [hxφ.isNull_eq, hyφ.isNull_eq],
            hresult ⟨_, hx⟩ ⟨_, hy⟩ (leftUnique_named hρ hnames hfresh) hxφ hyφ⟩

/-- Options that are spelled alike agree, if what the tables are made of does. -/
theorem agree_tableFields {ρ : Nat → Nat → Prop} {v w : Value}
    (h : List.Forall₂ (SameEntry (SpelledAlike ρ)) v.tableFields w.tableFields)
    (hagree : ∀ x, IsPart x v → ∀ y, IsPart y w → SpelledAlike ρ x y → Agree operand x y) :
    List.Forall₂ (SameEntry (Agree operand)) v.tableFields w.tableFields := by
  refine forall₂_imp_mem h fun e he f hf hef => ⟨hef.1, ?_⟩
  obtain hx | ⟨s, hs⟩ := mem_tableFields he
  · obtain hy | ⟨s, hs⟩ := mem_tableFields hf
    · exact hagree _ hx _ hy hef.2
    · have htext := hef.2.symm
      rw [hs] at htext ⊢
      rw [htext.eq_of_carried (.inr ⟨s, rfl⟩)]
      exact agree_atom rfl fun _ _ => rfl
  · have htext := hef.2
    rw [hs] at htext ⊢
    rw [htext.eq_of_carried (.inr ⟨s, rfl⟩)]
    exact agree_atom rfl fun _ _ => rfl

/-! ### Parts that agree -/

/-- Whatever is spelled as the value is agrees with it. -/
def Agreeing (operand : Value → Operand) (v : Value) : Prop :=
  ∀ {slot : Slot} {ρ : Nat → Nat → Prop} {w : Value} {φ : Phrase}, Spells slot ρ v φ →
    Spells slot ρ w φ → Relator.LeftUnique ρ → v.LaidOut → w.LaidOut → Agree operand v w

section Step

variable {v w : Value} {ρ : Nat → Nat → Prop} {φ : Phrase} (ih : ∀ x, Below x v → Agreeing operand x)
  (hρ : Relator.LeftUnique ρ) (hlaid : v.LaidOut) (hlaid' : w.LaidOut)

include ih hρ hlaid hlaid'

theorem agree_below {x y : Value} (hx : Below x v) (hy : Below y w) (hxy : SpelledAlike ρ x y) :
    Agree operand x y := by
  obtain ⟨slot, φ, hxφ, hyφ⟩ := hxy
  exact ih x hx hxφ hyφ hρ (hlaid.below hx) (hlaid'.below hy)

theorem agree_function {k : Int} (h : Spells (.function k) ρ v φ) (h' : Spells (.function k) ρ w φ) :
    Agree operand v w := by
  have hv := h
  have hw := h'
  cases h with
  | applied =>
      cases h' with
      | constant hbody h' => rw [h'.isFunction_of_lambda] at hbody; cases hbody
      | applied =>
          exact agree_applied hv hw hρ fun hx hy hρ hxφ hyφ =>
            ih _ (below_result (.inr rfl) hx) hxφ hyφ hρ (hlaid.below (below_result (.inr rfl) hx))
              (hlaid'.below (below_result (.inr rfl) hy))
  | constant hbody h =>
      cases h' with
      | applied => rw [h.isFunction_of_lambda] at hbody; cases hbody
      | constant hbody' h' =>
          have hagree := agree_below ih hρ hlaid hlaid' (.single (.argument List.mem_cons_self))
            (.single (.argument List.mem_cons_self)) ⟨_, _, h, h'⟩
          intro c hc depth
          exact (parallel_checkLiteralDepth depth).bind fun _ _ _ =>
            simulation_level.asFunction_body (isApplied_eq_false hbody) (isApplied_eq_false hbody') _
              (hagree c hc 0)

/-- Callables, by themselves or as functions of any number of parameters. -/
theorem agree_callable {face face' : Face} {run run' : List Nat → Except Failure Value} {j i : Int}
    (hv : v = .func face run ∧ j = -1 ∨ v = .expr .func [.func face run, .int j])
    (hw : w = .func face' run' ∧ i = -1 ∨ w = .expr .func [.func face' run', .int i])
    {names : List Nat} {body : Phrase}
    (h : Spells (.function (-1)) ρ (.expr .func [.func face run, .int j]) (.lambda names body))
    (h' : Spells (.function (-1)) ρ (.expr .func [.func face' run', .int i]) (.lambda names body)) :
    Agree operand v w := by
  intro c hc depth
  rw [lowerAt_callable hv h.isType_eq_false, lowerAt_callable hw h'.isType_eq_false]
  refine agree_applied h h' hρ (fun hx hy hρ hxφ hyφ => ?_) c hc depth
  have hx := below_result hv hx
  have hy := below_result hw hy
  exact ih _ hx hxφ hyφ hρ (hlaid.below hx) (hlaid'.below hy)

end Step

/-! ### Operations -/

/-- The argument that is sent as an option is not the receiver. -/
theorem trails_cons {v : Verb} {receiver : Value} {others : List Value}
    (hfits : v.Fits (receiver :: others)) : v.trails (receiver :: others) = v.trails others := by
  cases others with
  | nil =>
      cases hname : v.trailing? with
      | none => rw [Verb.trails, Verb.trails, hname]; rfl
      | some name =>
          obtain ⟨front, last, hargs, hlength⟩ := hfits.trailing (by rw [hname]; rfl)
          have hnil : front.length = 0 := by simpa using (congrArg List.length hargs).symm
          have hleading : 1 ≤ v.leading := by
            cases v <;> first | decide | cases hname
          omega
  | cons => rw [Verb.trails, Verb.trails, List.getLast?_cons_cons]

theorem checkReceiver_cons {v : Verb} {receiver receiver' : Value} {others others' : List Value}
    (h : notATable? receiver = notATable? receiver') :
    v.checkReceiver (receiver :: others) = v.checkReceiver (receiver' :: others') := by
  simp only [Verb.checkReceiver, h]

/-- An operation that is written as a function has no table as receiver. -/
theorem checkReceiver_function {v : Verb} {args : List Value} (hfits : v.Fits args)
    (hform : v.standsAlone = true ∨ ∀ w ∈ args.head?, w.isExpr = false) :
    v.checkReceiver args = .ok () := by
  cases htable : v.needsTable with
  | false => rw [Verb.checkReceiver.eq_def, htable]; rfl
  | true =>
      obtain ⟨receiver, rest, rfl, hexpr⟩ := hfits.receiver htable
      obtain halone | hhead := hform
      · cases v <;> first | exact absurd halone (by decide) | cases htable
      · rw [hhead receiver rfl] at hexpr
        cases hexpr

section Carried

variable (hcarried : ∀ v : Value, (∃ b, v = .bool b) ∨ (∃ s, v = .text s) → ∀ c : Scope,
  Parallel Progress.Level Eq ((operand v).term c) ((operand v).term c))

include hcarried

/-- Operations whose arguments are written by the same phrases. -/
theorem agree_written {ρ : Nat → Nat → Prop} {v : Verb} {args args' : List Value}
    (hfits : v.Fits args) (hfits' : v.Fits args')
    (hwhole : v.afterDatabase?.isSome = true → ∀ w ∈ args, w.isAbsent = false)
    (hwhole' : v.afterDatabase?.isSome = true → ∀ w ∈ args', w.isAbsent = false)
    (htrails : v.trails args = v.trails args')
    (hreceiver : v.checkReceiver args = v.checkReceiver args')
    (hargs : List.Forall₂ (SpelledAlike ρ) (given args) (given args'))
    (hagree : ∀ x, Below x (.expr (.verb v) args) → ∀ y, Below y (.expr (.verb v) args') →
      SpelledAlike ρ x y → Agree operand x y) :
    Agree operand (.expr (.verb v) args) (.expr (.verb v) args') := by
  refine agree_verb hcarried hfits.ne_var ?_
  have hpart (x : Value) (hx : x ∈ args) (y : Value) (hy : y ∈ args') (hxy : SpelledAlike ρ x y) :
      Agree operand x y := hagree x (.single (.argument hx)) y (.single (.argument hy)) hxy
  have hpositional : List.Forall₂ (Agree operand) (given args) (given args') :=
    forall₂_imp_mem hargs fun x hx y hy =>
      hpart x (List.mem_filter.1 hx).1 y (List.mem_filter.1 hy).1
  cases hcount : v.afterDatabase? with
  | none =>
      obtain ⟨front, behind, hgiven, hlength, harrange⟩ := Verb.arrange_written hfits hcount
      obtain ⟨front', behind', hgiven', hlength', harrange'⟩ := Verb.arrange_written hfits' hcount
      rw [hgiven, hgiven'] at hpositional
      obtain ⟨xs, ys, hsplit, hfront, hbehind⟩ := Row.forall₂_append_left hpositional
      obtain ⟨rfl, rfl⟩ := List.append_inj' hsplit
        (by rw [← hbehind.length_eq, hlength, hlength', htrails])
      rw [harrange, harrange', hreceiver]
      cases v.checkReceiver args' with
      | error f => exact .error f
      | ok u =>
          refine .ok ⟨rfl, hfront, ?_⟩
          rw [List.forall₂_map_left_iff, List.forall₂_map_right_iff]
          exact hbehind.imp fun _ _ hvw => ⟨rfl, hvw⟩
  | some count =>
      have hall := hwhole (by rw [hcount]; rfl)
      have hall' := hwhole' (by rw [hcount]; rfl)
      rw [given_eq_self hall, given_eq_self hall'] at hpositional hargs
      by_cases hv : v = .tableCreate
      · subst hv
        obtain ⟨front, name, p, d, c, durability, rfl⟩ := hfits.spec rfl
        obtain ⟨front', last, rfl, hfront, hlast⟩ := forall₂_append_singleton hargs
        obtain ⟨p', d', c', rfl, hfields⟩ := hlast.spec
        rw [List.forall_mem_append] at hall hall'
        rw [Verb.arrange_tableCreate hall.1, Verb.arrange_tableCreate hall'.1]
        have htext : Agree operand (.text name) (.text name) := agree_atom rfl fun _ _ => rfl
        refine .ok ⟨by simp only [hfront.length_eq], List.rel_append ?_ (.cons htext .nil), ?_⟩
        · exact forall₂_imp_mem hfront fun x hx y hy =>
            hpart x (List.mem_append_left _ hx) y (List.mem_append_left _ hy)
        · have hmem {front : List Value} {w : Value} : w ∈ front ++ [w] :=
            List.mem_append_right _ (List.mem_singleton_self w)
          exact agree_tableFields hfields fun x hx y hy =>
            hagree x (.tail (.single hx) (.argument hmem)) y (.tail (.single hy) (.argument hmem))
      · rw [Verb.arrange_database hcount hall hv, Verb.arrange_database hcount hall' hv]
        exact .ok ⟨by simp only [hpositional.length_eq], hpositional, .nil⟩

/-- Operations without an option, a database or a table as receiver. -/
theorem agree_whole {ρ : Nat → Nat → Prop} {v : Verb} {args args' : List Value} (hfits : v.Fits args)
    (hfits' : v.Fits args') (hfree : v = .field ∨ v = .call)
    (hargs : List.Forall₂ (SpelledAlike ρ) args args')
    (hagree : ∀ x, Below x (.expr (.verb v) args) → ∀ y, Below y (.expr (.verb v) args') →
      SpelledAlike ρ x y → Agree operand x y) :
    Agree operand (.expr (.verb v) args) (.expr (.verb v) args') := by
  have hgiven : given args = args := given_eq_self fun x hx => by
    obtain ⟨i, hi⟩ := List.mem_iff_getElem?.1 hx
    obtain ⟨y, -, hxy⟩ := getElem?_of_forall₂ hargs.flip hi
    exact SpelledAlike.isAbsent_eq_false hxy
  have hgiven' : given args' = args' := given_eq_self fun y hy => by
    obtain ⟨i, hi⟩ := List.mem_iff_getElem?.1 hy
    obtain ⟨x, -, hxy⟩ := getElem?_of_forall₂ hargs hi
    exact hxy.symm.isAbsent_eq_false
  have hdatabase : v.afterDatabase? = none := by obtain rfl | rfl := hfree <;> rfl
  have htrailing : v.trailing? = none := by obtain rfl | rfl := hfree <;> rfl
  have htable : v.needsTable = false := by obtain rfl | rfl := hfree <;> rfl
  refine agree_written hcarried hfits hfits' (fun h => ?_) (fun h => ?_) ?_ ?_
    (by rwa [hgiven, hgiven']) hagree
  · rw [hdatabase] at h
    cases h
  · rw [hdatabase] at h
    cases h
  · rw [Verb.trails, Verb.trails, htrailing]
    rfl
  · rw [Verb.checkReceiver.eq_def, Verb.checkReceiver.eq_def, htable]
    rfl

/-! ### One phrase, one term -/

section Step

variable {v w : Value} {ρ : Nat → Nat → Prop} {φ : Phrase} (ih : ∀ x, Below x v → Agreeing operand x)
  (hρ : Relator.LeftUnique ρ) (hlaid : v.LaidOut) (hlaid' : w.LaidOut)

include ih hρ hlaid hlaid'

theorem agree_value (h : Spells .value ρ v φ) (h' : Spells .value ρ w φ) : Agree operand v w := by
  have hnot {head : Phrase.Head} {links : List Phrase.Link} (hφ : φ = .chain head links) :
      w.isFunction = false := by
    subst hφ
    exact h'.isFunction_eq_false
  have hbelow (x : Value) (hx : Below x v) (y : Value) (hy : Below y w) (hxy : SpelledAlike ρ x y) :=
    agree_below ih hρ hlaid hlaid' hx hy hxy
  cases h with
  | null | bool | int | text =>
      cases h' with
      | callable | wrapped => cases hnot rfl
      | _ => exact agree_atom rfl fun _ _ => rfl
  | row =>
      cases h' with
      | callable | wrapped => cases hnot rfl
      | row =>
          intro c _ depth
          exact (parallel_checkLiteralDepth depth).bind fun _ _ _ => parallel_pure rfl
  | placeholder han =>
      cases h' with
      | callable | wrapped => cases hnot rfl
      | placeholder hbn =>
          obtain rfl := hρ han hbn
          intro c _ depth
          exact (parallel_checkLiteralDepth depth).bind fun _ _ _ => parallel_pure rfl
  | list hlength h =>
      cases h' with
      | callable | wrapped => cases hnot rfl
      | list hlength' h' =>
          exact agree_list (forall₂_of_spelled hlength hlength' h h' fun i x y φ hx hy hxφ hyφ =>
            hbelow x (.single (.item hx)) y (.single (.item hy)) ⟨_, φ, hxφ, hyφ⟩)
  | dict hkeys h =>
      cases h' with
      | callable | wrapped => cases hnot rfl
      | dict hkeys' h' =>
          refine agree_dict (forall₂_of_spelled (by simpa using congrArg List.length hkeys)
            (by simpa using congrArg List.length hkeys')
            (fun i e f he hf => And.intro (key_of_keys hkeys he hf) (h i e f he hf))
            (fun i e f he hf => And.intro (key_of_keys hkeys' he hf) (h' i e f he hf))
            fun i e e' f he he' hef hef' => ⟨hef.1.trans hef'.1.symm, ?_⟩)
          exact hbelow e.2 (.single (.entry he)) e'.2 (.single (.entry he')) ⟨_, _, hef.2, hef'.2⟩
  | spec =>
      cases h' with
      | callable | wrapped => cases hnot rfl
      | spec =>
          intro c _ depth
          exact (parallel_checkLiteralDepth depth).bind fun _ _ _ => parallel_throw _
  | callable h =>
      obtain ⟨names, body, rfl⟩ := h.exists_lambda
      obtain ⟨face', run', i, hw, h'⟩ := h'.of_lambda
      exact agree_callable ih hρ hlaid hlaid' (.inl ⟨rfl, rfl⟩) hw h h'
  | wrapped h =>
      obtain ⟨names, body, rfl⟩ := h.exists_lambda
      obtain ⟨face', run', i, hw, h'⟩ := h'.of_lambda
      exact agree_callable ih hρ hlaid hlaid' (.inr rfl) hw h h'
  | literal h =>
      cases h' with
      | callable | wrapped => cases hnot rfl
      | literal h' =>
          exact agree_literal (hbelow _ (.single (.argument List.mem_cons_self)) _
            (.single (.argument List.mem_cons_self)) ⟨_, _, h, h'⟩)
  | setting hs hadmits hinner hvalue =>
      cases h' with
      | callable | wrapped => cases hnot rfl
      | setting _ _ hinner' hvalue' =>
          have hsame : SpelledAlike ρ _ _ := ⟨_, _, hvalue, hvalue'⟩
          have hinner := hbelow _ (.single (.argument List.mem_cons_self)) _
            (.single (.argument List.mem_cons_self)) ⟨_, _, hinner, hinner'⟩
          rw [hsame.eq_of_carried hadmits.bool_or_text]
          exact agree_setting hadmits hinner
  | returnValues hinner =>
      cases h' with
      | callable | wrapped => cases hnot rfl
      | returnValues hinner' =>
          exact agree_setting ⟨true, rfl⟩ (hbelow _ (.single (.argument List.mem_cons_self)) _
            (.single (.argument List.mem_cons_self)) ⟨_, _, hinner, hinner'⟩)
  | @field _ _ name _ _ h =>
      cases h' with
      | callable | wrapped => cases hnot rfl
      | field h' =>
          exact agree_whole hcarried (hlaid.self _ _ rfl) (hlaid'.self _ _ rfl) (.inl rfl)
            (.cons ⟨_, _, h, h'⟩ (.cons ⟨_, _, .text name, .text name⟩ .nil)) hbelow
  | callBehind hexpr hoperand hfunction =>
      cases h' with
      | callable | wrapped => cases hnot rfl
      | callBehind _ hoperand' hfunction' =>
          exact agree_whole hcarried (hlaid.self _ _ rfl) (hlaid'.self _ _ rfl) (.inr rfl)
            (.cons ⟨_, _, hfunction, hfunction'⟩ (.cons ⟨_, _, hoperand, hoperand'⟩ .nil)) hbelow
      | method hcall => cases hcall
  | @callOf _ _ _ φs φ hform hlength h hfunction =>
      -- The phrases of the operands and of the function are found again in the list of all.
      generalize hφs : φs ++ [φ] = all at h'
      cases h' with
      | callable | wrapped => cases hnot rfl
      | callOf _ hlength' h' hfunction' =>
          obtain ⟨rfl, hφ⟩ := List.append_inj' hφs rfl
          cases hφ
          exact agree_whole hcarried (hlaid.self _ _ rfl) (hlaid'.self _ _ rfl) (.inr rfl)
            (.cons ⟨_, _, hfunction, hfunction'⟩ (forall₂_of_spelled hlength hlength' h h'
              fun i x y φ _ _ hxφ hyφ => ⟨_, φ, hxφ, hyφ⟩)) hbelow
      | function hcall => cases hcall
  | @method _ v receiver others _ _ _ _ hcall halone hexpr hreceiver hwhole htrails hlength h =>
      cases h' with
      | callable | wrapped => cases hnot rfl
      | callBehind => cases hcall
      | @method _ _ receiver' others' _ _ _ _ _ _ hexpr' hreceiver' hwhole' htrails' hlength' h' =>
          have hfits : v.Fits (receiver :: others) := hlaid.self _ _ rfl
          have hfits' : v.Fits (receiver' :: others') := hlaid'.self _ _ rfl
          have htable : notATable? receiver = notATable? receiver' := by
            rw [hreceiver.notATable_eq rfl rfl hexpr (hlaid.part (.argument List.mem_cons_self)),
              hreceiver'.notATable_eq rfl rfl hexpr' (hlaid'.part (.argument List.mem_cons_self))]
          refine agree_written hcarried hfits hfits'
            (fun hv => List.forall_mem_cons.2 ⟨hreceiver.isAbsent_eq_false, hwhole hv⟩)
            (fun hv => List.forall_mem_cons.2 ⟨hreceiver'.isAbsent_eq_false, hwhole' hv⟩) ?_
            (checkReceiver_cons htable) ?_ hbelow
          · rw [trails_cons hfits, trails_cons hfits']
            exact toNat_injective (htrails.symm.trans htrails')
          · rw [given_cons hreceiver.isAbsent_eq_false, given_cons hreceiver'.isAbsent_eq_false]
            exact .cons ⟨_, _, hreceiver, hreceiver'⟩ (forall₂_of_spelled hlength hlength' h h'
              fun i x y φ _ _ hxφ hyφ => ⟨_, φ, hxφ, hyφ⟩)
  | @function _ v args _ _ hcall hform hwhole htrails hlength h =>
      cases h' with
      | callable | wrapped => cases hnot rfl
      | callOf => cases hcall
      | @function _ _ args' _ _ _ hform' hwhole' htrails' hlength' h' =>
          have hfits : v.Fits args := hlaid.self _ _ rfl
          have hfits' : v.Fits args' := hlaid'.self _ _ rfl
          refine agree_written hcarried hfits hfits' hwhole hwhole'
            (toNat_injective (htrails.symm.trans htrails')) ?_
            (forall₂_of_spelled hlength hlength' h h' fun i x y φ _ _ hxφ hyφ => ⟨_, φ, hxφ, hyφ⟩)
            hbelow
          rw [checkReceiver_function hfits hform, checkReceiver_function hfits' hform']

end Step

/-- Values that one phrase spells agree. -/
theorem Spells.agree {slot : Slot} {ρ : Nat → Nat → Prop} {v w : Value} {φ : Phrase}
    (h : Spells slot ρ v φ) (h' : Spells slot ρ w φ) (hρ : Relator.LeftUnique ρ)
    (hlaid : v.LaidOut) (hlaid' : w.LaidOut) : Agree operand v w := by
  suffices hagree : Agreeing operand v from hagree h h' hρ hlaid hlaid'
  clear h h' hlaid
  induction v using Value.induction with
  | step v ih =>
  intro slot ρ w φ h h' hρ hlaid hlaid'
  cases slot with
  | value => exact agree_value hcarried ih hρ hlaid hlaid' h h'
  | function k => exact agree_function ih hρ hlaid hlaid' h h'
  | ordering =>
      cases h with
      | ordered hv h =>
          cases h' with
          | ordered _ h' => exact agree_value hcarried ih hρ hlaid hlaid' h h'
          | key hbody h' =>
              rw [h.isOrdering_eq, h'.isOrdering_key hbody] at hv
              cases hv
      | key hbody h =>
          cases h' with
          | ordered hw h' =>
              rw [h'.isOrdering_eq, h.isOrdering_key hbody] at hw
              cases hw
          | key _ h' => exact agree_function ih hρ hlaid hlaid' h h'

end Carried

end Value

end QueryDriver
