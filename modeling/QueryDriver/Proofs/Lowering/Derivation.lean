import QueryDriver.Proofs.Lowering.Outline

/-!
# Compiling follows the rules

Whenever a value is compiled to a term, the rules derive an outline of that term, with the
same numbers of variables. The proof goes over the value, one rule for every way in which
it can be compiled. Values that the scope carries are no parts of the value that is
compiled, so they come in as a hypothesis, and only at the end the bound on how often they
may lean on each other is used up.
-/

namespace QueryDriver

open Wire

variable {c : Scope} {r : Trail} {p p' : Progress} {t : Term}

/-- An action makes terms of a value in agreement with the rules. -/
def Becomes (c : Scope) (r : Trail) (v : Value) (a : Lowering Term) : Prop :=
  ∀ ⦃p p' t⦄, a.run p = (.ok t, p') → ∃ o, Lowers c r v p.mark o p'.mark ∧ o.term = t

/-- An action calls a callable in agreement with the rules. -/
def BecomesCalled (c : Scope) (r : Trail) (v hint : Value) (a : Lowering Term) : Prop :=
  ∀ ⦃p p' t⦄, a.run p = (.ok t, p') → ∃ o, LowersCall c r v hint p.mark o p'.mark ∧ o.term = t

/-! ### One value after the other -/

theorem mapM_becomes {α : Type} {f : α → Lowering Term} {vs : List Value} {xs : List α}
    (hf : List.Forall₂ (fun v x => Becomes c r v (f x)) vs xs) {ts : List Term}
    (h : (xs.mapM f).run p = (.ok ts, p')) :
    ∃ os, LowersEach c r vs p.mark os p'.mark ∧ Outline.terms os = ts := by
  induction hf generalizing p ts with
  | nil =>
      rw [List.mapM_nil] at h
      cases h
      exact ⟨[], .nil, rfl⟩
  | cons hv _ ih =>
      rw [List.mapM_cons] at h
      obtain ⟨t, p₁, ht, h⟩ := run_bind_ok h
      obtain ⟨ts, p₂, hts, h⟩ := run_bind_ok h
      cases h
      obtain ⟨o, ho, rfl⟩ := hv ht
      obtain ⟨os, hos, rfl⟩ := ih hts
      exact ⟨o :: os, .cons ho hos, rfl⟩

theorem lowerOptions_becomes {scope : Scope} {es : List (String × Value)}
    {xs : List (String × Operand)}
    (hf : List.Forall₂ (fun e x => e.1 = x.1 ∧ Becomes c r e.2 (x.2.term scope)) es xs)
    {ts : List (Option String × Option Term)}
    (h : (lowerOptions scope xs).run p = (.ok ts, p')) :
    ∃ os, LowersEach c r (es.map (·.2)) p.mark os p'.mark ∧
      Outline.options ((es.map (·.1)).zip os) = ts := by
  unfold lowerOptions at h
  induction hf generalizing p ts with
  | nil =>
      rw [List.mapM_nil] at h
      cases h
      exact ⟨[], .nil, rfl⟩
  | cons hx _ ih =>
      rw [List.mapM_cons] at h
      obtain ⟨t, p₁, ht, h⟩ := run_bind_ok h
      obtain ⟨ts, p₂, hts, h⟩ := run_bind_ok h
      cases h
      obtain ⟨t, p₃, ht, h⟩ := run_bind_ok ht
      cases h
      obtain ⟨hname, hv⟩ := hx
      obtain ⟨o, ho, rfl⟩ := hv ht
      obtain ⟨os, hos, rfl⟩ := ih hts
      refine ⟨o :: os, .cons ho hos, ?_⟩
      simp [Outline.options, hname]

theorem lowerOptions_append (scope : Scope) (xs ys : List (String × Operand)) :
    lowerOptions scope (xs ++ ys) = (do
      let ts ← lowerOptions scope xs
      let us ← lowerOptions scope ys
      return ts ++ us) := by
  simp [lowerOptions, List.mapM_append]

theorem literalKey_ok {key : Value} {s : String}
    (h : (Value.literalKey key).run p = (.ok s, p')) : key = .text s ∧ p' = p := by
  cases key with
  | text s' =>
      cases h
      exact ⟨rfl, rfl⟩
  | _ => cases h

theorem checkLiteralDepth_ok {depth : Int} {u : Unit}
    (h : (Value.checkLiteralDepth depth).run p = (.ok u, p')) : p' = p := by
  unfold Value.checkLiteralDepth at h
  split at h
  · cases h
  · cases h
    rfl

/-- How deep a literal is nested makes no difference once it is compiled. -/
theorem Becomes.checked {v : Value} {a : Lowering Term} (depth : Int) (ha : Becomes c r v a) :
    Becomes c r v (Value.checkLiteralDepth depth >>= fun _ => a) := by
  intro p p' t h
  obtain ⟨_, p₁, hdepth, hrest⟩ := run_bind_ok h
  obtain rfl := checkLiteralDepth_ok hdepth
  exact ha hrest

theorem lowerEntries_becomes {depth : Int} {f : Value → Value.Part}
    {entries : List (Value × Value)}
    (hf : ∀ e ∈ entries, Becomes c r e.2 (f e.2 depth (c.under r)))
    (h : (Value.lowerEntries (entries.map fun e => (e.1, f e.2)) depth (c.under r)).run p =
      (.ok t, p')) :
    ∃ (keys : List String) (os : List Outline), entries.map (·.1) = keys.map .text ∧
      LowersEach c r (entries.map (·.2)) p.mark os p'.mark ∧
      (Outline.object (keys.zip os)).term = t := by
  obtain ⟨pairs, p₁, hpairs, h⟩ := run_bind_ok h
  cases h
  clear h
  suffices ∃ (keys : List String) (os : List Outline), entries.map (·.1) = keys.map .text ∧
      LowersEach c r (entries.map (·.2)) p.mark os p'.mark ∧
      keys.zip (Outline.terms os) = pairs by
    obtain ⟨keys, os, hkeys, hos, rfl⟩ := this
    refine ⟨keys, os, hkeys, hos, ?_⟩
    simp [Outline.term, Term.makeObject, Outline.options_zip]
  rw [List.mapM_map] at hpairs
  induction entries generalizing p pairs with
  | nil =>
      rw [List.mapM_nil] at hpairs
      cases hpairs
      exact ⟨[], [], rfl, .nil, rfl⟩
  | cons e entries ih =>
      rw [List.mapM_cons] at hpairs
      obtain ⟨pair, p₁, hpair, hpairs⟩ := run_bind_ok hpairs
      obtain ⟨rest, p₂, hrest, hpairs⟩ := run_bind_ok hpairs
      cases hpairs
      obtain ⟨key, p₃, hkey, hpair⟩ := run_bind_ok hpair
      obtain ⟨t, p₄, ht, hpair⟩ := run_bind_ok hpair
      cases hpair
      obtain ⟨htext, rfl⟩ := literalKey_ok hkey
      obtain ⟨o, ho, rfl⟩ := hf e List.mem_cons_self ht
      obtain ⟨keys, os, hkeys, hos, rfl⟩ :=
        ih (fun e he => hf e (List.mem_cons_of_mem _ he)) _ hrest
      exact ⟨key :: keys, o :: os, by simpa using ⟨htext, hkeys⟩, .cons ho hos, rfl⟩

theorem lowerItems_becomes {depth : Int} {f : Value → Value.Part} {items : List Value}
    (hf : ∀ w ∈ items, Becomes c r w (f w depth (c.under r)))
    (h : (Value.lowerItems (items.map f) depth (c.under r)).run p = (.ok t, p')) :
    ∃ os, LowersEach c r items p.mark os p'.mark ∧ (Outline.array os).term = t := by
  obtain ⟨ts, p₁, hts, h⟩ := run_bind_ok h
  cases h
  have heach : List.Forall₂ (fun w part => Becomes c r w (part depth (c.under r))) items
      (items.map f) := by
    rw [List.forall₂_map_right_iff, List.forall₂_same]
    exact hf
  obtain ⟨os, hos, rfl⟩ := mapM_becomes heach hts
  exact ⟨os, hos, rfl⟩

/-! ### Callables and functions -/

theorem run_countCall (face : Face) (p : Progress) :
    (Lowering.countCall face).run p =
      (.ok (), { p with calls := p.calls + if face.isCounted then 1 else 0 }) := by
  unfold Lowering.countCall
  split <;> rfl

theorem countCall_mark {face : Face} {u : Unit}
    (h : (Lowering.countCall face).run p = (.ok u, p')) : p'.mark = p.mark := by
  rw [run_countCall] at h
  cases h
  rfl

theorem lowerResult_becomes {operand : Value → Operand} {result : Except Failure Value}
    (hresult : ∀ w, result = .ok w → Becomes c r w (Value.lowerAt operand w 0 (c.under r)))
    (h : (Value.lowerResult operand result (c.under r)).run p = (.ok t, p')) :
    ∃ w o, result = .ok w ∧ Lowers c r w p.mark o p'.mark ∧ o.term = t := by
  unfold Value.lowerResult at h
  split at h
  case h_1 => cases h
  case h_2 w hw =>
    obtain ⟨o, ho, rfl⟩ := hresult w rfl h
    exact ⟨w, o, rfl, ho, rfl⟩
  case h_3 => cases h

theorem lowerCallable_becomes {operand : Value → Operand} {face : Face}
    {run : List Nat → Except Failure Value} {hint : Value} (htype : face.isType = false)
    (hrun : ∀ params w, run params = .ok w →
      Becomes c r w (Value.lowerAt operand w 0 (c.under r))) :
    BecomesCalled c r (.func face run) hint
      (lowerCallable face hint fun params =>
        Value.lowerResult operand (run params) (c.under r)) := by
  intro p p' t h
  obtain ⟨count, hcount, h⟩ := run_liftM_bind_ok h
  obtain ⟨params, p₁, hparams, h⟩ := run_bind_ok h
  cases hparams
  obtain ⟨u, hadmits, h⟩ := run_liftM_bind_ok h
  obtain ⟨_, p₂, hcounted, h⟩ := run_bind_ok h
  obtain ⟨body, p₃, hbody, h⟩ := run_bind_ok h
  cases h
  have hmark : p₂.mark = p.mark.skip count := countCall_mark hcounted
  obtain ⟨w, o, hresult, ho, rfl⟩ := lowerResult_becomes (hrun _) hbody
  rw [hmark] at ho
  exact ⟨_, .call htype hcount hadmits hresult ho, rfl⟩

/-! ### Operations -/

theorem on_becomes : Becomes c r (.bool true) (Operand.on.term (c.under r)) := by
  intro p p' t h
  cases h
  exact ⟨_, .scalar rfl, rfl⟩

theorem text_becomes {operand : Value → Operand} {s : String} :
    Becomes c r (.text s) ((Value.operandBy operand (.text s)).term (c.under r)) := by
  intro p p' t h
  cases h
  exact ⟨_, .scalar rfl, rfl⟩

/-- The database that a node leaves out is compiled as if it had been written. -/
theorem implicitDatabase_becomes {operand : Value → Operand}
    (hoperand : ∀ w, Becomes c r w ((operand w).term (c.under r))) :
    Becomes c r c.receiver ((implicitDatabase (c.under r) operand).term (c.under r)) := by
  intro p p' t h
  obtain ⟨names, p₁, hnames, h⟩ := run_bind_ok h
  cases h
  have harranged : Verb.db.arrange [c.database] =
      .ok ⟨false, [c.database].filter fun a => !a.isAbsent, []⟩ := rfl
  have hname : List.Forall₂ (fun v o => Becomes c r v (Operand.term o (c.under r)))
      ([c.database].filter fun a => !a.isAbsent)
      (if c.database.isAbsent then [] else [operand c.database]) := by
    cases habsent : c.database.isAbsent
    · simpa [habsent] using hoperand c.database
    · simp [habsent]
  rw [Scope.under_database] at hnames
  obtain ⟨os, hos, rfl⟩ := mapM_becomes hname hnames
  exact ⟨_, .verb harranged hos .nil .nil, rfl⟩

theorem lowerVerb_becomes {operand : Value → Operand} {v : Verb} {args : List Value}
    (hbelow : ∀ w, Value.Below w (.expr (.verb v) args) →
      Becomes c r w (Value.lowerAt operand w 0 (c.under r)))
    (hoperand : ∀ w, Becomes c r w ((operand w).term (c.under r))) :
    Becomes c r (.expr (.verb v) args)
      (lowerVerb operand v (args.map (Value.operandBy operand)) (c.under r)) := by
  intro p p' t h
  rw [lowerVerb_eq] at h
  obtain ⟨a, ha, h⟩ := run_liftM_bind_ok h
  obtain ⟨positional, p₁, hpositional, h⟩ := run_bind_ok h
  obtain ⟨options, p₂, hoptions, h⟩ := run_bind_ok h
  cases h
  rw [lowerOptions_append] at hoptions
  obtain ⟨own, p₃, hown, hoptions⟩ := run_bind_ok hoptions
  obtain ⟨given, p₄, hgiven, hoptions⟩ := run_bind_ok hoptions
  cases hoptions
  have harranged : ∀ w ∈ a.positional ++ a.named.map (·.2),
      Becomes c r w ((Value.operandBy operand w).term (c.under r)) :=
    Verb.forall_of_arrange ha hbelow fun s => text_becomes
  have hreceiver : List.Forall₂ (fun w o => Becomes c r w (Operand.term o (c.under r)))
      (a.receiver c ++ a.positional)
      ((if a.implicit then [implicitDatabase (c.under r) operand] else []) ++
        a.positional.map (Value.operandBy operand)) := by
    apply List.rel_append
    · unfold Arrangement.receiver
      cases a.implicit
      · exact .nil
      · exact .cons (implicitDatabase_becomes hoperand) .nil
    · rw [List.forall₂_map_right_iff, List.forall₂_same]
      exact fun w hw => harranged w (List.mem_append_left _ hw)
  have hnames : List.Forall₂ (fun e o => e.1 = o.1 ∧ Becomes c r e.2 (o.2.term (c.under r)))
      a.named (a.named.map fun e => (e.1, Value.operandBy operand e.2)) := by
    rw [List.forall₂_map_right_iff, List.forall₂_same]
    exact fun e he => ⟨rfl, harranged e.2 (List.mem_append_right _ (List.mem_map_of_mem he))⟩
  obtain ⟨args, hargs, rfl⟩ := mapM_becomes hreceiver hpositional
  obtain ⟨named, hnamed, rfl⟩ := lowerOptions_becomes hnames hown
  obtain ⟨sent, hsent, rfl⟩ := lowerOptions_becomes (scopeOptions_forall₂ v
    (fun name => ⟨rfl, on_becomes⟩) fun name s => ⟨rfl, hoperand _⟩) hgiven
  rw [Verb.sent_get_under] at hsent ⊢
  exact ⟨_, .verb ha hargs hnamed hsent, rfl⟩

/-! ### Values -/

theorem row_becomes {operand : Value → Operand} :
    Becomes c r .row (lowerNode operand (.verb .implicitVar) [] (c.under r)) := by
  intro p p' t h
  cases h
  exact ⟨_, .row, rfl⟩

theorem placeholder_becomes {operand : Value → Operand} {m : Nat} :
    Becomes c r (.placeholder m)
      (lowerNode operand (.verb .var) [Operand.number m] (c.under r)) := by
  intro p p' t h
  cases h
  exact ⟨_, .placeholder, rfl⟩

/-- A value that is made of items or entries. -/
def Value.isContainer : Value → Bool
  | .list _ | .tuple _ | .dict _ | .mapping _ => true
  | _ => false

/-- What is neither a container nor an expression is sent as a datum, a moment as an object. -/
theorem marshal_becomes {v : Value} (hplain : v.isContainer = false) :
    Becomes c r v (liftM (v.marshal 0)) := by
  intro p p' t h
  rw [run_liftM] at h
  obtain ⟨hmarshal, rfl⟩ := Prod.mk.inj h
  unfold Value.marshal at hmarshal
  obtain ⟨-, -, hmarshal⟩ := bind_ok hmarshal
  split at hmarshal
  case h_1 t =>
    obtain ⟨entries, hentries, hmarshal⟩ := bind_ok hmarshal
    cases hmarshal
    obtain ⟨entries, htime, hentries⟩ := bind_ok hentries
    obtain ⟨-, -, hentries⟩ := bind_ok hentries
    cases hentries
    refine ⟨_, .moment htime, ?_⟩
    simp [Outline.term, Term.makeObject, Outline.options_eq_map]
  case h_2 | h_3 | h_4 | h_5 => cases hplain
  case h_6 =>
    obtain ⟨d?, hd, hmarshal⟩ := bind_ok hmarshal
    cases d? with
    | none => cases hmarshal
    | some d =>
        cases hmarshal
        exact ⟨_, .scalar hd, rfl⟩

theorem asFunction_becomes {operand : Value → Operand} {body hint : Value} {rest : List Value}
    (hbody : Becomes c r body (Value.lowerAt operand body 0 (c.under r)))
    (hresult : ∀ w, Value.IsPart w body → Becomes c r w (Value.lowerAt operand w 0 (c.under r))) :
    Becomes c r (.expr .func (body :: hint :: rest))
      ((Value.operandBy operand body).asFunction hint (c.under r)) := by
  intro p p' t h
  cases happlied : body.isApplied with
  | true =>
      cases body with
      | func face run =>
          have htype : face.isType = false := by simpa [Value.isApplied] using happlied
          rw [Value.asFunction_func htype] at h
          obtain ⟨o, ho, rfl⟩ :=
            lowerCallable_becomes htype (fun params w hw => hresult w (.result hw)) h
          exact ⟨o, .applied ho, rfl⟩
      | _ => cases happlied
  | false =>
      rw [Value.asFunction_eq happlied] at h
      obtain ⟨t, p₁, ht, h⟩ := run_bind_ok h
      obtain ⟨o, ho, rfl⟩ := hbody ht
      split at h
      case isTrue hconstant =>
        cases h
        exact ⟨o, .constant happlied ho hconstant, rfl⟩
      case isFalse hconstant =>
        split at h
        · cases h
        · rename_i count hcount
          cases h
          exact ⟨_, .wrapped happlied ho (eq_false_of_ne_true hconstant) hcount, rfl⟩

/-- What a setting does before what is below it is compiled. -/
def Lowering.noteSetting (s : Setting) (v : Value) : Lowering Unit :=
  if s = .timeFormat then Lowering.noteTimeFormat v else pure ()

theorem lowerNode_setting {operand : Value → Operand} (s : Setting) (inner value : Operand)
    (scope : Scope) :
    lowerNode operand (.setting s) [inner, value] scope =
      (Lowering.noteSetting s value.value >>= fun _ =>
        inner.term (scope.set s value.value)) := by
  simp only [lowerNode, Lowering.noteSetting]
  split <;> rfl

theorem run_noteSetting (s : Setting) (v : Value) (p : Progress) :
    (Lowering.noteSetting s v).run p =
      (.ok (), if s = .timeFormat ∧ p.timeFormat.truthy = false then { p with timeFormat := v }
        else p) := by
  by_cases hs : s = .timeFormat
  · have hrun : (Lowering.noteSetting s v).run p =
        (.ok (), if p.timeFormat.truthy then p else { p with timeFormat := v }) := by
      rw [Lowering.noteSetting, if_pos hs]
      rfl
    rw [hrun]
    cases htruthy : p.timeFormat.truthy <;> simp [hs]
  · rw [Lowering.noteSetting, if_neg hs, if_neg fun h => hs h.1]
    rfl

theorem noteSetting_mark {s : Setting} {v : Value} {u : Unit}
    (h : (Lowering.noteSetting s v).run p = (.ok u, p')) : p'.mark = p.mark.note s v := by
  rw [run_noteSetting] at h
  cases h
  exact apply_ite Progress.mark _ _ _

/-- Compiling a node follows the rules if compiling its parts and the values of the scope
does. -/
theorem lowerNode_becomes {operand : Value → Operand} {op : Operator} {args : List Value}
    (hbelow : ∀ w, Value.Below w (.expr op args) →
      ∀ r, Becomes c r w (Value.lowerAt operand w 0 (c.under r)))
    (hoperand : ∀ r w, Becomes c r w ((operand w).term (c.under r))) (r : Trail) :
    Becomes c r (.expr op args)
      (lowerNode operand op (args.map (Value.operandBy operand)) (c.under r)) := by
  intro p p' t h
  cases op with
  | literal =>
      cases args with
      | nil => cases h
      | cons v rest =>
          obtain ⟨o, ho, rfl⟩ := hbelow v (.single (.argument List.mem_cons_self)) r h
          exact ⟨o, .literal ho, rfl⟩
  | func =>
      match args with
      | [] => cases h
      | [_] => cases h
      | body :: hint :: rest =>
          have hbody : Value.IsPart body (.expr .func (body :: hint :: rest)) :=
            .argument List.mem_cons_self
          exact asFunction_becomes (hbelow body (.single hbody) r)
            (fun w hw => hbelow w (.head hw (.single hbody)) r) h
  | setting s =>
      match args with
      | [] => cases h
      | [_] => cases h
      | _ :: _ :: _ :: _ => cases h
      | [inner, value] =>
          have hinner : Value.Below inner (.expr (.setting s) [inner, value]) :=
            .single (.argument List.mem_cons_self)
          rw [List.map_cons, List.map_cons, List.map_nil, lowerNode_setting] at h
          obtain ⟨_, p₁, hnoted, h⟩ := run_bind_ok h
          obtain ⟨o, ho, rfl⟩ := hbelow inner hinner ((s, value) :: r) h
          rw [noteSetting_mark hnoted] at ho
          exact ⟨o, .setting ho, rfl⟩
  | verb v =>
      exact lowerVerb_becomes (fun w hw => hbelow w hw r) (hoperand r) h

/-- Compiling a value follows the rules if compiling the values of the scope does. -/
theorem lowerAt_becomes {operand : Value → Operand}
    (hoperand : ∀ r w, Becomes c r w ((operand w).term (c.under r))) (v : Value) :
    ∀ r depth, Becomes c r v (Value.lowerAt operand v depth (c.under r)) := by
  induction v using Value.induction with
  | step v ih =>
  intro r depth
  have ih_part (w : Value) (hw : Value.IsPart w v) (depth : Int) :
      Becomes c r w (Value.lowerAt operand w depth (c.under r)) := ih w (.single hw) r depth
  cases v with
  | expr op args =>
      refine Becomes.checked depth ?_
      rw [Value.operands_eq_map]
      exact lowerNode_becomes (fun w hw r => ih w hw r 0) hoperand r
  | row => exact .checked depth row_becomes
  | placeholder m => exact .checked depth placeholder_becomes
  | dict entries =>
      refine Becomes.checked depth fun p p' t h => ?_
      rw [Value.entryParts_eq_map] at h
      obtain ⟨keys, os, hkeys, hos, rfl⟩ :=
        lowerEntries_becomes (fun e he => ih_part e.2 (.entry he) _) h
      exact ⟨_, .dict hkeys hos, rfl⟩
  | mapping entries =>
      refine Becomes.checked depth fun p p' t h => ?_
      rw [Value.entryParts_eq_map] at h
      obtain ⟨keys, os, hkeys, hos, rfl⟩ :=
        lowerEntries_becomes (fun e he => ih_part e.2 (.image he) _) h
      exact ⟨_, .mapping hkeys hos, rfl⟩
  | list items =>
      refine Becomes.checked depth fun p p' t h => ?_
      rw [Value.itemParts_eq_map] at h
      obtain ⟨os, hos, rfl⟩ := lowerItems_becomes (fun w hw => ih_part w (.item hw) _) h
      exact ⟨_, .list hos, rfl⟩
  | tuple items =>
      refine Becomes.checked depth fun p p' t h => ?_
      rw [Value.itemParts_eq_map] at h
      obtain ⟨os, hos, rfl⟩ := lowerItems_becomes (fun w hw => ih_part w (.component hw) _) h
      exact ⟨_, .tuple hos, rfl⟩
  | func face run =>
      refine Becomes.checked depth fun p p' t h => ?_
      split at h
      case isTrue => cases h
      case isFalse htype =>
        obtain ⟨o, ho, rfl⟩ := lowerCallable_becomes (eq_false_of_ne_true htype)
          (fun params w hw => ih_part w (.result hw) 0) h
        exact ⟨o, .callable ho, rfl⟩
  | _ => exact .checked depth (marshal_becomes rfl)

/-- The terms of a value that is compiled follow the rules. -/
theorem lower_becomes (v : Value) : Becomes c r v (v.lower (c.under r)) := by
  -- The bound on how often values of the scope lean on each other is used up here. Where
  -- nothing is left of it nothing is compiled at all.
  have hoperand (fuel : Nat) (r : Trail) (w : Value) :
      Becomes c r w ((Value.operandWithin fuel w).term (c.under r)) := by
    induction fuel generalizing r w with
    | zero =>
        intro p p' t h
        cases h
    | succ fuel ih => exact lowerAt_becomes ih w r 0
  exact hoperand _ r v

end QueryDriver
