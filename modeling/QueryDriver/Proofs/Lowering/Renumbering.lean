import QueryDriver.Proofs.Compilation.Variables
import QueryDriver.Proofs.Value.Renaming

/-!
# Compiling from another number

The numbers of variables are handed out by a counter that all compilations share, so which numbers
a query has depends on what was compiled before. Nothing else does: two compilations of a value
that is uniform, from any two numbers, fail alike, or they come to terms that are the same up to
the numbers of their functions and variables, each of which is as far from where its compilation
began as its counterpart.
-/

namespace QueryDriver

open Wire Lowering Value

variable {m n : Nat}

/-- Numbers as far from `m` and from `n`. -/
def Shifted (m n a b : Nat) : Prop := ∃ k, a = m + k ∧ b = n + k

theorem Shifted.add {a b : Nat} (h : Shifted m n a b) (count : Nat) :
    Shifted m n (a + count) (b + count) := by
  obtain ⟨k, rfl, rfl⟩ := h
  exact ⟨k + count, by omega, by omega⟩

theorem Shifted.range {a b : Nat} (h : Shifted m n a b) (count : Nat) :
    List.Forall₂ (Shifted m n) (List.range' a count) (List.range' b count) := by
  induction count generalizing a b with
  | zero => exact .nil
  | succ count ih =>
      rw [List.range'_succ, List.range'_succ]
      exact .cons h (ih (h.add 1))

/-- Numbers beside each other are as far from `m` and from `n` as the first ones. -/
theorem Shifted.of_beside {a b count x y : Nat} (h : Shifted m n a b)
    (hxy : Beside a b count (Shifted m n) x y) : Shifted m n x y := by
  obtain hxy | hxy := hxy
  · exact (List.forall₂_iff_zip.1 (h.range count)).2 hxy
  · exact hxy

namespace Wire.Term

/-- Terms that are the same up to the numbers of parameters and variables, which are as far from
`m` in the first and from `n` in the second. -/
inductive Renumbered (m n : Nat) : Term → Term → Prop where
  | reference {a b : Nat} (h : Shifted m n a b) :
      Renumbered m n { Term.empty with tag := some Verb.var.code, args := [numberTerm a] }
        { Term.empty with tag := some Verb.var.code, args := [numberTerm b] }
  | function {ps qs : List Nat} {t u : Term} (hparams : List.Forall₂ (Shifted m n) ps qs)
      (h : Renumbered m n t u) : Renumbered m n (functionTerm ps t) (functionTerm qs u)
  | other {tag : Option Int32} {datum : Option Datum} {ts us : List Term}
      {es fs : List (String × Term)} (hvar : tag ≠ some Verb.var.code)
      (hfunc : tag ≠ some TermType.func.code) (hargs : ts.length = us.length)
      (h : ∀ p ∈ ts.zip us, Renumbered m n p.1 p.2) (hnames : es.map (·.1) = fs.map (·.1))
      (hvalues : ∀ p ∈ es.zip fs, Renumbered m n p.1.2 p.2.2) :
      Renumbered m n ⟨tag, datum, ts, es.map fun e => (some e.1, some e.2)⟩
        ⟨tag, datum, us, fs.map fun e => (some e.1, some e.2)⟩

namespace Renumbered

variable {t u : Term}

/-- Terms that are put together alike are renumbered part by part. -/
theorem of_parts {tag : Option Int32} {datum : Option Datum} {ts us : List Term}
    {es fs : List (String × Term)} (hvar : tag ≠ some Verb.var.code)
    (hfunc : tag ≠ some TermType.func.code) (hargs : List.Forall₂ (Renumbered m n) ts us)
    (hvalues : List.Forall₂ (fun e f => e.1 = f.1 ∧ Renumbered m n e.2 f.2) es fs) :
    Renumbered m n ⟨tag, datum, ts, es.map fun e => (some e.1, some e.2)⟩
      ⟨tag, datum, us, fs.map fun e => (some e.1, some e.2)⟩ := by
  obtain ⟨hlength, h⟩ := List.forall₂_iff_zip.1 hargs
  refine .other hvar hfunc hlength (fun p hp => h hp) ?_
    fun p hp => ((List.forall₂_iff_zip.1 hvalues).2 hp).2
  rw [← List.forall₂_eq_eq_eq, List.forall₂_map_left_iff, List.forall₂_map_right_iff]
  exact hvalues.imp fun _ _ he => he.1

theorem of_args {tag : Option Int32} {datum : Option Datum} {ts us : List Term}
    (hvar : tag ≠ some Verb.var.code) (hfunc : tag ≠ some TermType.func.code)
    (hargs : List.Forall₂ (Renumbered m n) ts us) :
    Renumbered m n ⟨tag, datum, ts, []⟩ ⟨tag, datum, us, []⟩ :=
  of_parts hvar hfunc hargs (List.Forall₂.nil : List.Forall₂ _ ([] : List (String × Term)) [])

theorem kind_eq (h : Renumbered m n t u) : t.kind = u.kind := by
  have hkind (tag : Option Int32) (datum : Option Datum) (args : List Term)
      (options : List (Option String × Option Term)) :
      (⟨tag, datum, args, options⟩ : Term).kind = tag.getD 0 := rfl
  cases h with
  | reference => rw [hkind, hkind]
  | function => rw [functionTerm, functionTerm, hkind, hkind]
  | other => rw [hkind, hkind]

theorem mentionsRow_functionTerm (ps : List Nat) (t : Term) :
    (functionTerm ps t).mentionsRow = t.mentionsRow := by
  have hnumbers : anyMentionsRow (ps.map numberTerm) = false := by
    induction ps with
    | nil => rfl
    | cons p ps ih =>
        rw [List.map_cons, anyMentionsRow, ih]
        rfl
  have hparams : (makeArray (ps.map numberTerm)).mentionsRow = false := by
    rw [makeArray, mentionsRow, hnumbers]
    rfl
  rw [functionTerm, mentionsRow, anyMentionsRow, anyMentionsRow, anyMentionsRow, hparams]
  simp [Term.empty, anyOptionMentionsRow, (show (TermType.func.code == Verb.implicitVar.code) = false
    by decide)]

theorem mentionsRow_eq (h : Renumbered m n t u) : t.mentionsRow = u.mentionsRow := by
  have hreference (a : Nat) : Term.mentionsRow { Term.empty with
      tag := some Verb.var.code, args := [numberTerm a] } = false := rfl
  induction h with
  | reference h => rw [hreference, hreference]
  | function _ _ ih => rw [mentionsRow_functionTerm, mentionsRow_functionTerm, ih]
  | @other tag datum ts us es fs _ _ hargs _ hnames _ ih ihvalues =>
      have heach {ts us : List Term} (h : List.Forall₂ (fun t u => t.mentionsRow = u.mentionsRow)
          ts us) : anyMentionsRow ts = anyMentionsRow us := by
        induction h with
        | nil => rfl
        | cons h _ ih => rw [anyMentionsRow, anyMentionsRow, h, ih]
      have hoptions {es fs : List (String × Term)}
          (h : List.Forall₂ (fun e f => e.2.mentionsRow = f.2.mentionsRow) es fs) :
          anyOptionMentionsRow (es.map fun e => (some e.1, some e.2)) =
            anyOptionMentionsRow (fs.map fun e => (some e.1, some e.2)) := by
        induction h with
        | nil => rfl
        | cons h _ ih =>
            simp only [List.map_cons, anyOptionMentionsRow, valueMentionsRow, h, ih]
      have hlength : es.length = fs.length := by simpa using congrArg List.length hnames
      rw [mentionsRow, mentionsRow, heach (List.forall₂_iff_zip.2 ⟨hargs, fun hp => ih _ hp⟩),
        hoptions (List.forall₂_iff_zip.2 ⟨hlength, fun hp => ihvalues _ hp⟩)]

theorem isConstant_eq (h : Renumbered m n t u) : t.isConstant = u.isConstant := by
  rw [isConstant, isConstant, h.kind_eq, h.mentionsRow_eq]

end Renumbered

end Wire.Term

/-! ### Side by side -/

/-- Two compilations have handed out as many numbers, and have met the same time format. -/
structure Progress.Shifted (m n : Nat) (p q : Progress) : Prop where
  next : QueryDriver.Shifted m n p.next q.next
  timeFormat : Renamed (QueryDriver.Shifted m n) p.timeFormat q.timeFormat

/-- As many numbers, handed out as far from where the compilations began. -/
def Handed (m n count : Nat) (ps qs : List Nat) : Prop :=
  ∃ a b, Shifted m n a b ∧ ps = List.range' a count ∧ qs = List.range' b count

theorem SameOption.entries {T : Term → Term → Prop} {os qs : List (Option String × Option Term)}
    (h : List.Forall₂ (SameOption T) os qs) :
    ∃ es fs : List (String × Term), os = es.map (fun e => (some e.1, some e.2)) ∧
      qs = fs.map (fun e => (some e.1, some e.2)) ∧
      List.Forall₂ (fun e f => e.1 = f.1 ∧ T e.2 f.2) es fs := by
  induction h with
  | nil => exact ⟨[], [], rfl, rfl, .nil⟩
  | cons h _ ih =>
      obtain ⟨name, t, u, rfl, rfl, htu⟩ := h
      obtain ⟨es, fs, rfl, rfl, hes⟩ := ih
      exact ⟨(name, t) :: es, (name, u) :: fs, rfl, rfl, .cons ⟨rfl, htu⟩ hes⟩

theorem simulation_shifted (m n : Nat) :
    Simulation (Progress.Shifted m n) (Handed m n) (Term.Renumbered m n) where
  take count p q hpq :=
    ⟨.ok ⟨p.next, q.next, hpq.next, rfl, rfl⟩, hpq.next.add count, hpq.timeFormat⟩
  call face p q hpq := by
    rw [run_countCall, run_countCall]
    exact ⟨.ok rfl, hpq.next, hpq.timeFormat⟩
  datum d := .of_args (by decide) (by decide) .nil
  array h := .of_args (by decide) (by decide) h
  object h := .of_parts (by decide) (by decide) .nil h
  function := by
    rintro count ps qs t u ⟨a, b, hab, rfl, rfl⟩ ht
    exact .function (hab.range count) ht
  constant := Term.Renumbered.isConstant_eq
  operation {v} hv ts us os qs hargs hoptions := by
    obtain ⟨es, fs, rfl, rfl, hes⟩ := SameOption.entries hoptions
    exact .of_parts (fun h => Verb.code_ne_var hv (Option.some.inj h))
      (fun h => Verb.code_ne_func v (Option.some.inj h)) hargs hes

/-- Scopes whose values are the same up to numbers of placeholders. -/
structure Scope.Renamed (ρ : Nat → Nat → Prop) (c c' : Scope) : Prop where
  database : Value.Renamed ρ c.database c'.database
  setting (s : Setting) : Value.Renamed ρ (c.get s) (c'.get s)

theorem Scope.Renamed.set {ρ : Nat → Nat → Prop} {c c' : Scope} (h : c.Renamed ρ c') {v w : Value}
    (hvw : Value.Renamed ρ v w) (s : Setting) : (c.set s v).Renamed ρ (c'.set s w) := by
  refine ⟨by rw [set_database, set_database]; exact h.database, fun s' => ?_⟩
  by_cases hs : s = s'
  · subst hs
    cases s with
    | useOutdated | atomic | upsert | returnValues =>
        simp only [Scope.set, Scope.get, hvw.truthy_eq]
        exact .atom rfl
    | durability | leftBound | rightBound | timeFormat => exact hvw
  · rw [get_set_of_ne c v hs, get_set_of_ne c' w hs]
    exact h.setting s'

theorem parallel_noteSetting {v w : Value} (h : Renamed (Shifted m n) v w) (s : Setting) :
    Parallel (Progress.Shifted m n) Eq (noteSetting s v) (noteSetting s w) := by
  intro p q hpq
  rw [run_noteSetting, run_noteSetting, hpq.timeFormat.truthy_eq]
  refine ⟨.ok rfl, ?_⟩
  dsimp only
  split
  · exact ⟨hpq.next, h⟩
  · exact hpq

/-- Two values are compiled side by side. -/
abbrev Alongside (m n : Nat) (a b : Lowering Term) : Prop :=
  Parallel (Progress.Shifted m n) (Term.Renumbered m n) a b

theorem results_alongside {operand : Value → Operand} {c c' : Scope} {face : Face}
    {run run' : List Nat → Except Failure Value}
    (h : Renamed (Shifted m n) (.func face run) (.func face run'))
    (hresult : ∀ w, IsPart w (.func face run) → ∀ w', Renamed (Shifted m n) w w' →
      Alongside m n (lowerAt operand w 0 c) (lowerAt operand w' 0 c'))
    {count : Nat} {ps qs : List Nat} (hadmits : face.admits count = .ok ())
    (hps : Handed m n count ps qs) :
    Corresponds (fun v w => v.isNull = w.isNull ∧
      Alongside m n (lowerAt operand v 0 c) (lowerAt operand w 0 c')) (run ps) (run' qs) := by
  obtain ⟨a, b, hab, rfl, rfl⟩ := hps
  refine (h.results hadmits a b).results.mono fun v w hvw => ?_
  obtain ⟨hvw, hrun, -⟩ := hvw
  have hvw : Renamed (Shifted m n) v w := hvw.mono fun _ _ => hab.of_beside
  exact ⟨hvw.isNull_eq, hresult v (.result hrun) w hvw⟩

theorem leaf_alongside {operand : Value → Operand} {c c' : Scope} {v : Value} {depth : Int}
    (hplain : v.isContainer = false) (hlower : ∀ c, lowerAt operand v depth c =
      (checkLiteralDepth depth >>= fun _ => liftM (v.marshal 0))) :
    Alongside m n (lowerAt operand v depth c) (lowerAt operand v depth c') := by
  rw [hlower, hlower]
  exact (parallel_checkLiteralDepth depth).bind fun _ _ _ =>
    parallel_liftM ((simulation_shifted m n).marshal hplain)

section Carried

variable {operand : Value → Operand} (hoperand : ∀ v w, Renamed (Shifted m n) v w →
  ∀ c c' : Scope, c.Renamed (Shifted m n) c' →
    Alongside m n ((operand v).term c) ((operand w).term c'))

include hoperand

theorem implicitDatabase_alongside {c c' : Scope} (hc : c.Renamed (Shifted m n) c') :
    Alongside m n ((implicitDatabase c operand).term c) ((implicitDatabase c' operand).term c') := by
  have hnames : List.Forall₂ (fun o o' => Alongside m n (o.term c) (o'.term c'))
      (if c.database.isAbsent then [] else [operand c.database])
      (if c'.database.isAbsent then [] else [operand c'.database]) := by
    rw [hc.database.isAbsent_eq]
    split
    · exact .nil
    · exact .cons (hoperand _ _ hc.database c c' hc) .nil
  exact (parallel_mapM hnames).bind fun ts us hts =>
    parallel_pure ((simulation_shifted m n).operation (by decide) hts .nil)

theorem lowerVerb_alongside {c c' : Scope} (hc : c.Renamed (Shifted m n) c') {v : Verb}
    (hv : v ≠ .var) {args args' : List Value} (hargs : List.Forall₂ (Renamed (Shifted m n)) args args')
    (h : ∀ a, v.arrange args = .ok a → ∀ w ∈ a.positional ++ a.named.map (·.2),
      ∀ w', Renamed (Shifted m n) w w' →
        Alongside m n (lowerAt operand w 0 c) (lowerAt operand w' 0 c')) :
    Alongside m n (lowerVerb operand v (args.map (operandBy operand)) c)
      (lowerVerb operand v (args'.map (operandBy operand)) c') := by
  refine (simulation_shifted m n).lowerVerb hv ?_ ?_
  · refine ((Renamed.resemblance _).arrange hargs).results.mono fun a a' ha => ?_
    obtain ⟨ha, hok, -⟩ := ha
    obtain ⟨hpositional, hnamed⟩ := List.forall_mem_append.1 (h a hok)
    constructor
    · refine List.rel_append ?_ ?_
      · rw [ha.implicit]
        split
        · exact .cons (implicitDatabase_alongside hoperand hc) .nil
        · exact .nil
      · rw [List.forall₂_map_left_iff, List.forall₂_map_right_iff]
        exact ((List.forall₂_and_left _ _).2 ⟨hpositional, ha.positional⟩).imp
          fun w w' hw => hw.1 w' hw.2
    · exact ((List.forall₂_and_left _ _).2 ⟨List.forall_mem_map.1 hnamed, ha.named⟩).imp
        fun e f he => ⟨he.2.1, he.1 f.2 he.2.2⟩
  · exact scopeOptions_related (R := fun o o' => Alongside m n (o.term c) (o'.term c')) v
      (parallel_pure ((simulation_shifted m n).datum _)) (fun s => (hc.setting s).truthy_eq)
      fun s => hoperand _ _ (hc.setting s) c c' hc

theorem lowerNode_alongside {c c' : Scope} (hc : c.Renamed (Shifted m n) c') {op : Operator}
    (hop : op ≠ .verb .var) {args args' : List Value}
    (hhint : op = .func → args[1]? = args'[1]?)
    (hargs : List.Forall₂ (Renamed (Shifted m n)) args args')
    (hbelow : ∀ w, Value.Below w (.expr op args) → ∀ w', Renamed (Shifted m n) w w' →
      ∀ c c' : Scope, c.Renamed (Shifted m n) c' →
        Alongside m n (lowerAt operand w 0 c) (lowerAt operand w' 0 c')) :
    Alongside m n (lowerNode operand op (args.map (operandBy operand)) c)
      (lowerNode operand op (args'.map (operandBy operand)) c') := by
  have hpart (w : Value) (hw : w ∈ args) := hbelow w (.single (.argument hw))
  cases op with
  | literal =>
      cases hargs with
      | nil => exact parallel_throw _
      | cons hv _ => exact hpart _ List.mem_cons_self _ hv c c' hc
  | func =>
      cases hargs with
      | nil => exact parallel_throw _
      | @cons body body' rest rest' hbody hrest =>
          cases hrest with
          | nil => exact parallel_throw _
          | @cons hint hint' rest rest' _ _ =>
              obtain rfl : hint = hint' := Option.some.inj (hhint rfl)
              change Alongside m n ((operandBy operand body).asFunction hint c)
                ((operandBy operand body').asFunction hint c')
              cases happlied : body.isApplied with
              | true =>
                  cases body with
                  | func face run =>
                      have htype : face.isType = false := by simpa [isApplied] using happlied
                      cases hbody with
                      | atom h => cases h
                      | func hfail hrun =>
                          exact (simulation_shifted m n).asFunction_func htype hint
                            fun count ps qs hadmits hps => results_alongside (.func hfail hrun)
                              (fun w hw w' hw' => hbelow w
                                (.tail (.single hw) (.argument List.mem_cons_self)) w' hw' c c' hc)
                              hadmits hps
                  | _ => cases happlied
              | false =>
                  exact (simulation_shifted m n).asFunction_body happlied
                    (hbody.isApplied_eq ▸ happlied) hint
                    (hpart body List.mem_cons_self body' hbody c c' hc)
  | setting s =>
      cases hargs with
      | nil => exact parallel_throw _
      | @cons inner inner' rest rest' hinner hrest =>
          cases hrest with
          | nil => exact parallel_throw _
          | @cons value value' rest rest' hvalue hrest =>
              cases hrest with
              | nil =>
                  simp only [List.map_cons, List.map_nil, lowerNode_setting]
                  exact (parallel_noteSetting hvalue s).bind fun _ _ _ =>
                    hpart inner List.mem_cons_self inner' hinner _ _ (hc.set hvalue s)
              | cons _ hrest =>
                  have hlength := hrest.length_eq
                  simp only [lowerNode, List.map_cons, List.length_cons, List.length_map, hlength]
                  exact parallel_throw _
  | verb v =>
      refine lowerVerb_alongside hoperand hc (fun h => hop (congrArg _ h)) hargs fun a ha => ?_
      refine Verb.forall_of_arrange ha (fun w hw w' hww' => hbelow w hw w' hww' c c' hc) fun s w' h => ?_
      obtain rfl := h.eq_of_isAtom rfl
      exact leaf_alongside rfl fun _ => rfl

theorem lowerAt_alongside {c c' : Scope} (hc : c.Renamed (Shifted m n) c') {v w : Value}
    (h : Renamed (Shifted m n) v w) (depth : Int) :
    Alongside m n (lowerAt operand v depth c) (lowerAt operand w depth c') := by
  induction v using Value.induction generalizing w c c' depth with
  | step v ih =>
  have hpart (x : Value) (hx : IsPart x v) (y : Value) (hxy : Renamed (Shifted m n) x y)
      (depth : Int) := ih x (.single hx) hc hxy depth
  have sim := simulation_shifted m n
  have hchecked := parallel_checkLiteralDepth (P := Progress.Shifted m n) depth
  have hitems {items items' : List Value} (hw : ∀ x ∈ items, IsPart x v)
      (hitems : List.Forall₂ (Renamed (Shifted m n)) items items') :
      Alongside m n (lowerItems (itemParts operand items) (depth + 1) c)
        (lowerItems (itemParts operand items') (depth + 1) c') :=
    sim.lowerItems (((List.forall₂_and_left _ _).2 ⟨hw, hitems⟩).imp
      fun x y hxy => hpart x hxy.1 y hxy.2 _)
  have hentries {entries entries' : List (Value × Value)} (hw : ∀ e ∈ entries, IsPart e.2 v)
      (hentries : List.Forall₂ (fun e f => Renamed (Shifted m n) e.1 f.1 ∧
        Renamed (Shifted m n) e.2 f.2) entries entries') :
      Alongside m n (lowerEntries (entryParts operand entries) (depth + 1) c)
        (lowerEntries (entryParts operand entries') (depth + 1) c') := by
    refine sim.lowerEntries (((List.forall₂_and_left _ _).2 ⟨hw, hentries⟩).imp fun e f hef => ?_)
    refine ⟨?_, hpart e.2 hef.1 f.2 hef.2.2 _⟩
    rw [hef.2.1.literalKey_eq]
    unfold literalKey
    split
    · exact parallel_pure rfl
    · exact parallel_throw _
  cases h with
  | atom h =>
      cases v with
      | row => exact hchecked.bind fun _ _ _ => parallel_pure (sim.operation (by decide) .nil .nil)
      | list | tuple | dict | mapping | slice | tableSpec | set | expr | placeholder | func => cases h
      | _ => exact leaf_alongside rfl fun _ => rfl
  | placeholder h => exact hchecked.bind fun _ _ _ => parallel_pure (.reference h)
  | list hlength h =>
      exact hchecked.bind fun _ _ _ => hitems (fun _ => .item) (Renamed.items_of_zip hlength h)
  | tuple hlength h =>
      exact hchecked.bind fun _ _ _ => hitems (fun _ => .component) (Renamed.items_of_zip hlength h)
  | dict hlength hkey h =>
      exact hchecked.bind fun _ _ _ =>
        hentries (fun _ => .entry) (Renamed.entries_of_zip hlength hkey h)
  | mapping hlength hkey h =>
      exact hchecked.bind fun _ _ _ =>
        hentries (fun _ => .image) (Renamed.entries_of_zip hlength hkey h)
  | set | slice | tableSpec => exact hchecked.bind fun _ _ _ => parallel_throw _
  | @expr _ op args args' hop hhint hlength h =>
      refine hchecked.bind fun _ _ _ => ?_
      rw [operands_eq_map, operands_eq_map]
      exact lowerNode_alongside hoperand hc hop hhint (Renamed.items_of_zip hlength h)
        fun w hw w' hw' c c' hc => ih w hw hc hw' 0
  | @func _ face run run' hfail hrun =>
      refine hchecked.bind fun _ _ _ => ?_
      split
      · exact parallel_throw _
      · exact sim.lowerCallable face _ fun count ps qs hadmits hps =>
          parallel_lowerResult (results_alongside (.func hfail hrun)
            (fun x hx y hxy => hpart x hx y hxy 0) hadmits hps)

end Carried

theorem operandWithin_alongside (fuel : Nat) {v w : Value} (h : Renamed (Shifted m n) v w)
    {c c' : Scope} (hc : c.Renamed (Shifted m n) c') :
    Alongside m n ((operandWithin fuel v).term c) ((operandWithin fuel w).term c') := by
  induction fuel generalizing v w c c' with
  | zero => exact parallel_throw _
  | succ fuel ih => exact lowerAt_alongside (fun v w h c c' hc => ih h hc) hc h 0

end QueryDriver
