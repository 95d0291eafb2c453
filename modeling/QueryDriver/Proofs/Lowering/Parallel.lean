import QueryDriver.Proofs.Lowering.Setterless

/-!
# Two compilations side by side

Several statements about the compiler compare two compilations: of two values, in two scopes, or
from two states. `Parallel P R a b` says that two actions that begin in states related by `P` end
in such states, with the same failure or with results related by `R`.

The compiler is walked through once, for all such comparisons. A `Simulation` is what the relations
of states and of terms have to satisfy: what they make of the primitive steps and of the
constructors of terms. For every function of the compiler there is then one lemma, which takes
what is known of the parts to what is known of the whole.
-/

namespace QueryDriver

open Wire

variable {α β α' β' : Type}

/-- The same failure, or results that are related. -/
inductive Corresponds (R : α → β → Prop) : Except Failure α → Except Failure β → Prop where
  | ok {x : α} {y : β} (h : R x y) : Corresponds R (.ok x) (.ok y)
  | error (f : Failure) : Corresponds R (.error f) (.error f)

namespace Corresponds

variable {R : α → β → Prop} {S : α' → β' → Prop} {o : Except Failure α} {o' : Except Failure β}

theorem mono {Q : α → β → Prop} (h : Corresponds Q o o') (hQR : ∀ x y, Q x y → R x y) :
    Corresponds R o o' := by
  cases h with
  | ok h => exact .ok (hQR _ _ h)
  | error f => exact .error f

theorem bind {f : α → Except Failure α'} {g : β → Except Failure β'} (h : Corresponds R o o')
    (hf : ∀ x y, R x y → Corresponds S (f x) (g y)) : Corresponds S (o >>= f) (o' >>= g) := by
  cases h with
  | ok h => exact hf _ _ h
  | error f => exact .error f

theorem map_right {f : β → β'} {Q : α → β' → Prop} (h : Corresponds R o o')
    (hf : ∀ x y, R x y → Q x (f y)) : Corresponds Q o (o'.map f) := by
  cases h with
  | ok h => exact .ok (hf _ _ h)
  | error f => exact .error f

/-- What is related are results. -/
theorem results (h : Corresponds R o o') :
    Corresponds (fun x y => R x y ∧ o = .ok x ∧ o' = .ok y) o o' := by
  cases h with
  | ok h => exact .ok ⟨h, rfl, rfl⟩
  | error f => exact .error f

theorem refl {R : α → α → Prop} (h : ∀ x, R x x) (o : Except Failure α) : Corresponds R o o := by
  cases o with
  | ok x => exact .ok (h x)
  | error f => exact .error f

end Corresponds

theorem corresponds_eq_iff {o o' : Except Failure α} : Corresponds Eq o o' ↔ o = o' := by
  constructor
  · intro h
    cases h with
    | ok h => rw [h]
    | error f => rfl
  · rintro rfl
    exact .refl (fun _ => rfl) o

namespace Lowering

/-- From related states two actions end in related states, with the same failure or related
results. -/
def Parallel (P : Progress → Progress → Prop) (R : α → β → Prop) (a : Lowering α)
    (b : Lowering β) : Prop :=
  ∀ p q, P p q → Corresponds R (a.run p).1 (b.run q).1 ∧ P (a.run p).2 (b.run q).2

section Parallel

variable {P : Progress → Progress → Prop} {R : α → β → Prop} {S : α' → β' → Prop}

theorem Parallel.bind {a : Lowering α} {b : Lowering β} {f : α → Lowering α'}
    {g : β → Lowering β'} (h : Parallel P R a b)
    (hf : ∀ x y, R x y → Parallel P S (f x) (g y)) : Parallel P S (a >>= f) (b >>= g) := by
  intro p q hpq
  obtain ⟨hstep, hend⟩ := h p q hpq
  rw [run_bind, run_bind]
  revert hstep hend
  rcases a.run p with ⟨o, p'⟩
  rcases b.run q with ⟨o', q'⟩
  intro hstep hend
  cases hstep with
  | ok hxy => exact hf _ _ hxy _ _ hend
  | error f => exact ⟨.error f, hend⟩

theorem Parallel.mono {Q : α → β → Prop} {a : Lowering α} {b : Lowering β}
    (h : Parallel P Q a b) (hQR : ∀ x y, Q x y → R x y) : Parallel P R a b :=
  fun p q hpq => ⟨(h p q hpq).1.mono hQR, (h p q hpq).2⟩

theorem parallel_pure {x : α} {y : β} (h : R x y) : Parallel P R (pure x) (pure y) :=
  fun _ _ hpq => ⟨.ok h, hpq⟩

theorem parallel_throw (f : Failure) : Parallel P R (throw f) (throw f) :=
  fun _ _ hpq => ⟨.error f, hpq⟩

theorem parallel_liftM {o : Except Failure α} {o' : Except Failure β} (h : Corresponds R o o') :
    Parallel P R (liftM o) (liftM o') :=
  fun _ _ hpq => ⟨h, hpq⟩

theorem parallel_mapM {f : α → Lowering α'} {g : β → Lowering β'} {xs : List α} {ys : List β}
    (h : List.Forall₂ (fun x y => Parallel P S (f x) (g y)) xs ys) :
    Parallel P (List.Forall₂ S) (xs.mapM f) (ys.mapM g) := by
  induction h with
  | nil =>
      rw [List.mapM_nil, List.mapM_nil]
      exact parallel_pure .nil
  | cons hx _ ih =>
      rw [List.mapM_cons, List.mapM_cons]
      exact hx.bind fun _ _ hx => ih.bind fun _ _ hxs => parallel_pure (.cons hx hxs)

theorem parallel_refl (a : Lowering α) : Parallel Eq Eq a a := by
  rintro p _ rfl
  exact ⟨.refl (fun _ => rfl) _, rfl⟩

/-- Actions that are parallel from the same state to the same state are the same. -/
theorem Parallel.eq {a b : Lowering α} (h : Parallel Eq Eq a b) : a = b := by
  funext p
  obtain ⟨houtcome, hend⟩ := h p p rfl
  exact Prod.ext (corresponds_eq_iff.1 houtcome) hend

end Parallel

end Lowering

open Lowering

/-- Two options of the same name. -/
def SameOption (T : Term → Term → Prop) (o q : Option String × Option Term) : Prop :=
  ∃ name t u, o = (some name, some t) ∧ q = (some name, some u) ∧ T t u

/-- What relations of states, of the numbers of parameters and of terms have to satisfy for
compilations to run side by side. -/
structure Simulation (P : Progress → Progress → Prop) (N : Nat → List Nat → List Nat → Prop)
    (T : Term → Term → Prop) : Prop where
  take (count : Nat) : Parallel P (N count) (takeVariables count) (takeVariables count)
  call (face : Face) : Parallel P Eq (countCall face) (countCall face)
  datum (d : Datum) : T (Term.ofDatum d) (Term.ofDatum d)
  array {ts us : List Term} : List.Forall₂ T ts us → T (Term.makeArray ts) (Term.makeArray us)
  object {es fs : List (String × Term)} :
    List.Forall₂ (fun e f => e.1 = f.1 ∧ T e.2 f.2) es fs →
      T (Term.makeObject es) (Term.makeObject fs)
  function {count : Nat} {ps qs : List Nat} {t u : Term} :
    N count ps qs → T t u → T (functionTerm ps t) (functionTerm qs u)
  constant {t u : Term} : T t u → t.isConstant = u.isConstant
  operation {v : Verb} (hv : v ≠ .var) {ts us : List Term}
    {os qs : List (Option String × Option Term)} :
    List.Forall₂ T ts us → List.Forall₂ (SameOption T) os qs →
      T { Term.empty with tag := some v.code, args := ts, options := os }
        { Term.empty with tag := some v.code, args := us, options := qs }

/-- Terms that are the same are put together from the same parts. -/
theorem Simulation.of_eq {P : Progress → Progress → Prop}
    (take : ∀ count, Parallel P Eq (takeVariables count) (takeVariables count))
    (call : ∀ face, Parallel P Eq (countCall face) (countCall face)) :
    Simulation P (fun _ => Eq) Eq where
  take := take
  call := call
  datum _ := rfl
  array h := by rw [List.forall₂_eq_eq_eq] at h; rw [h]
  object {es fs} h := by
    have heq : List.Forall₂ Eq es fs := h.imp fun _ _ he => Prod.ext he.1 he.2
    rw [List.forall₂_eq_eq_eq] at heq
    rw [heq]
  function h ht := by rw [h, ht]
  constant h := by rw [h]
  operation {v} _ {ts us os qs} h ho := by
    have heq : List.Forall₂ Eq os qs := ho.imp fun _ _ ho => by
      obtain ⟨name, t, _, rfl, rfl, rfl⟩ := ho
      rfl
    rw [List.forall₂_eq_eq_eq] at h heq
    rw [h, heq]

section Steps

variable {P : Progress → Progress → Prop} {N : Nat → List Nat → List Nat → Prop}
  {T : Term → Term → Prop} {operand operand' : Value → Operand} {c c' : Scope}

theorem parallel_checkLiteralDepth (depth : Int) :
    Parallel P Eq (Value.checkLiteralDepth depth) (Value.checkLiteralDepth depth) := by
  unfold Value.checkLiteralDepth
  split
  · exact parallel_throw _
  · exact parallel_pure rfl

theorem parallel_lowerOptions {es fs : List (String × Operand)}
    (h : List.Forall₂ (fun e f => e.1 = f.1 ∧ Parallel P T (e.2.term c) (f.2.term c')) es fs) :
    Parallel P (List.Forall₂ (SameOption T)) (lowerOptions c es) (lowerOptions c' fs) := by
  refine parallel_mapM (h.imp ?_)
  rintro ⟨name, o⟩ ⟨_, o'⟩ ⟨rfl, ho⟩
  exact ho.bind fun t u htu => parallel_pure ⟨name, t, u, rfl, rfl, htu⟩

theorem parallel_lowerResult {result result' : Except Failure Value}
    (h : Corresponds (fun v w => v.isNull = w.isNull ∧
      Parallel P T (Value.lowerAt operand v 0 c) (Value.lowerAt operand' w 0 c')) result result') :
    Parallel P T (Value.lowerResult operand result c) (Value.lowerResult operand' result' c') := by
  cases h with
  | error f => exact parallel_throw f
  | @ok v w h =>
      rw [lowerResult_ok, lowerResult_ok, h.1]
      split
      · exact parallel_throw _
      · exact h.2

namespace Simulation

variable (sim : Simulation P N T)

include sim

/-- What is sent without being compiled is related to itself. -/
theorem marshal {v : Value} (hplain : v.isContainer = false) :
    Corresponds T (v.marshal 0) (v.marshal 0) := by
  cases h : v.marshal 0 with
  | error f => exact .error f
  | ok t =>
      refine .ok ?_
      unfold Value.marshal at h
      obtain ⟨-, -, h⟩ := bind_ok h
      split at h
      case h_1 m =>
        obtain ⟨entries, -, h⟩ := bind_ok h
        cases h
        refine sim.object ?_
        rw [List.forall₂_map_left_iff, List.forall₂_map_right_iff, List.forall₂_same]
        exact fun e _ => ⟨rfl, sim.datum e.2⟩
      case h_2 | h_3 | h_4 | h_5 => cases hplain
      case h_6 =>
        obtain ⟨d, -, h⟩ := bind_ok h
        cases d with
        | none => cases h
        | some d =>
            cases h
            exact sim.datum d

theorem lowerItems {items items' : List Value} {depth : Int}
    (h : List.Forall₂ (fun v w => Parallel P T (Value.lowerAt operand v depth c)
      (Value.lowerAt operand' w depth c')) items items') :
    Parallel P T (Value.lowerItems (Value.itemParts operand items) depth c)
      (Value.lowerItems (Value.itemParts operand' items') depth c') := by
  rw [Value.itemParts_eq_map, Value.itemParts_eq_map]
  refine (parallel_mapM (S := T) ?_).bind fun ts us hts => parallel_pure (sim.array hts)
  rw [List.forall₂_map_left_iff, List.forall₂_map_right_iff]
  exact h

theorem lowerEntries {entries entries' : List (Value × Value)} {depth : Int}
    (h : List.Forall₂ (fun e f => Parallel P Eq e.1.literalKey f.1.literalKey ∧
      Parallel P T (Value.lowerAt operand e.2 depth c) (Value.lowerAt operand' f.2 depth c'))
      entries entries') :
    Parallel P T (Value.lowerEntries (Value.entryParts operand entries) depth c)
      (Value.lowerEntries (Value.entryParts operand' entries') depth c') := by
  rw [Value.entryParts_eq_map, Value.entryParts_eq_map]
  refine (parallel_mapM (S := fun e f => e.1 = f.1 ∧ T e.2 f.2) ?_).bind
    fun es fs hes => parallel_pure (sim.object hes)
  rw [List.forall₂_map_left_iff, List.forall₂_map_right_iff]
  exact h.imp fun e f he => he.1.bind fun _ _ hkey =>
    he.2.bind fun _ _ ht => parallel_pure ⟨hkey, ht⟩

/-- The bodies have to be parallel only where the callable takes as many arguments. -/
theorem lowerCallable (face : Face) (hint : Value) {run run' : List Nat → Lowering Term}
    (h : ∀ count ps qs, face.admits count = .ok () → N count ps qs →
      Parallel P T (run ps) (run' qs)) :
    Parallel P T (lowerCallable face hint run) (lowerCallable face hint run') := by
  refine (parallel_liftM (.refl (fun _ => rfl) _)).bind fun count _ hcount => ?_
  subst hcount
  refine (sim.take count).bind fun ps qs hps => ?_
  cases hadmits : face.admits count with
  | error f => exact parallel_throw f
  | ok u =>
      refine (sim.call face).bind fun _ _ _ => ?_
      exact (h count ps qs hadmits hps).bind fun t u ht => parallel_pure (sim.function hps ht)

/-- A callable where a function is expected. -/
theorem asFunction_func {face : Face} {run run' : List Nat → Except Failure Value}
    (htype : face.isType = false) (hint : Value)
    (h : ∀ count ps qs, face.admits count = .ok () → N count ps qs →
      Corresponds (fun v w => v.isNull = w.isNull ∧
        Parallel P T (Value.lowerAt operand v 0 c) (Value.lowerAt operand' w 0 c'))
        (run ps) (run' qs)) :
    Parallel P T ((Value.operandBy operand (.func face run)).asFunction hint c)
      ((Value.operandBy operand' (.func face run')).asFunction hint c') := by
  rw [Value.asFunction_func htype, Value.asFunction_func htype]
  exact sim.lowerCallable face hint fun count ps qs hadmits hps =>
    parallel_lowerResult (h count ps qs hadmits hps)

/-- Any other value where a function is expected. -/
theorem asFunction_body {body body' : Value} (happlied : body.isApplied = false)
    (happlied' : body'.isApplied = false) (hint : Value)
    (h : Parallel P T (Value.lowerAt operand body 0 c) (Value.lowerAt operand' body' 0 c')) :
    Parallel P T ((Value.operandBy operand body).asFunction hint c)
      ((Value.operandBy operand' body').asFunction hint c') := by
  rw [Value.asFunction_eq happlied, Value.asFunction_eq happlied']
  refine h.bind fun t u htu => ?_
  rw [sim.constant htu]
  split
  · exact parallel_pure htu
  · cases hint.parameterCount with
    | error fault => exact parallel_throw _
    | ok count =>
        exact (sim.take count).bind fun ps qs hps => parallel_pure (sim.function hps htu)

/-- An operation whose arguments are arranged alike. -/
theorem lowerVerb {v : Verb} (hv : v ≠ .var) {args args' : List Value}
    (harranged : Corresponds (fun a a' =>
      List.Forall₂ (fun o o' => Parallel P T (o.term c) (o'.term c'))
        ((if a.implicit then [implicitDatabase c operand] else [])
          ++ a.positional.map (Value.operandBy operand))
        ((if a'.implicit then [implicitDatabase c' operand'] else [])
          ++ a'.positional.map (Value.operandBy operand')) ∧
      List.Forall₂ (fun e f => e.1 = f.1 ∧ Parallel P T (Value.lowerAt operand e.2 0 c)
        (Value.lowerAt operand' f.2 0 c')) a.named a'.named) (v.arrange args) (v.arrange args'))
    (hoptions : List.Forall₂ (fun e f => e.1 = f.1 ∧ Parallel P T (e.2.term c) (f.2.term c'))
      (scopeOptions v c operand) (scopeOptions v c' operand')) :
    Parallel P T (lowerVerb operand v (args.map (Value.operandBy operand)) c)
      (lowerVerb operand' v (args'.map (Value.operandBy operand')) c') := by
  rw [lowerVerb_eq, lowerVerb_eq]
  refine (parallel_liftM harranged).bind fun a a' ha => ?_
  refine (parallel_mapM (S := T) ha.1).bind fun ts us hts => ?_
  refine (parallel_lowerOptions (List.rel_append ?_ hoptions)).bind fun os qs hos =>
    parallel_pure (sim.operation hv hts hos)
  rw [List.forall₂_map_left_iff, List.forall₂_map_right_iff]
  exact ha.2

end Simulation

end Steps

end QueryDriver
