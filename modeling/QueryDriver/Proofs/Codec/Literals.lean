import QueryDriver.Proofs.Codec.RoundTrip
import QueryDriver.Proofs.Lowering.Derivation

/-!
# Literals and the encoder

The compiler walks through the containers of a literal itself, with its own count of depth, and
hands every leaf to the encoder, which begins to count anew. For a literal without expressions
and callables this is an outcome that neither the scope nor the progress of the compilation has
a part in.

The two counts agree on every leaf but one: a moment becomes an object, whose entries lie one
level deeper than the moment. The encoder has no room for them where the moment lies under as
many containers as there may be; the compiler, which forgot how deep it is, does not notice.
-/

namespace QueryDriver

open Wire

variable {α β : Type} {depth : Int}

namespace Value

/-- What the compiler's own check of a depth comes to. -/
def literalDepth (depth : Int) : Except Failure Unit :=
  if depth > literalLimit then .error (.ofCause (.literalTooDeep literalLimit)) else .ok ()

theorem checkLiteralDepth_bind (o : Except Failure α) :
    (checkLiteralDepth depth >>= fun _ => liftM o : Lowering α) =
      liftM (literalDepth depth >>= fun _ => o) := by
  unfold checkLiteralDepth literalDepth
  split <;> rfl

/-- Both count to the same limit. -/
theorem literalDepth_bind_eq_ok {f : Unit → Except Failure α} {y : α} :
    literalDepth depth >>= f = .ok y ↔ depth ≤ depthLimit ∧ f () = .ok y := by
  have hlimit : depthLimit = (literalLimit : Int) := rfl
  unfold literalDepth
  split
  next hdeep => exact ⟨nofun, fun h => absurd h.1 (by omega)⟩
  next hroom => exact ⟨fun h => ⟨by omega, h⟩, And.right⟩

/-- The value is no expression and does not become a function by being called. -/
def IsData (v : Value) : Prop := v.isExpr = false ∧ v.isApplied = false

/-- `Under n w v` says that `w` lies in `v` under `n` containers. -/
inductive Under : Nat → Value → Value → Prop where
  | here {v : Value} : Under 0 v v
  | inside {n : Nat} {v w x : Value} (hcontainer : v.isContainer = true) (hpart : IsPart x v)
      (h : Under n w x) : Under (n + 1) w v

/-- No moment lies as deep as anything may lie, the count beginning with the depth. -/
def Roomy (depth : Int) (v : Value) : Prop :=
  ∀ n m, Under n (.moment m) v → depth + n ≠ depthLimit

theorem roomy_of_plain {v : Value} (hplain : v.isContainer = false)
    (hmoment : ∀ m, v ≠ .moment m) : v.Roomy depth := by
  intro n m h
  cases h with
  | here => exact absurd rfl (hmoment m)
  | inside hcontainer => exact absurd hcontainer (by simp [hplain])

theorem roomy_moment {m : Moment} : (Value.moment m).Roomy depth ↔ depth ≠ depthLimit := by
  constructor
  · intro h
    simpa using h 0 m .here
  · intro hdepth n m' h
    cases h with
    | here => simpa using hdepth
    | inside hcontainer => cases hcontainer

theorem roomy_container {v : Value} (hcontainer : v.isContainer = true) :
    v.Roomy depth ↔ ∀ w, IsPart w v → w.Roomy (depth + 1) := by
  constructor
  · intro h w hw n m hunder
    have := h (n + 1) m (.inside hcontainer hw hunder)
    omega
  · intro h n m hunder
    cases hunder with
    | here => cases hcontainer
    | @inside n _ _ w _ hw hunder =>
        have := h w hw n m hunder
        omega

/-- Compiling the value at a depth is one outcome under every scope, and the encoder has the
same success wherever there is room for the moments. -/
def Encodes (depth : Int) (v : Value) : Prop :=
  ∃ o : Except Failure Term, (∀ operand scope, lowerAt operand v depth scope = liftM o) ∧
    ∀ t, v.marshal depth = .ok t ↔ o = .ok t ∧ v.Roomy depth

/-- The key of an entry of a literal as an outcome. -/
def literalKey? : Value → Except Failure String
  | .text s => .ok s
  | key => .error (.ofCause (.literalKeyNotText key.typeName))

theorem literalKey_eq (key : Value) : literalKey key = liftM (literalKey? key) := by
  cases key <;> rfl

theorem literalKey?_eq_ok_iff {k : Value} {key : String} :
    literalKey? k = .ok key ↔ k = .text key := by
  cases k <;> simp [literalKey?]

theorem encodes_items {items : List Value} (h : ∀ v ∈ items, v.Encodes depth) :
    ∃ o : Except Failure (List Term),
      (∀ operand scope, ((itemParts operand items).mapM fun p => p depth scope) = liftM o) ∧
      ∀ ts, marshalItems items depth = .ok ts ↔ o = .ok ts ∧ ∀ v ∈ items, v.Roomy depth := by
  induction items with
  | nil => exact ⟨.ok [], fun _ _ => rfl, fun ts => by simp [marshalItems]⟩
  | cons v vs ih =>
      obtain ⟨hv, hvs⟩ := List.forall_mem_cons.1 h
      obtain ⟨o, hlower, hmarshal⟩ := hv
      obtain ⟨os, hlowers, hmarshals⟩ := ih hvs
      refine ⟨o >>= fun t => os.map (t :: ·), fun operand scope => ?_, fun ts => ?_⟩
      · rw [itemParts, List.mapM_cons, hlower, hlowers, ← liftM_bind_liftM]
        simp only [liftM_bind_pure]
      · simp only [marshalItems, bind_eq_ok_iff, map_eq_ok_iff, hmarshal, hmarshals,
          List.forall_mem_cons]
        constructor
        · rintro ⟨t, ⟨ht, hroom⟩, ts, ⟨hts, hrooms⟩, h⟩
          cases h
          exact ⟨⟨t, ht, ts, hts, rfl⟩, hroom, hrooms⟩
        · rintro ⟨⟨t, ht, ts, hts, rfl⟩, hroom, hrooms⟩
          exact ⟨t, ⟨ht, hroom⟩, ts, ⟨hts, hrooms⟩, rfl⟩

theorem encodes_entries {entries : List (Value × Value)} (h : ∀ e ∈ entries, e.2.Encodes depth) :
    ∃ o : Except Failure (List (String × Term)),
      (∀ operand scope, ((entryParts operand entries).mapM fun p => do
          let key ← literalKey p.1
          let t ← p.2 depth scope
          return (key, t)) = liftM o) ∧
      ∀ ts, marshalEntries entries depth = .ok ts ↔
        o = .ok ts ∧ ∀ e ∈ entries, e.2.Roomy depth := by
  induction entries with
  | nil => exact ⟨.ok [], fun _ _ => rfl, fun ts => by simp [marshalEntries]⟩
  | cons e es ih =>
      obtain ⟨k, v⟩ := e
      obtain ⟨hv, hes⟩ := List.forall_mem_cons.1 h
      obtain ⟨o, hlower, hmarshal⟩ : v.Encodes depth := hv
      obtain ⟨os, hlowers, hmarshals⟩ := ih hes
      refine ⟨(literalKey? k >>= fun key => o.map (key, ·)) >>= fun e => os.map (e :: ·),
        fun operand scope => ?_, fun ts => ?_⟩
      · rw [entryParts, List.mapM_cons, hlowers]
        simp only [hlower, literalKey_eq, liftM_bind_pure, liftM_bind_liftM]
      · simp only [marshalEntries, bind_eq_ok_iff, map_eq_ok_iff, hmarshal, hmarshals,
          literalKey?_eq_ok_iff, textKey_eq_ok_iff, List.forall_mem_cons]
        constructor
        · rintro ⟨key, hkey, t, ⟨ht, hroom⟩, ts, ⟨hts, hrooms⟩, h⟩
          cases h
          exact ⟨⟨_, ⟨key, hkey, t, ht, rfl⟩, ts, hts, rfl⟩, hroom, hrooms⟩
        · rintro ⟨⟨_, ⟨key, hkey, t, ht, rfl⟩, ts, hts, rfl⟩, hroom, hrooms⟩
          exact ⟨key, hkey, t, ⟨ht, hroom⟩, ts, ⟨hts, hrooms⟩, rfl⟩

section Kinds

variable {v : Value}

theorem encodes_leaf (hplain : v.isContainer = false) (hmoment : ∀ m, v ≠ .moment m)
    {leaf : Except Failure Term}
    (hmarshal : ∀ depth, v.marshal depth = (checkDepth depth >>= fun _ => leaf))
    (hlower : ∀ operand scope, lowerAt operand v depth scope =
      (checkLiteralDepth depth >>= fun _ => liftM (v.marshal 0))) : v.Encodes depth := by
  refine ⟨literalDepth depth >>= fun _ => v.marshal 0, fun operand scope => ?_, fun t => ?_⟩
  · rw [hlower, checkLiteralDepth_bind]
  · have hzero : v.marshal 0 = leaf := hmarshal 0
    rw [hmarshal, checkDepth_bind_eq_ok, literalDepth_bind_eq_ok, hzero]
    exact (and_iff_left (roomy_of_plain hplain hmoment)).symm

/-- The entries of the object for a moment need one more level. -/
theorem marshal_moment_eq_ok {m : Moment} {t : Term} :
    (Value.moment m).marshal depth = .ok t ↔ depth < depthLimit ∧
      ∃ entries, timeEntries m = .ok entries ∧
        Term.makeObject (entries.map fun e => (e.1, Term.ofDatum e.2)) = t := by
  have hmarshal : (Value.moment m).marshal depth = (checkDepth depth >>= fun _ =>
      timeEntries m >>= fun entries => checkDepth (depth + 1) >>= fun _ =>
        .ok (Term.makeObject (entries.map fun e => (e.1, Term.ofDatum e.2)))) := by
    rw [marshal, timeEntriesAt, bind_assoc]
    simp only [bind_assoc]
    rfl
  rw [hmarshal, checkDepth_bind_eq_ok, bind_eq_ok_iff]
  simp only [checkDepth_bind_eq_ok, Except.ok.injEq]
  constructor
  · rintro ⟨-, entries, hentries, hroom, ht⟩
    exact ⟨by omega, entries, hentries, ht⟩
  · rintro ⟨hroom, entries, hentries, ht⟩
    exact ⟨by omega, entries, hentries, by omega, ht⟩

theorem encodes_moment (m : Moment) : (Value.moment m).Encodes depth := by
  refine ⟨literalDepth depth >>= fun _ => (Value.moment m).marshal 0, fun operand scope => ?_,
    fun t => ?_⟩
  · rw [lowerAt, checkLiteralDepth_bind] <;> simp
  · have hlimit : depthLimit = 20 := rfl
    rw [literalDepth_bind_eq_ok, roomy_moment, marshal_moment_eq_ok, marshal_moment_eq_ok]
    constructor
    · rintro ⟨hdepth, hentries⟩
      exact ⟨⟨by omega, by omega, hentries⟩, by omega⟩
    · rintro ⟨⟨hdepth, -, hentries⟩, hne⟩
      exact ⟨by omega, hentries⟩

theorem encodes_array {items : List Value} (hcontainer : v.isContainer = true)
    (hparts : ∀ w, IsPart w v ↔ w ∈ items) (hitems : ∀ w ∈ items, w.Encodes (depth + 1))
    (hmarshal : v.marshal depth = (checkDepth depth >>= fun _ =>
      (marshalItems items (depth + 1)).map Term.makeArray))
    (hlower : ∀ operand scope, lowerAt operand v depth scope =
      (checkLiteralDepth depth >>= fun _ =>
        lowerItems (itemParts operand items) (depth + 1) scope)) : v.Encodes depth := by
  obtain ⟨os, hlowers, hmarshals⟩ := encodes_items hitems
  refine ⟨literalDepth depth >>= fun _ => os.map Term.makeArray, fun operand scope => ?_,
    fun t => ?_⟩
  · rw [hlower, lowerItems, hlowers, liftM_bind_pure, checkLiteralDepth_bind]
  · simp only [hmarshal, roomy_container hcontainer, hparts, checkDepth_bind_eq_ok,
      literalDepth_bind_eq_ok, map_eq_ok_iff, hmarshals]
    constructor
    · rintro ⟨hdepth, ts, ⟨hts, hrooms⟩, rfl⟩
      exact ⟨⟨hdepth, ts, hts, rfl⟩, hrooms⟩
    · rintro ⟨⟨hdepth, ts, hts, rfl⟩, hrooms⟩
      exact ⟨hdepth, ts, ⟨hts, hrooms⟩, rfl⟩

theorem encodes_object {entries : List (Value × Value)} (hcontainer : v.isContainer = true)
    (hparts : ∀ w, IsPart w v ↔ ∃ e ∈ entries, e.2 = w)
    (hentries : ∀ e ∈ entries, e.2.Encodes (depth + 1))
    (hmarshal : v.marshal depth = (checkDepth depth >>= fun _ =>
      (marshalEntries entries (depth + 1)).map Term.makeObject))
    (hlower : ∀ operand scope, lowerAt operand v depth scope =
      (checkLiteralDepth depth >>= fun _ =>
        lowerEntries (entryParts operand entries) (depth + 1) scope)) : v.Encodes depth := by
  obtain ⟨os, hlowers, hmarshals⟩ := encodes_entries hentries
  refine ⟨literalDepth depth >>= fun _ => os.map Term.makeObject, fun operand scope => ?_,
    fun t => ?_⟩
  · rw [hlower, lowerEntries, hlowers, liftM_bind_pure, checkLiteralDepth_bind]
  · simp only [hmarshal, roomy_container hcontainer, hparts, checkDepth_bind_eq_ok,
      literalDepth_bind_eq_ok, map_eq_ok_iff, hmarshals]
    constructor
    · rintro ⟨hdepth, ts, ⟨hts, hrooms⟩, rfl⟩
      refine ⟨⟨hdepth, ts, hts, rfl⟩, ?_⟩
      rintro _ ⟨e, he, rfl⟩
      exact hrooms e he
    · rintro ⟨⟨hdepth, ts, hts, rfl⟩, hrooms⟩
      exact ⟨hdepth, ts, ⟨hts, fun e he => hrooms e.2 ⟨e, he, rfl⟩⟩, rfl⟩

end Kinds

theorem encodes {v : Value} (h : v.Throughout IsData) (depth : Int) : v.Encodes depth := by
  induction v using Value.induction generalizing depth with
  | step v ih =>
      replace ih : ∀ w, IsPart w v → w.Encodes (depth + 1) :=
        fun w hw => ih w (.single hw) (h.part hw) _
      cases v with
      | list items =>
          exact encodes_array rfl (fun _ => isPart_list) (fun w hw => ih w (.item hw)) rfl
            fun _ _ => rfl
      | tuple items =>
          exact encodes_array rfl (fun _ => isPart_tuple) (fun w hw => ih w (.component hw)) rfl
            fun _ _ => rfl
      | dict entries =>
          exact encodes_object rfl (fun _ => isPart_dict) (fun e he => ih e.2 (.entry he)) rfl
            fun _ _ => rfl
      | mapping entries =>
          exact encodes_object rfl (fun _ => isPart_mapping) (fun e he => ih e.2 (.image he)) rfl
            fun _ _ => rfl
      | moment m => exact encodes_moment m
      | expr | row | placeholder => exact absurd h.self.1 Bool.noConfusion
      | func face run =>
          have htype : face.isType = true := by simpa [isApplied] using h.self.2
          refine encodes_leaf rfl (fun _ h => by cases h) (fun _ => rfl) fun operand scope => ?_
          rw [lowerAt, if_pos htype]
          rfl
      | _ => exact encodes_leaf rfl (fun _ h => by cases h) (fun _ => rfl) fun _ _ => rfl

/-- A literal without expressions and callables compiles to one outcome under every scope, and
it compiles as the encoder encodes it unless a moment in it lies under as many containers as
there may be. Such a literal the encoder refuses. -/
theorem marshal_iff_lowerLiteral {v : Value} (h : v.Throughout IsData) :
    ∃ o : Except Failure Term, (∀ scope, v.lowerLiteral 0 scope = liftM o) ∧
      ∀ t, v.marshal 0 = .ok t ↔ o = .ok t ∧ ∀ m, ¬ Under literalLimit (.moment m) v := by
  obtain ⟨o, hlower, hmarshal⟩ := encodes h 0
  refine ⟨o, fun scope => hlower _ scope, fun t => (hmarshal t).trans (and_congr_right fun _ => ?_)⟩
  constructor
  · intro hroomy m hunder
    exact hroomy _ m hunder rfl
  · intro hnone n m hunder hdepth
    have hn : n = literalLimit := by
      have hlimit : depthLimit = (literalLimit : Int) := rfl
      omega
    exact hnone m (hn ▸ hunder)

/-- Lists around a value. -/
def nested : Nat → Value → Value
  | 0, v => v
  | n + 1, v => .list [nested n v]

theorem throughout_nested {P : Value → Prop} (hlist : ∀ v, P (.list [v])) {v : Value}
    (h : v.Throughout P) (n : Nat) : (nested n v).Throughout P := by
  induction n with
  | zero => exact h
  | succ n ih =>
      refine .of_parts (hlist _) fun w hw => ?_
      cases hw with
      | item hw =>
          obtain rfl := List.mem_singleton.1 hw
          exact ih

theorem under_nested (v : Value) (n : Nat) : Under n v (nested n v) := by
  induction n with
  | zero => exact .here
  | succ n ih => exact .inside rfl (.item List.mem_cons_self) ih

/-- The last instant of a day that is not in every year. -/
def leapMoment : Moment := ⟨2020, 2, 29, 23, 59, 59, 0, .fixed ⟨-19800000000⟩⟩

theorem throughout_leapMoment (n : Nat) :
    (nested n (.moment leapMoment)).Throughout IsData :=
  throughout_nested (fun _ => ⟨rfl, rfl⟩) (.of_parts ⟨rfl, rfl⟩ (forall_isPart_leaf rfl)) n

/-- A moment under nineteen lists is compiled as it is encoded; under twenty lists it is compiled
and not encoded. -/
theorem lowerLiteral_nested_leapMoment :
    (∃ t, (nested 19 (.moment leapMoment)).marshal 0 = .ok t ∧
      ∀ scope, (nested 19 (.moment leapMoment)).lowerLiteral 0 scope = pure t) ∧
    (∃ t, ∀ scope, (nested 20 (.moment leapMoment)).lowerLiteral 0 scope = pure t) ∧
      ∀ t, (nested 20 (.moment leapMoment)).marshal 0 ≠ .ok t := by
  obtain ⟨o, hlower, hmarshal⟩ := marshal_iff_lowerLiteral (throughout_leapMoment 19)
  obtain ⟨o', hlower', hmarshal'⟩ := marshal_iff_lowerLiteral (throughout_leapMoment 20)
  have hok : ((nested 19 (.moment leapMoment)).marshal 0).isOk = true := by decide +kernel
  refine ⟨?_, ?_, fun t ht => ((hmarshal' t).1 ht).2 leapMoment (under_nested _ 20)⟩
  · cases ht : (nested 19 (.moment leapMoment)).marshal 0 with
    | error e =>
        rw [ht] at hok
        cases hok
    | ok t =>
        obtain rfl := ((hmarshal t).1 ht).1
        exact ⟨t, rfl, hlower⟩
  · have hok' : (((nested 20 (.moment leapMoment)).lowerLiteral 0 .initial).run
        ⟨0, 0, .text ""⟩).1.isOk = true := by decide +kernel
    cases o' with
    | error e =>
        rw [hlower'] at hok'
        cases hok'
    | ok t => exact ⟨t, hlower'⟩

end Value

end QueryDriver
