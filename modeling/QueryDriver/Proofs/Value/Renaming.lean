import QueryDriver.Proofs.Lowering.Resemblance

/-!
# Values up to the numbers of variables

A callable is handed numbers for its parameters, and which numbers these are depends on how many
were handed out before. `Renamed ρ v w` says that two values differ in nothing but the numbers of
placeholders, numbers that `ρ` relates standing at the same places. For callables it says so of
what they return: whatever numbers the two are handed, their results are the same up to those
numbers. Numbers of parameters that a node prescribes have to be the same.

A value is `Uniform` if it is related to itself without any number being related. Then its
placeholders are parameters of callables in it, and its callables make no use of the numbers but
to hand them on.
-/

namespace QueryDriver.Value

/-- A value without parts and without a number. -/
def isAtom : Value → Bool
  | .null | .bool _ | .int _ | .double _ | .fraction .. | .text _ | .moment _ | .duration _
  | .absent | .bytes _ | .complex .. | .decimal _ | .operator _ | .object .. | .row => true
  | _ => false

/-- Two runs of numbers side by side, and what was related before. -/
def Beside (a b count : Nat) (ρ : Nat → Nat → Prop) (x y : Nat) : Prop :=
  (x, y) ∈ (List.range' a count).zip (List.range' b count) ∨ ρ x y

/-- Values that are the same up to numbers of placeholders. -/
inductive Renamed : (Nat → Nat → Prop) → Value → Value → Prop where
  | atom {ρ : Nat → Nat → Prop} {v : Value} (h : v.isAtom = true) : Renamed ρ v v
  | placeholder {ρ : Nat → Nat → Prop} {a b : Nat} (h : ρ a b) :
      Renamed ρ (.placeholder a) (.placeholder b)
  | list {ρ : Nat → Nat → Prop} {items items' : List Value}
      (hlength : items.length = items'.length)
      (h : ∀ p ∈ items.zip items', Renamed ρ p.1 p.2) : Renamed ρ (.list items) (.list items')
  | tuple {ρ : Nat → Nat → Prop} {items items' : List Value}
      (hlength : items.length = items'.length)
      (h : ∀ p ∈ items.zip items', Renamed ρ p.1 p.2) : Renamed ρ (.tuple items) (.tuple items')
  | set {ρ : Nat → Nat → Prop} {items items' : List Value}
      (hlength : items.length = items'.length)
      (h : ∀ p ∈ items.zip items', Renamed ρ p.1 p.2) : Renamed ρ (.set items) (.set items')
  | dict {ρ : Nat → Nat → Prop} {entries entries' : List (Value × Value)}
      (hlength : entries.length = entries'.length)
      (hkey : ∀ p ∈ entries.zip entries', Renamed ρ p.1.1 p.2.1)
      (h : ∀ p ∈ entries.zip entries', Renamed ρ p.1.2 p.2.2) :
      Renamed ρ (.dict entries) (.dict entries')
  | mapping {ρ : Nat → Nat → Prop} {entries entries' : List (Value × Value)}
      (hlength : entries.length = entries'.length)
      (hkey : ∀ p ∈ entries.zip entries', Renamed ρ p.1.1 p.2.1)
      (h : ∀ p ∈ entries.zip entries', Renamed ρ p.1.2 p.2.2) :
      Renamed ρ (.mapping entries) (.mapping entries')
  | slice {ρ : Nat → Nat → Prop} {start stop step start' stop' step' : Value}
      (hstart : Renamed ρ start start') (hstop : Renamed ρ stop stop')
      (hstep : Renamed ρ step step') :
      Renamed ρ (.slice start stop step) (.slice start' stop' step')
  | tableSpec {ρ : Nat → Nat → Prop} {name durability : String} {p d c p' d' c' : Value}
      (hp : Renamed ρ p p') (hd : Renamed ρ d d') (hc : Renamed ρ c c') :
      Renamed ρ (.tableSpec name p d c durability) (.tableSpec name p' d' c' durability)
  | expr {ρ : Nat → Nat → Prop} {op : Operator} {args args' : List Value} (hop : op ≠ .verb .var)
      (hhint : op = .func → args[1]? = args'[1]?) (hlength : args.length = args'.length)
      (h : ∀ p ∈ args.zip args', Renamed ρ p.1 p.2) : Renamed ρ (.expr op args) (.expr op args')
  | func {ρ : Nat → Nat → Prop} {face : Face} {run run' : List Nat → Except Failure Value}
      (hfail : ∀ a b count f, face.admits count = .ok () →
        (run (List.range' a count) = .error f ↔ run' (List.range' b count) = .error f))
      (h : ∀ a b count v w, face.admits count = .ok () → run (List.range' a count) = .ok v →
        run' (List.range' b count) = .ok w → Renamed (Beside a b count ρ) v w) :
      Renamed ρ (.func face run) (.func face run')

/-- The value uses numbers of variables for nothing but the placeholders of its parameters. -/
def Uniform (v : Value) : Prop := Renamed (fun _ _ => False) v v

namespace Renamed

variable {ρ ρ' : Nat → Nat → Prop} {v w : Value}

theorem mono (h : Renamed ρ v w) (hρ : ∀ x y, ρ x y → ρ' x y) : Renamed ρ' v w := by
  induction h generalizing ρ' with
  | atom h => exact .atom h
  | placeholder h => exact .placeholder (hρ _ _ h)
  | list hlength _ ih => exact .list hlength fun p hp => ih p hp hρ
  | tuple hlength _ ih => exact .tuple hlength fun p hp => ih p hp hρ
  | set hlength _ ih => exact .set hlength fun p hp => ih p hp hρ
  | dict hlength _ _ ihkey ih =>
      exact .dict hlength (fun p hp => ihkey p hp hρ) fun p hp => ih p hp hρ
  | mapping hlength _ _ ihkey ih =>
      exact .mapping hlength (fun p hp => ihkey p hp hρ) fun p hp => ih p hp hρ
  | slice _ _ _ ihstart ihstop ihstep => exact .slice (ihstart hρ) (ihstop hρ) (ihstep hρ)
  | tableSpec _ _ _ ihp ihd ihc => exact .tableSpec (ihp hρ) (ihd hρ) (ihc hρ)
  | expr hop hhint hlength _ ih => exact .expr hop hhint hlength fun p hp => ih p hp hρ
  | func hfail _ ih =>
      exact .func hfail fun a b count v w hadmits hv hw =>
        ih a b count v w hadmits hv hw fun x y hxy => hxy.imp_right (hρ x y)

/-! ### What a value is made of -/

theorem items_of_zip {R : Value → Value → Prop} {items items' : List Value}
    (hlength : items.length = items'.length) (h : ∀ p ∈ items.zip items', R p.1 p.2) :
    List.Forall₂ R items items' :=
  List.forall₂_iff_zip.2 ⟨hlength, fun hp => h _ hp⟩

theorem entries_of_zip {R S : Value → Value → Prop} {entries entries' : List (Value × Value)}
    (hlength : entries.length = entries'.length) (hkey : ∀ p ∈ entries.zip entries', R p.1.1 p.2.1)
    (h : ∀ p ∈ entries.zip entries', S p.1.2 p.2.2) :
    List.Forall₂ (fun e f => R e.1 f.1 ∧ S e.2 f.2) entries entries' :=
  List.forall₂_iff_zip.2 ⟨hlength, fun hp => ⟨hkey _ hp, h _ hp⟩⟩

/-- What two callables return for numbers side by side. -/
theorem results {face : Face} {run run' : List Nat → Except Failure Value}
    (h : Renamed ρ (.func face run) (.func face run')) {count : Nat}
    (hadmits : face.admits count = .ok ()) (a b : Nat) :
    Corresponds (Renamed (Beside a b count ρ)) (run (List.range' a count))
      (run' (List.range' b count)) := by
  cases h with
  | atom h => cases h
  | func hfail h =>
      cases hrun : run (List.range' a count) with
      | error f =>
          rw [(hfail a b count f hadmits).1 hrun]
          exact .error f
      | ok v =>
          cases hrun' : run' (List.range' b count) with
          | error f =>
              rw [(hfail a b count f hadmits).2 hrun'] at hrun
              cases hrun
          | ok w => exact .ok (h a b count v w hadmits hrun hrun')

/-! ### Questions with the same answer -/

theorem isExpr_eq (h : Renamed ρ v w) : v.isExpr = w.isExpr := by
  cases h <;> rfl

theorem isAbsent_eq (h : Renamed ρ v w) : v.isAbsent = w.isAbsent := by
  cases h <;> rfl

theorem isNull_eq (h : Renamed ρ v w) : v.isNull = w.isNull := by
  cases h <;> rfl

theorem isApplied_eq (h : Renamed ρ v w) : v.isApplied = w.isApplied := by
  cases h <;> rfl

theorem truthy_eq (h : Renamed ρ v w) : v.truthy = w.truthy := by
  have hempty {α : Type} {xs ys : List α} (hlength : xs.length = ys.length) :
      (!xs.isEmpty) = !ys.isEmpty := by
    cases xs <;> cases ys <;> first | rfl | cases hlength
  cases h with
  | list hlength | tuple hlength | set hlength | dict hlength | mapping hlength =>
      exact hempty hlength
  | _ => rfl

theorem literalKey_eq (h : Renamed ρ v w) : v.literalKey = w.literalKey := by
  cases h <;> rfl

theorem textKey_eq (h : Renamed ρ v w) : v.textKey = w.textKey := by
  cases h <;> rfl

/-- What is no text, number or container is not sent, whatever it is called; so numbers of
placeholders are not sent by the encoder. -/
theorem marshal_eq (h : Renamed ρ v w) (depth : Int) : v.marshal depth = w.marshal depth := by
  have hitems {items items' : List Value} (depth : Int)
      (h : List.Forall₂ (fun v w : Value => ∀ depth, v.marshal depth = w.marshal depth) items items') :
      marshalItems items depth = marshalItems items' depth := by
    induction h with
    | nil => rfl
    | cons h _ ih => rw [marshalItems, marshalItems, h, ih]
  have hentries {entries entries' : List (Value × Value)} (depth : Int)
      (h : List.Forall₂ (fun e f : Value × Value => e.1.textKey = f.1.textKey ∧
        ∀ depth, e.2.marshal depth = f.2.marshal depth) entries entries') :
      marshalEntries entries depth = marshalEntries entries' depth := by
    induction h with
    | nil => rfl
    | cons h _ ih => rw [marshalEntries, marshalEntries, h.1, h.2, ih]
  induction h generalizing depth with
  | list hlength _ ih | tuple hlength _ ih =>
      rw [marshal, marshal, hitems (depth + 1) (items_of_zip hlength ih)]
  | dict hlength hkey _ _ ih | mapping hlength hkey _ _ ih =>
      have h := entries_of_zip (R := fun k k' => k.textKey = k'.textKey)
        (S := fun v w => ∀ depth, v.marshal depth = w.marshal depth) hlength
        (fun p hp => (hkey p hp).textKey_eq) ih
      rw [marshal, marshal, hentries (depth + 1) h]
  | _ => rfl

/-- A value without parts and numbers has no other name. -/
theorem eq_of_isAtom (h : Renamed ρ v w) (hv : v.isAtom = true) : v = w := by
  cases h <;> first | rfl | cases hv

theorem notATable_eq (h : Renamed ρ v w) : notATable? v = notATable? w := by
  induction h with
  | @expr _ op args args' hop _ hlength _ ih =>
      cases op with
      | setting s =>
          cases args with
          | nil =>
              cases args' with
              | nil => rfl
              | cons => cases hlength
          | cons inner rest =>
              cases args' with
              | nil => cases hlength
              | cons inner' rest' => exact ih (inner, inner') List.mem_cons_self
      | literal | func => rfl
      | verb v => cases v <;> rfl
  | _ => rfl

theorem resemblance (ρ : Nat → Nat → Prop) : Resemblance (Renamed ρ) where
  absent := isAbsent_eq
  table := notATable_eq
  spec h := by cases h <;> rfl
  fields h := by
    cases h with
    | @tableSpec _ name durability p d c p' d' c' hp hd hc =>
        have htext : Renamed ρ (.text durability) (.text durability) := .atom rfl
        have hfields : List.Forall₂ (SameEntry (Renamed ρ))
            [("primary_key", p), ("datacenter", d), ("cache_size", c),
              ("durability", .text durability)]
            [("primary_key", p'), ("datacenter", d'), ("cache_size", c'),
              ("durability", .text durability)] :=
          .cons ⟨rfl, hp⟩ (.cons ⟨rfl, hd⟩ (.cons ⟨rfl, hc⟩ (.cons ⟨rfl, htext⟩ .nil)))
        exact forall₂_filter (fun e f hef => hef.2.truthy_eq) hfields
    | atom h =>
        rename_i v
        cases v <;> first | exact .nil | cases h
    | _ => exact .nil
  text s := .atom rfl

end Renamed

end QueryDriver.Value
