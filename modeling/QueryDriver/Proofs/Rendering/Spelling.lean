import QueryDriver.Proofs.Rendering.Phrase
import QueryDriver.Proofs.Value.Renaming

/-!
# What a phrase is written for

`Spells slot ρ v φ` says that the phrase `φ` is written for the value `v` where a builder expects
what `slot` says. The relation follows the value and says nothing of how a text is made, nor of
the order in which numbers are handed out: the numbers of the placeholders in the value and the
numbers that are written for them are related by `ρ`. A callable is spelled by a phrase for a
function if the body of that phrase spells all its results, whatever numbers it is called with;
so another numbering spells the same (`Value.Spells.renamed`).

A node for a function cannot be seen in a text. So it is spelled where an operator expects one,
with the number of parameters that the operator passes, and elsewhere for a callable that may
have any number of them; and it is never a receiver, whose phrase is a chain.
-/

namespace QueryDriver

/-- What an operator expects of an argument. -/
inductive Slot where
  | value
  | function (parameters : Int)
  | ordering
deriving DecidableEq

namespace Verb

/-- What an operation expects of each of its arguments, the receiver being the first. -/
def slot : Verb → Nat → Slot
  | .map, 1 | .filter, 1 | .concatMap, 1 | .forEach, 1 | .indexesOf, 1 | .update, 1
  | .replace, 1 => .function 1
  | .reduce, 1 => .function 2
  | .groupedMapReduce, 1 | .groupedMapReduce, 2 => .function 1
  | .groupedMapReduce, 3 => .function 2
  | .innerJoin, 2 | .outerJoin, 2 => .function 2
  | .indexCreate, 2 => .function 1
  | .asc, 0 | .desc, 0 => .function 1
  | .orderBy, _ + 1 => .ordering
  | .call, 0 => .function (-1)
  | _, _ => .value

/-- An operation that is written as a call with its arguments as they stand. -/
def isCall : Verb → Bool
  | .implicitVar | .var | .field | .call => false
  | _ => true

/-- The last argument is written by its name. -/
def trails (v : Verb) (args : List Value) : Bool :=
  v.trailing?.isSome && args.getLast?.any fun w => !w.isAbsent

end Verb

theorem Setting.Admits.isAtom {s : Setting} {v : Value} (h : s.Admits v) : v.isAtom = true := by
  obtain ⟨b, rfl⟩ | ⟨t, rfl⟩ := h.bool_or_text <;> rfl

namespace Value

/-- The arguments that were not left out. -/
def given (args : List Value) : List Value := args.filter fun w => !w.isAbsent

theorem given_eq_self {args : List Value} (h : ∀ w ∈ args, w.isAbsent = false) :
    given args = args :=
  List.filter_eq_self.2 fun w hw => by rw [h w hw, Bool.not_false]

theorem given_cons {w : Value} (h : w.isAbsent = false) (args : List Value) :
    given (w :: args) = w :: given args := by
  rw [given, List.filter_cons, h]
  rfl

/-- A callable, or a node for a function. -/
def isFunction : Value → Bool
  | .func .. | .expr .func _ => true
  | _ => false

/-- Numbers from `first` on beside the names that are written for them, and what was named
before. -/
def Named (first : Nat) (names : List Nat) (ρ : Nat → Nat → Prop) (a n : Nat) : Prop :=
  (a, n) ∈ (List.range' first names.length).zip names ∨ ρ a n

/-- A callable of `count` parameters is compiled under the hint `j` as it is where `k` of them are
passed: both agree with it, or both are the same. -/
def Takes (k j : Int) (count : Nat) : Prop :=
  j = k ∨ (k = -1 ∨ k = count) ∧ (j = -1 ∨ j = count)

theorem Takes.agrees {k j : Int} {count : Nat} (h : Takes k j count) (hk : k = -1 ∨ k = count) :
    j = -1 ∨ j = count := by
  obtain rfl | ⟨-, hj⟩ := h
  · exact hk
  · exact hj

theorem Takes.eq_of_not {k j : Int} {count : Nat} (h : Takes k j count)
    (hk : ¬(k = -1 ∨ k = count)) : j = k := by
  obtain h | ⟨h, -⟩ := h
  · exact h
  · exact absurd h hk

/-- In the slot, and with the placeholders written as `ρ` says, the phrase is written for the
value. -/
inductive Spells : Slot → (Nat → Nat → Prop) → Value → Phrase → Prop where
  | null {ρ : Nat → Nat → Prop} : Spells .value ρ .null (.chain .null [])
  | bool {ρ : Nat → Nat → Prop} (b : Bool) : Spells .value ρ (.bool b) (.chain (.bool b) [])
  | int {ρ : Nat → Nat → Prop} (n : Int) : Spells .value ρ (.int n) (.chain (.int n) [])
  | text {ρ : Nat → Nat → Prop} (s : String) : Spells .value ρ (.text s) (.chain (.quoted s) [])
  | row {ρ : Nat → Nat → Prop} : Spells .value ρ .row (.chain .row [])
  | placeholder {ρ : Nat → Nat → Prop} {a n : Nat} (h : ρ a n) :
      Spells .value ρ (.placeholder a) (.chain (.var n) [])
  | list {ρ : Nat → Nat → Prop} {items : List Value} {φs : List Phrase}
      (hlength : items.length = φs.length)
      (h : ∀ (i : Nat) v φ, items[i]? = some v → φs[i]? = some φ → Spells .value ρ v φ) :
      Spells .value ρ (.list items) (.chain (.list φs) [])
  | dict {ρ : Nat → Nat → Prop} {entries : List (Value × Value)} {es : List (String × Phrase)}
      (hkeys : entries.map (·.1) = es.map fun e => .text e.1)
      (h : ∀ (i : Nat) e f, entries[i]? = some e → es[i]? = some f → Spells .value ρ e.2 f.2) :
      Spells .value ρ (.dict entries) (.chain (.dict es) [])
  | spec {ρ : Nat → Nat → Prop} {name durability : String} {p d c : Value} {φp φd φc : Phrase}
      (hp : Spells .value ρ p φp) (hd : Spells .value ρ d φd) (hc : Spells .value ρ c φc) :
      Spells .value ρ (.tableSpec name p d c durability)
        (.chain (.spec name φp φd φc durability) [])
  | applied {ρ : Nat → Nat → Prop} {k j : Int} {face : Face} {run : List Nat → Except Failure Value}
      {names : List Nat} {body : Phrase} (hj : -1 ≤ j) (htakes : Takes k j names.length)
      (htype : face.isType = false) (hcount : face.placeholders (.int j) = .ok names.length)
      (hadmits : face.admits names.length = .ok ()) (hnames : names.Nodup)
      (hfresh : ∀ a n, ρ a n → n ∉ names)
      (hrun : ∀ first, ∃ v, run (List.range' first names.length) = .ok v)
      (h : ∀ first v, run (List.range' first names.length) = .ok v →
        Spells .value (Named first names ρ) v body) :
      Spells (.function k) ρ (.expr .func [.func face run, .int j]) (.lambda names body)
  | constant {ρ : Nat → Nat → Prop} {k : Int} {body : Value} {φ : Phrase}
      (hbody : body.isFunction = false) (h : Spells .value ρ body φ) :
      Spells (.function k) ρ (.expr .func [body, .int k]) φ
  | callable {ρ : Nat → Nat → Prop} {face : Face} {run : List Nat → Except Failure Value}
      {φ : Phrase} (h : Spells (.function (-1)) ρ (.expr .func [.func face run, .int (-1)]) φ) :
      Spells .value ρ (.func face run) φ
  | wrapped {ρ : Nat → Nat → Prop} {j : Int} {face : Face} {run : List Nat → Except Failure Value}
      {φ : Phrase} (h : Spells (.function (-1)) ρ (.expr .func [.func face run, .int j]) φ) :
      Spells .value ρ (.expr .func [.func face run, .int j]) φ
  | ordered {ρ : Nat → Nat → Prop} {v : Value} {φ : Phrase} (hv : v.isOrdering = true)
      (h : Spells .value ρ v φ) : Spells .ordering ρ v φ
  | key {ρ : Nat → Nat → Prop} {j : Int} {body : Value} {φ : Phrase}
      (hbody : body.isOrdering = false) (h : Spells (.function 1) ρ (.expr .func [body, .int j]) φ) :
      Spells .ordering ρ (.expr .func [body, .int j]) φ
  | literal {ρ : Nat → Nat → Prop} {v : Value} {φ : Phrase} (h : Spells .value ρ v φ) :
      Spells .value ρ (.expr .literal [v]) (.chain (.call .literal [φ] []) [])
  | setting {ρ : Nat → Nat → Prop} {s : Setting} {inner value : Value} {head : Phrase.Head}
      {links : List Phrase.Link} {φ : Phrase} (hs : s ≠ .returnValues) (hadmits : s.Admits value)
      (hinner : Spells .value ρ inner (.chain head links)) (hvalue : Spells .value ρ value φ) :
      Spells .value ρ (.expr (.setting s) [inner, value])
        (.chain head (.call (.setting s) [φ] [] :: links))
  | returnValues {ρ : Nat → Nat → Prop} {inner : Value} {head : Phrase.Head}
      {links : List Phrase.Link} (hinner : Spells .value ρ inner (.chain head links)) :
      Spells .value ρ (.expr (.setting .returnValues) [inner, .bool true])
        (.chain head (.call (.setting .returnValues) [] [] :: links))
  | field {ρ : Nat → Nat → Prop} {receiver : Value} {name : String} {head : Phrase.Head}
      {links : List Phrase.Link} (h : Spells .value ρ receiver (.chain head links)) :
      Spells .value ρ (.expr (.verb .field) [receiver, .text name])
        (.chain head (.field name :: links))
  | callBehind {ρ : Nat → Nat → Prop} {function operand : Value} {head : Phrase.Head}
      {links : List Phrase.Link} {φ : Phrase} (hexpr : operand.isExpr = true)
      (hoperand : Spells .value ρ operand (.chain head links))
      (hfunction : Spells (.function (-1)) ρ function φ) :
      Spells .value ρ (.expr (.verb .call) [function, operand])
        (.chain head (.call (.verb .call) [φ] [] :: links))
  | callOf {ρ : Nat → Nat → Prop} {function : Value} {operands : List Value} {φs : List Phrase}
      {φ : Phrase} (hform : ∀ w, operands = [w] → w.isExpr = false)
      (hlength : operands.length = φs.length)
      (h : ∀ (i : Nat) v φ, operands[i]? = some v → φs[i]? = some φ → Spells .value ρ v φ)
      (hfunction : Spells (.function (-1)) ρ function φ) :
      Spells .value ρ (.expr (.verb .call) (function :: operands))
        (.chain (.call (.verb .call) (φs ++ [φ]) []) [])
  | method {ρ : Nat → Nat → Prop} {v : Verb} {receiver : Value} {others : List Value}
      {head : Phrase.Head} {links : List Phrase.Link} {φs ψs : List Phrase}
      (hcall : v.isCall = true) (halone : v.standsAlone = false) (hexpr : receiver.isExpr = true)
      (hreceiver : Spells .value ρ receiver (.chain head links))
      (hwhole : v.afterDatabase?.isSome = true → ∀ w ∈ others, w.isAbsent = false)
      (htrails : ψs.length = (v.trails others).toNat)
      (hlength : (given others).length = (φs ++ ψs).length)
      (h : ∀ (i : Nat) w φ, (given others)[i]? = some w → (φs ++ ψs)[i]? = some φ →
        Spells (v.slot (i + 1)) ρ w φ) :
      Spells .value ρ (.expr (.verb v) (receiver :: others))
        (.chain head (.call (.verb v) φs ψs :: links))
  | function {ρ : Nat → Nat → Prop} {v : Verb} {args : List Value} {φs ψs : List Phrase}
      (hcall : v.isCall = true)
      (hform : v.standsAlone = true ∨ ∀ w ∈ args.head?, w.isExpr = false)
      (hwhole : v.afterDatabase?.isSome = true → ∀ w ∈ args, w.isAbsent = false)
      (htrails : ψs.length = (v.trails args).toNat)
      (hlength : (given args).length = (φs ++ ψs).length)
      (h : ∀ (i : Nat) w φ, (given args)[i]? = some w → (φs ++ ψs)[i]? = some φ →
        Spells (v.slot i) ρ w φ) :
      Spells .value ρ (.expr (.verb v) args) (.chain (.call (.verb v) φs ψs) [])

theorem getElem?_of_forall₂ {α β : Type} {R : α → β → Prop} {xs : List α} {ys : List β}
    (h : List.Forall₂ R xs ys) {i : Nat} {y : β} (hy : ys[i]? = some y) :
    ∃ x, xs[i]? = some x ∧ R x y := by
  induction h generalizing i with
  | nil => cases hy
  | @cons a b _ _ hab _ ih =>
      cases i with
      | zero =>
          cases hy
          exact ⟨a, rfl, hab⟩
      | succ i => exact ih hy

/-- What is beside each other when a run of numbers is beside a list. -/
theorem mem_zip_range' {first count : Nat} {ys : List Nat} {a y : Nat} :
    (a, y) ∈ (List.range' first count).zip ys ↔
      ∃ i < count, a = first + i ∧ ys[i]? = some y := by
  have hrange (i : Nat) : (List.range' first count)[i]? = some a ↔ i < count ∧ a = first + i := by
    rw [List.getElem?_eq_some_iff]
    simp [eq_comm]
  simp only [List.mem_iff_getElem?, List.getElem?_zip_eq_some, hrange, and_assoc]

/-- Numbers that `τ` puts in the place of others are written as those are. -/
structure Compatible (τ ρ ρ' : Nat → Nat → Prop) : Prop where
  along (a b n : Nat) : τ a b → ρ a n → ρ' b n
  names (b n : Nat) : ρ' b n → ∃ a, ρ a n

/-- The numbers on the left are below a bound. -/
def Bounded (bound : Nat) (ρ : Nat → Nat → Prop) : Prop := ∀ a b, ρ a b → a < bound

theorem Bounded.mono {bound bound' : Nat} {ρ : Nat → Nat → Prop} (h : Bounded bound ρ)
    (hle : bound ≤ bound') : Bounded bound' ρ :=
  fun a b hab => (h a b hab).trans_le hle

theorem Bounded.named {bound : Nat} {ρ : Nat → Nat → Prop} (h : Bounded bound ρ)
    (names : List Nat) : Bounded (bound + names.length) (Named bound names ρ) := by
  rintro a n (han | han)
  · obtain ⟨i, hi, rfl, -⟩ := mem_zip_range'.1 han
    omega
  · exact (h a n han).trans_le (Nat.le_add_right _ _)

theorem Bounded.beside {bound : Nat} {τ : Nat → Nat → Prop} (h : Bounded bound τ)
    (first count : Nat) : Bounded (bound + count) (Beside bound first count τ) := by
  rintro a b (hab | hab)
  · have ha := List.mem_range'_1.1 (List.of_mem_zip hab).1
    omega
  · exact (h a b hab).trans_le (Nat.le_add_right _ _)

theorem Compatible.named {τ ρ ρ' : Nat → Nat → Prop} (h : Compatible τ ρ ρ') {bound : Nat}
    (hρ : Bounded bound ρ) (hτ : Bounded bound τ) (first : Nat) (names : List Nat) :
    Compatible (Beside bound first names.length τ) (Named bound names ρ) (Named first names ρ') := by
  constructor
  · rintro a b n (hab | hab) (han | han)
    · obtain ⟨i, -, rfl, hn⟩ := mem_zip_range'.1 han
      obtain ⟨j, hj, hij, hb⟩ := mem_zip_range'.1 hab
      obtain rfl : j = i := by omega
      obtain ⟨-, rfl⟩ : j < names.length ∧ b = first + j := by
        rw [List.getElem?_eq_some_iff] at hb
        simpa [eq_comm] using hb
      exact .inl (mem_zip_range'.2 ⟨j, hj, rfl, hn⟩)
    · have ha := List.mem_range'_1.1 (List.of_mem_zip hab).1
      exact absurd (hρ a n han) (by omega)
    · obtain ⟨i, -, rfl, -⟩ := mem_zip_range'.1 han
      exact absurd (hτ _ b hab) (by omega)
    · exact .inr (h.along a b n hab han)
  · rintro b n (hbn | hbn)
    · obtain ⟨i, hi, -, hn⟩ := mem_zip_range'.1 hbn
      exact ⟨bound + i, .inl (mem_zip_range'.2 ⟨i, hi, rfl, hn⟩)⟩
    · obtain ⟨a, ha⟩ := h.names b n hbn
      exact ⟨a, .inr ha⟩

namespace Renamed

variable {τ : Nat → Nat → Prop} {v w : Value}

theorem of_expr {op : Operator} {args : List Value} (h : Renamed τ (.expr op args) w) :
    ∃ args', w = .expr op args' ∧ List.Forall₂ (Renamed τ) args args' ∧
      (op = .func → args[1]? = args'[1]?) := by
  cases h with
  | atom h => cases h
  | expr _ hhint hlength h => exact ⟨_, rfl, items_of_zip hlength h, hhint⟩

theorem of_func {face : Face} {run : List Nat → Except Failure Value}
    (h : Renamed τ (.func face run) w) : ∃ run', w = .func face run' := by
  cases h with
  | atom h => cases h
  | func => exact ⟨_, rfl⟩

theorem of_pair {op : Operator} {x y : Value} (h : Renamed τ (.expr op [x, y]) w) :
    ∃ x' y', w = .expr op [x', y'] ∧ Renamed τ x x' ∧ Renamed τ y y' := by
  obtain ⟨args', rfl, hargs, -⟩ := h.of_expr
  cases hargs with
  | cons hx hrest =>
      cases hrest with
      | cons hy hnil =>
          cases hnil
          exact ⟨_, _, rfl, hx, hy⟩

/-- A node for a function of a number of parameters. -/
theorem of_function {body : Value} {k : Int} (h : Renamed τ (.expr .func [body, .int k]) w) :
    ∃ body', w = .expr .func [body', .int k] ∧ Renamed τ body body' := by
  obtain ⟨body', hint, rfl, hbody, hhint⟩ := h.of_pair
  obtain rfl := hhint.eq_of_isAtom rfl
  exact ⟨body', rfl, hbody⟩

theorem function {body body' : Value} (h : Renamed τ body body') (k : Int) :
    Renamed τ (.expr .func [body, .int k]) (.expr .func [body', .int k]) := by
  refine .expr (by decide) (fun _ => rfl) rfl ?_
  simp only [List.zip_cons_cons, List.zip_nil_right, List.forall_mem_cons]
  exact ⟨h, .atom rfl, List.forall_mem_nil _⟩

theorem isFunction_eq (h : Renamed τ v w) : v.isFunction = w.isFunction := by
  cases h with
  | @expr _ op => cases op <;> rfl
  | _ => rfl

theorem isOrdering_eq (h : Renamed τ v w) : v.isOrdering = w.isOrdering := by
  cases h with
  | @expr _ op =>
      cases op with
      | verb v => cases v <;> rfl
      | _ => rfl
  | _ => rfl

theorem forall_present {args args' : List Value} (h : List.Forall₂ (Renamed τ) args args')
    (hpresent : ∀ w ∈ args, w.isAbsent = false) : ∀ w ∈ args', w.isAbsent = false := by
  intro w hw
  obtain ⟨i, hw⟩ := List.mem_iff_getElem?.1 hw
  obtain ⟨v, hv, hvw⟩ := getElem?_of_forall₂ h hw
  rw [← hvw.isAbsent_eq]
  exact hpresent v (List.mem_of_getElem? hv)

theorem given {args args' : List Value} (h : List.Forall₂ (Renamed τ) args args') :
    List.Forall₂ (Renamed τ) (given args) (given args') :=
  forall₂_filter (fun v w hvw => by rw [hvw.isAbsent_eq]) h

theorem keys_eq {entries entries' : List (Value × Value)} {keys : List String}
    (hkeys : entries.map (·.1) = keys.map .text)
    (h : List.Forall₂ (fun e f => Renamed τ e.1 f.1) entries entries') :
    entries'.map (·.1) = keys.map .text := by
  induction h generalizing keys with
  | nil => exact hkeys
  | cons hkey _ ih =>
      cases keys with
      | nil => cases hkeys
      | cons key keys =>
          rw [List.map_cons, List.map_cons, List.cons.injEq] at hkeys
          rw [hkeys.1] at hkey
          rw [List.map_cons, List.map_cons, ih hkeys.2, ← hkey.eq_of_isAtom rfl]

theorem trails_eq {args args' : List Value} (h : List.Forall₂ (Renamed τ) args args') (v : Verb) :
    v.trails args = v.trails args' := by
  have hlast : (args.getLast?.any fun w => !w.isAbsent) =
      args'.getLast?.any fun w => !w.isAbsent := by
    cases args using List.reverseRecOn with
    | nil => cases h; rfl
    | append_singleton front last =>
        obtain ⟨front', last', rfl, -, hlast⟩ := forall₂_append_singleton h
        simp [hlast.isAbsent_eq]
  rw [Verb.trails, Verb.trails, hlast]

end Renamed

/-- Other numbers for the placeholders are written in the same way. -/
theorem Spells.renamed {slot : Slot} {ρ : Nat → Nat → Prop} {v : Value} {φ : Phrase}
    (h : Spells slot ρ v φ) {τ ρ' : Nat → Nat → Prop} {w : Value} (hvw : Renamed τ v w)
    (hcompatible : Compatible τ ρ ρ') (hbounded : ∃ bound, Bounded bound ρ ∧ Bounded bound τ) :
    Spells slot ρ' w φ := by
  induction h generalizing τ ρ' w with
  | null | bool | int | text | row =>
      obtain rfl := hvw.eq_of_isAtom rfl
      constructor
  | placeholder h =>
      cases hvw with
      | atom h => cases h
      | placeholder hab => exact .placeholder (hcompatible.along _ _ _ hab h)
  | list hlength _ ih =>
      cases hvw with
      | atom h => cases h
      | list hlength' h =>
          have hitems := Renamed.items_of_zip hlength' h
          refine .list (hlength' ▸ hlength) fun i w φ hw hφ => ?_
          obtain ⟨v, hv, hvw⟩ := getElem?_of_forall₂ hitems hw
          exact ih i v φ hv hφ hvw hcompatible hbounded
  | @dict ρ entries es hkeys _ ih =>
      have hkeys : entries.map (·.1) = (es.map (·.1)).map .text := by
        rw [hkeys, List.map_map]
        rfl
      cases hvw with
      | atom h => cases h
      | dict hlength hkey h =>
          have hentries := Renamed.entries_of_zip hlength hkey h
          refine .dict ?_ fun i f e hf he => ?_
          · rw [Renamed.keys_eq hkeys (hentries.imp fun _ _ h => h.1), List.map_map]
            rfl
          · obtain ⟨e', he', -, hvalue⟩ := getElem?_of_forall₂ hentries hf
            exact ih i e' e he' he hvalue hcompatible hbounded
  | spec _ _ _ ihp ihd ihc =>
      cases hvw with
      | atom h => cases h
      | tableSpec hp hd hc =>
          exact .spec (ihp hp hcompatible hbounded) (ihd hd hcompatible hbounded)
            (ihc hc hcompatible hbounded)
  | @applied ρ k j face run names body hj htakes htype hcount hadmits hnames hfresh hrun _ ih =>
      obtain ⟨function, rfl, hfunction⟩ := hvw.of_function
      obtain ⟨run', rfl⟩ := hfunction.of_func
      obtain ⟨bound, hρ, hτ⟩ := hbounded
      refine .applied hj htakes htype hcount hadmits hnames (fun b n hbn => ?_)
        (fun first => ?_) fun first w hw => ?_
      · obtain ⟨a, han⟩ := hcompatible.names b n hbn
        exact hfresh a n han
      · obtain ⟨v, hv⟩ := hrun first
        have hresults := hfunction.results hadmits first first
        rw [hv] at hresults
        generalize run' (List.range' first names.length) = result at hresults ⊢
        cases hresults with
        | ok _ => exact ⟨_, rfl⟩
      · obtain ⟨v, hv⟩ := hrun bound
        have hresults := hfunction.results hadmits bound first
        rw [hv, hw] at hresults
        cases hresults with
        | ok hvw =>
            exact ih bound v hv hvw (hcompatible.named hρ hτ first names)
              ⟨_, hρ.named names, hτ.beside first _⟩
  | constant hbody _ ih =>
      obtain ⟨body', rfl, hbody'⟩ := hvw.of_function
      exact .constant (hbody'.isFunction_eq ▸ hbody) (ih hbody' hcompatible hbounded)
  | callable _ ih =>
      obtain ⟨run', rfl⟩ := hvw.of_func
      exact .callable (ih (hvw.function _) hcompatible hbounded)
  | wrapped _ ih =>
      obtain ⟨function, rfl, hfunction⟩ := hvw.of_function
      obtain ⟨run', rfl⟩ := hfunction.of_func
      exact .wrapped (ih hvw hcompatible hbounded)
  | ordered hv _ ih => exact .ordered (hvw.isOrdering_eq ▸ hv) (ih hvw hcompatible hbounded)
  | key hbody _ ih =>
      obtain ⟨body', rfl, hbody'⟩ := hvw.of_function
      exact .key (hbody'.isOrdering_eq ▸ hbody) (ih hvw hcompatible hbounded)
  | literal _ ih =>
      obtain ⟨args', rfl, hargs, -⟩ := hvw.of_expr
      cases hargs with
      | cons h hnil =>
          cases hnil
          exact .literal (ih h hcompatible hbounded)
  | setting hs hadmits _ _ ihinner ihvalue =>
      obtain ⟨inner, value, rfl, hinner, hvalue⟩ := hvw.of_pair
      have hvw := hvalue.eq_of_isAtom hadmits.isAtom
      exact .setting hs (hvw ▸ hadmits) (ihinner hinner hcompatible hbounded)
        (ihvalue hvalue hcompatible hbounded)
  | returnValues _ ih =>
      obtain ⟨inner, value, rfl, hinner, hvalue⟩ := hvw.of_pair
      obtain rfl := hvalue.eq_of_isAtom rfl
      exact .returnValues (ih hinner hcompatible hbounded)
  | field _ ih =>
      obtain ⟨receiver, name, rfl, hreceiver, hname⟩ := hvw.of_pair
      obtain rfl := hname.eq_of_isAtom rfl
      exact .field (ih hreceiver hcompatible hbounded)
  | callBehind hexpr _ _ ihoperand ihfunction =>
      obtain ⟨function, operand, rfl, hfunction, hoperand⟩ := hvw.of_pair
      exact .callBehind (hoperand.isExpr_eq ▸ hexpr) (ihoperand hoperand hcompatible hbounded)
        (ihfunction hfunction hcompatible hbounded)
  | callOf hform hlength _ _ ih ihfunction =>
      obtain ⟨args', rfl, hargs, -⟩ := hvw.of_expr
      cases hargs with
      | cons hfunction hoperands =>
          refine .callOf ?_ (hoperands.length_eq ▸ hlength) (fun i w φ hw hφ => ?_)
            (ihfunction hfunction hcompatible hbounded)
          · rintro w rfl
            obtain ⟨v, rest, hoperand, hnil, rfl⟩ := List.forall₂_cons_right_iff.1 hoperands
            cases hnil
            rw [← hoperand.isExpr_eq]
            exact hform v rfl
          · obtain ⟨v, hv, hvw⟩ := getElem?_of_forall₂ hoperands hw
            exact ih i v φ hv hφ hvw hcompatible hbounded
  | method hcall halone hexpr _ hwhole htrails hlength _ ihreceiver ih =>
      obtain ⟨args', rfl, hargs, -⟩ := hvw.of_expr
      cases hargs with
      | cons hreceiver hothers =>
          refine .method hcall halone (hreceiver.isExpr_eq ▸ hexpr)
            (ihreceiver hreceiver hcompatible hbounded)
            (fun hv => Renamed.forall_present hothers (hwhole hv))
            (Renamed.trails_eq hothers _ ▸ htrails)
            ((Renamed.given hothers).length_eq ▸ hlength) fun i w φ hw hφ => ?_
          obtain ⟨v, hv, hvw⟩ := getElem?_of_forall₂ (Renamed.given hothers) hw
          exact ih i v φ hv hφ hvw hcompatible hbounded
  | function hcall hform hwhole htrails hlength _ ih =>
      obtain ⟨args', rfl, hargs, -⟩ := hvw.of_expr
      refine .function hcall (hform.imp_right fun hform => ?_)
        (fun hv => Renamed.forall_present hargs (hwhole hv)) (Renamed.trails_eq hargs _ ▸ htrails)
        ((Renamed.given hargs).length_eq ▸ hlength) fun i w φ hw hφ => ?_
      · cases hargs with
        | nil => exact hform
        | cons h _ => simpa [h.isExpr_eq] using hform
      · obtain ⟨v, hv, hvw⟩ := getElem?_of_forall₂ (Renamed.given hargs) hw
        exact ih i v φ hv hφ hvw hcompatible hbounded

end Value

end QueryDriver
