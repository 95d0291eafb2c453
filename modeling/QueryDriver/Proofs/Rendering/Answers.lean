import QueryDriver.Proofs.Builder.Built
import QueryDriver.Proofs.Lowering.Resemblance
import QueryDriver.Proofs.Rendering.Spelling

/-!
# What a phrase says about a value

The compiler asks a few questions about a value before it compiles it, or without compiling it at
all: whether it is nothing, whether it counts as true, whether it orders a sequence, whether it can
be a table, and how the arguments of an operation are arranged. A phrase that spells the value
answers them.
-/

namespace QueryDriver

namespace Phrase

def Head.isNull : Head → Bool
  | .null => true
  | _ => false

def isNull : Phrase → Bool
  | .lambda .. => false
  | .chain head links => links.isEmpty && head.isNull

def Head.isOrdering : Head → Bool
  | .call (.verb .asc) .. | .call (.verb .desc) .. => true
  | _ => false

def isOrdering : Phrase → Bool
  | .lambda .. => false
  | .chain head links => links.isEmpty && head.isOrdering

def Head.truthy : Head → Bool
  | .null => false
  | .bool b => b
  | .int n => n != 0
  | .quoted s => !s.isEmpty
  | .list items => !items.isEmpty
  | .dict entries => !entries.isEmpty
  | _ => true

def truthy : Phrase → Bool
  | .lambda .. => true
  | .chain head links => !links.isEmpty || head.truthy

def Head.notATable? : Head → Option String
  | .call .literal .. => some Operator.literal.label
  | .call (.verb .db) .. => some Verb.db.label
  | _ => none

/-- What the receiver of a table operation may not be, by what it is called. -/
def notATable? (head : Head) : List Link → Option String
  | [] => head.notATable?
  | .call (.setting _) .. :: links => notATable? head links
  | _ :: _ => none

end Phrase

namespace Value.Spells

variable {ρ : Nat → Nat → Prop} {v : Value} {φ : Phrase}

/-- A callable is spelled as a function. -/
theorem exists_lambda {hint : Value} {face : Face} {run : List Nat → Except Failure Value} {k : Int}
    (h : Spells (.function k) ρ (.expr .func [.func face run, hint]) φ) :
    ∃ names body, φ = .lambda names body := by
  cases h with
  | applied => exact ⟨_, _, rfl⟩
  | constant hbody => cases hbody

theorem isType_eq_false {hint : Value} {face : Face} {run : List Nat → Except Failure Value}
    {k : Int} (h : Spells (.function k) ρ (.expr .func [.func face run, hint]) φ) :
    face.isType = false := by
  cases h with
  | applied _ _ htype => exact htype
  | constant hbody => cases hbody

/-- Nothing but a callable is spelled as a function. -/
theorem of_lambda {names : List Nat} {body : Phrase} (h : Spells .value ρ v (.lambda names body)) :
    ∃ face run j, (v = .func face run ∧ j = -1 ∨ v = .expr .func [.func face run, .int j]) ∧
      Spells (.function (-1)) ρ (.expr .func [.func face run, .int j]) (.lambda names body) := by
  cases h with
  | callable h => exact ⟨_, _, _, .inl ⟨rfl, rfl⟩, h⟩
  | wrapped h => exact ⟨_, _, _, .inr rfl, h⟩

theorem isFunction_of_lambda {names : List Nat} {body : Phrase}
    (h : Spells .value ρ v (.lambda names body)) : v.isFunction = true := by
  obtain ⟨face, run, j, ⟨rfl, -⟩ | rfl, -⟩ := h.of_lambda <;> rfl

theorem isFunction_eq_false {head : Phrase.Head} {links : List Phrase.Link}
    (h : Spells .value ρ v (.chain head links)) : v.isFunction = false := by
  cases h with
  | callable h | wrapped h =>
      obtain ⟨names, body, hφ⟩ := h.exists_lambda
      cases hφ
  | _ => rfl

theorem isAbsent_eq_false {slot : Slot} (h : Spells slot ρ v φ) : v.isAbsent = false := by
  induction h with
  | ordered _ _ ih => exact ih
  | _ => rfl

theorem isNull_eq (h : Spells .value ρ v φ) : v.isNull = φ.isNull := by
  cases h with
  | callable h | wrapped h =>
      obtain ⟨names, body, rfl⟩ := h.exists_lambda
      rfl
  | _ => rfl

theorem truthy_eq (h : Spells .value ρ v φ) : v.truthy = φ.truthy := by
  have hempty {α β : Type} {xs : List α} {ys : List β} (hlength : xs.length = ys.length) :
      (!xs.isEmpty) = !ys.isEmpty := by
    cases xs <;> cases ys <;> first | rfl | cases hlength
  cases h with
  | callable h | wrapped h =>
      obtain ⟨names, body, rfl⟩ := h.exists_lambda
      rfl
  | list hlength => exact hempty hlength
  | dict hkeys => exact hempty (by simpa using congrArg List.length hkeys)
  | _ => rfl

theorem isOrdering_eq (h : Spells .value ρ v φ) : v.isOrdering = φ.isOrdering := by
  cases h with
  | callable h | wrapped h =>
      obtain ⟨names, body, rfl⟩ := h.exists_lambda
      rfl
  | @method _ v _ _ _ _ _ _ _ halone => cases v <;> first | rfl | cases halone
  | @function _ v => cases v <;> rfl
  | _ => rfl

/-- A function to order by is not spelled as an ordering. -/
theorem isOrdering_key {body hint : Value} {k : Int}
    (h : Spells (.function k) ρ (.expr .func [body, hint]) φ) (hbody : body.isOrdering = false) :
    φ.isOrdering = false := by
  cases h with
  | applied => rfl
  | constant _ h => rw [← h.isOrdering_eq, hbody]

theorem notATable_eq {slot : Slot} {head : Phrase.Head} {links : List Phrase.Link}
    (h : Spells slot ρ v φ) (hslot : slot = .value) (hφ : φ = .chain head links)
    (hexpr : v.isExpr = true) (hlaid : v.LaidOut) :
    QueryDriver.notATable? v = .ok (Phrase.notATable? head links) := by
  induction h generalizing head links with
  | callable | null | bool | int | text | list | dict | spec => cases hexpr
  | applied | constant | ordered | key => cases hslot
  | wrapped h =>
      obtain ⟨names, body, rfl⟩ := h.exists_lambda
      cases hφ
  | setting _ _ _ _ ih | returnValues _ ih =>
      cases hφ
      obtain ⟨inner, value, hargs, hexpr, -⟩ := hlaid.self _ _ rfl
      cases hargs
      have hinner := ih rfl rfl hexpr (hlaid.part (.argument List.mem_cons_self))
      exact hinner
  | @method _ v _ _ _ _ _ _ hcall halone =>
      cases hφ
      cases v <;> first | rfl | cases halone
  | @function _ v =>
      cases hφ
      cases v <;> rfl
  | _ =>
      cases hφ
      rfl

end Value.Spells

/-! ### Arrangements -/

namespace Verb

variable {v : Verb} {args : List Value}

theorem arrange_of_splits {front positional : List Value} {named fields : List (String × Value)}
    (hoption : v.splitOption args = .ok (front, named))
    (hspec : v.splitSpec front = .ok (positional, fields)) :
    v.arrange args = (v.checkReceiver args).map fun _ =>
      ⟨v.afterDatabase? = some front.length, Value.given positional, named ++ fields⟩ := by
  unfold arrange
  rw [hoption]
  cases v.checkReceiver args with
  | error f => rfl
  | ok u =>
      change (v.splitSpec front >>= fun split => _) = _
      rw [hspec]
      rfl

/-- An operation that has no use for a database has its arguments sorted as they are written: those
that are sent by position, and then one that is sent as an option. -/
theorem arrange_written (hfits : v.Fits args) (hdatabase : v.afterDatabase? = none) :
    ∃ front behind, Value.given args = front ++ behind ∧ behind.length = (v.trails args).toNat ∧
      v.arrange args = (v.checkReceiver args).map fun _ =>
        ⟨false, front, behind.map fun w => ((Operator.verb v).keyword, w)⟩ := by
  have hspec (args : List Value) : v.splitSpec args = .ok (args, []) :=
    if_neg fun hv => by rw [hv] at hdatabase; cases hdatabase
  have hnone (count : Nat) : decide (v.afterDatabase? = some count) = false := by
    rw [hdatabase]
    rfl
  cases hname : v.trailing? with
  | none =>
      have hsplit : v.splitOption args = .ok (args, []) := by rw [splitOption, hname]
      refine ⟨Value.given args, [], (List.append_nil _).symm, by rw [trails, hname]; rfl, ?_⟩
      rw [arrange_of_splits hsplit (hspec args), hnone]
      rfl
  | some name =>
      obtain ⟨front, last, rfl, -⟩ := hfits.trailing (by rw [hname]; rfl)
      have hkeyword : (Operator.verb v).keyword = name := by
        rw [Operator.keyword, hname, Option.getD_some]
      have hsplit : v.splitOption (front ++ [last]) =
          .ok (front, if last.isAbsent then [] else [(name, last)]) := by
        simp [splitOption, hname]
      rw [arrange_of_splits hsplit (hspec front), hnone, hkeyword, List.append_nil]
      cases habsent : last.isAbsent with
      | true => exact ⟨Value.given front, [], by simp [Value.given, habsent],
          by simp [trails, habsent], rfl⟩
      | false => exact ⟨Value.given front, [last], by simp [Value.given, habsent],
          by simp [trails, hname, habsent], rfl⟩

section Database

variable {count : Nat} (hcount : v.afterDatabase? = some count)

include hcount

theorem splitOption_database : v.splitOption args = .ok (args, []) := by
  cases v <;> first | rfl | cases hcount

theorem checkReceiver_database : v.checkReceiver args = .ok () := by
  cases v <;> first | rfl | cases hcount

/-- The arguments of an operation that needs a database are all there. -/
theorem arrange_database (hwhole : ∀ w ∈ args, w.isAbsent = false) (hv : v ≠ .tableCreate) :
    v.arrange args = .ok ⟨count = args.length, args, []⟩ := by
  have hspec : v.splitSpec args = .ok (args, []) := if_neg hv
  rw [arrange_of_splits (splitOption_database hcount) hspec, checkReceiver_database hcount,
    Value.given_eq_self hwhole]
  simp [Except.map, hcount]

end Database

/-- The name of a table that is to be created is sent by position. -/
theorem arrange_tableCreate {front : List Value} {name durability : String} {p d c : Value}
    (hwhole : ∀ w ∈ front, w.isAbsent = false) :
    tableCreate.arrange (front ++ [.tableSpec name p d c durability]) =
      .ok ⟨1 = front.length + 1, front ++ [.text name],
        (Value.tableSpec name p d c durability).tableFields⟩ := by
  have hgiven : Value.given (front ++ [Value.text name]) = front ++ [.text name] := by
    refine Value.given_eq_self fun w hw => ?_
    obtain hw | hw := List.mem_append.1 hw
    · exact hwhole w hw
    · rw [List.mem_singleton.1 hw]
      rfl
  have hcount : tableCreate.afterDatabase? = some 1 := rfl
  rw [arrange_of_splits (splitOption_database hcount) (splitSpec_append_singleton _ _), hgiven,
    checkReceiver_database hcount, hcount]
  simp [Except.map]

end Verb

end QueryDriver
