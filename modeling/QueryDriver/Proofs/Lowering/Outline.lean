import QueryDriver.Proofs.Lowering.Arrangement
import QueryDriver.Proofs.Value.Part

/-!
# Outlines

An outline is a term together with what the term itself does not show: the numbers of
variables as numbers, the value that a function was made of, and for every operation the
settings that enclose it. `Outline.term` forgets all that.

`Lowers c r v m o m'` says that `v`, under the settings `r` of an expression that is
compiled in the scope `c`, becomes `o`, and what the compilation has moved on from and to:
the number of the next variable, and the time format that was met first. The rules follow
the expression alone, and an option of an operation is read off the settings that enclose
it.
-/

namespace QueryDriver

open Wire

/-! ### Settings that enclose a place -/

/-- The settings on the path from a place to the root of the expression, the nearest one
first. -/
abbrev Trail := List (Setting × Value)

/-- The value of a setting: what the nearest setting of that name says, and what the scope
says where there is none. -/
def Trail.value (c : Scope) (r : Trail) (s : Setting) : Value :=
  match r.find? fun e => e.1 = s with
  | some e => e.2
  | none => c.get s

/-- The scope below settings. -/
def Scope.under (c : Scope) (r : Trail) : Scope := r.foldr (fun e scope => scope.set e.1 e.2) c

theorem Scope.under_cons (c : Scope) (s : Setting) (v : Value) (r : Trail) :
    c.under ((s, v) :: r) = (c.under r).set s v := rfl

@[simp] theorem Scope.under_database (c : Scope) (r : Trail) :
    (c.under r).database = c.database := by
  induction r with
  | nil => rfl
  | cons e r ih => rw [under_cons, set_database, ih]

theorem Scope.get_set_of_ne (c : Scope) {s s' : Setting} (v : Value) (h : s ≠ s') :
    (c.set s v).get s' = c.get s' := by
  cases s <;> cases s' <;> first | rfl | exact absurd rfl h

/-- What is sent for a setting depends on a switch only through its truth. -/
theorem Setting.option_get_set (c : Scope) (s : Setting) (v : Value) :
    s.option ((c.set s v).get s) = s.option v := by
  cases s <;> rfl

/-- The scope below settings knows as much of them as the options need. -/
theorem Setting.option_get_under (c : Scope) (r : Trail) (s : Setting) :
    s.option ((c.under r).get s) = s.option (r.value c s) := by
  induction r with
  | nil => rfl
  | cons e r ih =>
      obtain ⟨s', v⟩ := e
      rw [Scope.under_cons]
      by_cases h : s' = s
      · subst h
        simp [Trail.value, Setting.option_get_set]
      · rw [Scope.get_set_of_ne _ _ h, ih]
        simp [Trail.value, h]

theorem Verb.sent_get_under (c : Scope) (r : Trail) (v : Verb) :
    v.sent (c.under r).get = v.sent (r.value c) := by
  simp only [Verb.sent, Setting.option_get_under]

/-! ### Outlines and their terms -/

inductive Outline where
  | data (d : Datum)
  | array (items : List Outline)
  | object (entries : List (String × Outline))
  | reference (n : Nat)
  /-- A function with the value that it was made of. -/
  | function (source : Value) (params : List Nat) (body : Outline)
  /-- An operation, the options that its arguments are sent as, and those that the
  settings give it. -/
  | node (v : Verb) (trail : Trail) (args : List Outline) (own given : List (String × Outline))

namespace Outline

mutual

/-- The term of an outline. -/
def term : Outline → Term
  | .data d => Term.ofDatum d
  | .array items => Term.makeArray (terms items)
  | .object entries =>
    { Term.empty with tag := some TermType.makeObject.code, options := options entries }
  | .reference n => { Term.empty with tag := some Verb.var.code, args := [numberTerm n] }
  | .function _ params body => functionTerm params (term body)
  | .node v _ args own given =>
    { Term.empty with
      tag := some v.code, args := terms args, options := options own ++ options given }

def terms : List Outline → List Term
  | [] => []
  | o :: os => term o :: terms os

def options : List (String × Outline) → List (Option String × Option Term)
  | [] => []
  | (name, o) :: os => (some name, some (term o)) :: options os

end

theorem terms_eq_map (os : List Outline) : terms os = os.map term := by
  induction os with
  | nil => rfl
  | cons o os ih => rw [terms, ih, List.map_cons]

theorem options_eq_map (os : List (String × Outline)) :
    options os = os.map fun e => (some e.1, some (term e.2)) := by
  induction os with
  | nil => rfl
  | cons e os ih => rw [options, ih, List.map_cons]

theorem options_zip (names : List String) (os : List Outline) :
    options (names.zip os) = (names.zip (terms os)).map fun e => (some e.1, some e.2) := by
  rw [options_eq_map, terms_eq_map, List.zip_map_right, List.map_map]
  rfl

end Outline

/-! ### The rules -/

/-- What a compilation hands on from one part of an expression to the next. -/
structure Mark where
  /-- The number of the next variable. -/
  next : Nat
  /-- The time format that was met first. -/
  format : Value

namespace Mark

/-- Numbers have been handed out. -/
def skip (m : Mark) (count : Nat) : Mark := { m with next := m.next + count }

/-- A setting has been met. Only a time format is taken note of, and only while there is
none. -/
def note (m : Mark) (s : Setting) (v : Value) : Mark :=
  if s = .timeFormat ∧ m.format.truthy = false then { m with format := v } else m

@[simp] theorem note_next (m : Mark) (s : Setting) (v : Value) : (m.note s v).next = m.next := by
  unfold note
  split <;> rfl

end Mark

def Progress.mark (p : Progress) : Mark := ⟨p.next, p.timeFormat⟩

/-- A value that becomes a function by being called. -/
def Value.isApplied : Value → Bool
  | .func face _ => !face.isType
  | _ => false

/-- What a callable becomes under a hint. -/
theorem Value.asFunction_func {operand : Value → Operand} {face : Face}
    {run : List Nat → Except Failure Value} (h : face.isType = false) (hint : Value)
    (scope : Scope) :
    (operandBy operand (.func face run)).asFunction hint scope =
      lowerCallable face hint fun params => lowerResult operand (run params) scope := by
  simp [Operand.asFunction, operandBy, lowerApplied?, h]

/-- What any other value becomes where a function is expected. -/
theorem Value.asFunction_eq {operand : Value → Operand} {v : Value} (h : v.isApplied = false)
    (hint : Value) (scope : Scope) :
    (operandBy operand v).asFunction hint scope =
      (lowerAt operand v 0 scope >>= fun t =>
        if t.isConstant then pure t
        else match hint.parameterCount with
          | .error fault => throw (.fault fault)
          | .ok count => do
            let params ← Lowering.takeVariables count
            return functionTerm params t) := by
  have hnone : lowerApplied? operand v = none := by
    unfold lowerApplied?
    split
    · simpa [isApplied] using h
    · rfl
  unfold Operand.asFunction
  split
  case h_1 run hrun =>
    change lowerApplied? operand v = some run at hrun
    rw [hnone] at hrun
    cases hrun
  case h_2 => rfl

mutual

/-- What a value becomes under settings. -/
inductive Lowers (c : Scope) : Trail → Value → Mark → Outline → Mark → Prop where
  | scalar {r : Trail} {v : Value} {m : Mark} {d : Datum} (h : v.scalar? = .ok (some d)) :
      Lowers c r v m (.data d) m
  | moment {r : Trail} {t : Moment} {m : Mark} {entries : List (String × Datum)}
      (h : Value.timeEntries t = .ok entries) :
      Lowers c r (.moment t) m (.object (entries.map fun e => (e.1, .data e.2))) m
  | list {r : Trail} {items : List Value} {m m' : Mark} {os : List Outline}
      (h : LowersEach c r items m os m') : Lowers c r (.list items) m (.array os) m'
  | tuple {r : Trail} {items : List Value} {m m' : Mark} {os : List Outline}
      (h : LowersEach c r items m os m') : Lowers c r (.tuple items) m (.array os) m'
  | dict {r : Trail} {entries : List (Value × Value)} {keys : List String} {m m' : Mark}
      {os : List Outline} (hkeys : entries.map (·.1) = keys.map .text)
      (h : LowersEach c r (entries.map (·.2)) m os m') :
      Lowers c r (.dict entries) m (.object (keys.zip os)) m'
  | mapping {r : Trail} {entries : List (Value × Value)} {keys : List String} {m m' : Mark}
      {os : List Outline} (hkeys : entries.map (·.1) = keys.map .text)
      (h : LowersEach c r (entries.map (·.2)) m os m') :
      Lowers c r (.mapping entries) m (.object (keys.zip os)) m'
  | row {r : Trail} {m : Mark} : Lowers c r .row m (.node .implicitVar r [] [] []) m
  | placeholder {r : Trail} {n : Nat} {m : Mark} :
      Lowers c r (.placeholder n) m (.reference n) m
  | callable {r : Trail} {v : Value} {m m' : Mark} {o : Outline}
      (h : LowersCall c r v (.int (-1)) m o m') : Lowers c r v m o m'
  | literal {r : Trail} {v : Value} {rest : List Value} {m m' : Mark} {o : Outline}
      (h : Lowers c r v m o m') : Lowers c r (.expr .literal (v :: rest)) m o m'
  | applied {r : Trail} {body hint : Value} {rest : List Value} {m m' : Mark} {o : Outline}
      (h : LowersCall c r body hint m o m') :
      Lowers c r (.expr .func (body :: hint :: rest)) m o m'
  /-- A body that can stand for itself is left as it is. -/
  | constant {r : Trail} {body hint : Value} {rest : List Value} {m m' : Mark} {o : Outline}
      (happlied : body.isApplied = false) (h : Lowers c r body m o m')
      (hconstant : o.term.isConstant = true) :
      Lowers c r (.expr .func (body :: hint :: rest)) m o m'
  /-- The parameters of a function that does not use them are numbered after its body. -/
  | wrapped {r : Trail} {body hint : Value} {rest : List Value} {m m' : Mark} {count : Nat}
      {o : Outline} (happlied : body.isApplied = false) (h : Lowers c r body m o m')
      (hconstant : o.term.isConstant = false) (hcount : hint.parameterCount = .ok count) :
      Lowers c r (.expr .func (body :: hint :: rest)) m
        (.function body (List.range' m'.next count) o) (m'.skip count)
  | setting {r : Trail} {s : Setting} {inner value : Value} {m m' : Mark} {o : Outline}
      (h : Lowers c ((s, value) :: r) inner (m.note s value) o m') :
      Lowers c r (.expr (.setting s) [inner, value]) m o m'
  | verb {r : Trail} {v : Verb} {args : List Value} {a : Arrangement} {m m₁ m₂ m' : Mark}
      {positional own given : List Outline} (ha : v.arrange args = .ok a)
      (hpositional : LowersEach c r (a.receiver c ++ a.positional) m positional m₁)
      (hown : LowersEach c r (a.named.map (·.2)) m₁ own m₂)
      (hgiven : LowersEach c r ((v.sent (r.value c)).map (·.2)) m₂ given m') :
      Lowers c r (.expr (.verb v) args) m
        (.node v r positional ((a.named.map (·.1)).zip own)
          (((v.sent (r.value c)).map (·.1)).zip given)) m'

/-- What values become one after the other. -/
inductive LowersEach (c : Scope) : Trail → List Value → Mark → List Outline → Mark → Prop where
  | nil {r : Trail} {m : Mark} : LowersEach c r [] m [] m
  | cons {r : Trail} {v : Value} {vs : List Value} {m m₁ m' : Mark} {o : Outline}
      {os : List Outline} (h : Lowers c r v m o m₁) (hs : LowersEach c r vs m₁ os m') :
      LowersEach c r (v :: vs) m (o :: os) m'

/-- What a callable becomes under a hint: it is called once, with fresh variables, and the
function has the outline of what it returns as its body. -/
inductive LowersCall (c : Scope) : Trail → Value → Value → Mark → Outline → Mark → Prop where
  | call {r : Trail} {face : Face} {run : List Nat → Except Failure Value} {hint result : Value}
      {m m' : Mark} {count : Nat} {o : Outline} (htype : face.isType = false)
      (hcount : parametersOf face hint = .ok count) (hadmits : face.admits count = .ok ())
      (hresult : run (List.range' m.next count) = .ok result)
      (h : Lowers c r result (m.skip count) o m') :
      LowersCall c r (.func face run) hint m
        (.function (.func face run) (List.range' m.next count) o) m'

end

end QueryDriver
