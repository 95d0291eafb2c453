import QueryDriver.Codec.Marshal
import QueryDriver.Lowering.Scope
import QueryDriver.Rendering

/-! # Operands

Compiling is a fold over the value, like rendering. For every argument of a node the
fold keeps an `Operand`: the value, the term that it compiles to under a scope, for a
callable the term that it compiles to as a function under a hint on the number of its
parameters, and for the options of a table the operands of those that are set. What a
node compiles to is then a plain function of its operands; that function is here, one
definition for each of its steps.

The state of a compilation is the next number for a variable, the number of calls of
callables, and the time format of the query, which is the first one that was met.
-/

namespace QueryDriver

open Wire

/-- The state of a compilation. -/
structure Progress where
  /-- The number of the next variable. -/
  next : Nat
  /-- How many calls of callables were made. -/
  calls : Nat
  /-- The time format that was met first. -/
  timeFormat : Value

abbrev Lowering := ExceptT Failure (StateM Progress)

/-- An argument of a node on its way to a term. -/
structure Operand where
  value : Value
  /-- The term of the value under a scope. -/
  term : Scope → Lowering Term
  /-- The term of a callable as a function under a hint. -/
  applied : Option (Value → Scope → Lowering Term)
  /-- The options of a table that is to be created, those that are set. -/
  options : List (String × Operand)

namespace Lowering

def fail {α : Type} (f : Failure) : Lowering α := throw f

/-- Hands out the numbers of `count` variables. -/
def takeVariables (count : Nat) : Lowering (List Nat) := do
  let s ← get
  set { s with next := s.next + count }
  return List.range' s.next count

/-- Counts a call of a callable. -/
def countCall (face : Face) : Lowering Unit :=
  if face.isCounted then modify fun s => { s with calls := s.calls + 1 } else pure ()

/-- Takes note of a time format unless one was met before. -/
def noteTimeFormat (v : Value) : Lowering Unit :=
  modify fun s => if s.timeFormat.truthy then s else { s with timeFormat := v }

end Lowering

/-- The datum of a variable's number. -/
def numberTerm (n : Nat) : Term := Term.ofDatum (Datum.ofDouble (Double.ofNat n))

/-- The term of a function: its parameters and its body. -/
def functionTerm (params : List Nat) (body : Term) : Term :=
  { Term.empty with
    tag := some TermType.func.code
    args := [Term.makeArray (params.map numberTerm), body] }

mutual

/-- The current row is mentioned somewhere in the term. -/
def Wire.Term.mentionsRow : Term → Bool
  | ⟨tag, _, args, options⟩ =>
    tag.getD 0 == Verb.implicitVar.code || Term.anyMentionsRow args
      || Term.anyOptionMentionsRow options

def Wire.Term.anyMentionsRow : List Term → Bool
  | [] => false
  | t :: ts => t.mentionsRow || Term.anyMentionsRow ts

def Wire.Term.anyOptionMentionsRow : List (Option String × Option Term) → Bool
  | [] => false
  | (_, value) :: os => Term.valueMentionsRow value || Term.anyOptionMentionsRow os

def Wire.Term.valueMentionsRow : Option Term → Bool
  | none => false
  | some t => t.mentionsRow

end

/-- The term can stand for itself where a function is expected. -/
def Wire.Term.isConstant (t : Term) : Bool := TermType.isLeafCode t.kind && !t.mentionsRow

/-- A hint agrees with a number of parameters: it is that number, or `-1` for any. -/
def agrees (hint : Value) (n : Nat) : Except Failure Bool :=
  match hint.equalsInt (-1), hint.equalsInt n with
  | .ok any, .ok equal => .ok (any || equal)
  | .error fault, _ | _, .error fault => .error (.fault fault)

/-- The number of parameters of a callable under a hint, which has to agree with it. -/
def parametersOf (face : Face) (hint : Value) : Except Failure Nat := do
  match face.arity with
  | .error cause => throw (.ofCause cause)
  | .ok none =>
    match hint.parameterCount with
    | .error fault => throw (.fault fault)
    | .ok n => return n
  | .ok (some n) =>
    if ← agrees hint n then return n
    let expected ← hint.display
    throw (.ofCause (.wrongArity expected n))

/-- A callable as a function, `run` being the term of what it returns for the numbers of
its parameters. -/
def lowerCallable (face : Face) (hint : Value) (run : List Nat → Lowering Term) :
    Lowering Term := do
  let count ← liftM (parametersOf face hint)
  let params ← Lowering.takeVariables count
  let _ ← liftM (face.admits count)
  Lowering.countCall face
  let body ← run params
  return functionTerm params body

namespace Operand

/-- The operand of a value whose term does not depend on anything. -/
def constant (v : Value) (t : Term) : Operand := ⟨v, fun _ => pure t, none, []⟩

/-- The operand of a text. -/
def text (s : String) : Operand := constant (.text s) (Term.ofDatum (Datum.ofText s))

/-- The operand of a number of a variable. -/
def number (n : Nat) : Operand := constant (.int n) (numberTerm n)

/-- The operand of a switch that is on. -/
def on : Operand := constant (.bool true) (Term.ofDatum (Datum.ofBool true))

/-- An option of a name, unless its value counts as false. -/
def option (name : String) (o : Operand) : List (String × Operand) :=
  if o.value.truthy then [(name, o)] else []

/-- The argument that has to be there. -/
def arg (args : List Operand) (i : Nat) : Lowering Operand :=
  match args[i]? with
  | some o => pure o
  | none => throw (.fault (.outOfRange .list))

/-- The term of an operand where a function is expected. A callable is called; any other
value becomes the body of a function without using its parameters, unless it can stand
for itself. -/
def asFunction (o : Operand) (hint : Value) (scope : Scope) : Lowering Term :=
  match o.applied with
  | some applied => applied hint scope
  | none => do
    let t ← o.term scope
    if t.isConstant then return t
    match hint.parameterCount with
    | .error fault => throw (.fault fault)
    | .ok count =>
      let params ← Lowering.takeVariables count
      return functionTerm params t

end Operand

/-- What the receiver of a table operation may not be, by what it is called. -/
def notATable? : Value → Except Failure (Option String)
  | .expr (.setting _) [] => .error (.fault (.outOfRange .tuple))
  | .expr (.setting _) (inner :: _) => notATable? inner
  | .expr .literal _ => .ok (some Operator.literal.label)
  | .expr .func _ => .ok (some Operator.func.label)
  | .expr (.verb .db) _ => .ok (some Verb.db.label)
  | .expr _ _ | .row | .placeholder _ => .ok none
  | v => .ok (some v.typeName)

/-- The receiver of a table operation has to be something that can be a table. -/
def checkTable (v : Verb) (args : List Operand) : Lowering Unit :=
  if v.needsTable then do
    let receiver ← Operand.arg args 0
    match notATable? receiver.value with
    | .error f => throw f
    | .ok none => pure ()
    | .ok (some given) => throw (.ofCause (.needsTable v.label given))
  else pure ()

/-- Splits off the argument that is sent as an option. -/
def splitTrailing (v : Verb) (args : List Operand) :
    Lowering (List Operand × List (String × Operand)) :=
  match v.trailing? with
  | none => pure (args, [])
  | some name =>
    match args.getLast? with
    | none => throw (.fault (.outOfRange .emptied))
    | some last => pure (args.dropLast, if last.value.isAbsent then [] else [(name, last)])

/-- The options that the scope adds to a verb. -/
def scopeOptions (v : Verb) (scope : Scope) (operand : Value → Operand) :
    List (String × Operand) :=
  match v with
  | .table => if scope.useOutdated then [("use_outdated", Operand.on)] else []
  | .insert | .update | .replace | .delete =>
    (if scope.durability.truthy then [("durability", operand scope.durability)] else [])
      ++ (if scope.returnValues then [("return_vals", Operand.on)] else [])
      ++ (if (v = .update || v = .replace) && !scope.atomic then [("non_atomic", Operand.on)]
          else [])
      ++ (if v = .insert && scope.upsert then [("upsert", Operand.on)] else [])
  | .between | .during =>
    (if scope.leftBound.truthy then [("left_bound", operand scope.leftBound)] else [])
      ++ (if scope.rightBound.truthy then [("right_bound", operand scope.rightBound)] else [])
  | _ => []

/-- The terms of operands from left to right. -/
def lowerEach (scope : Scope) (args : List Operand) : Lowering (List Term) :=
  args.mapM fun o => o.term scope

/-- The database of the scope, as the receiver that a node leaves out. -/
def implicitDatabase (scope : Scope) (operand : Value → Operand) : Operand :=
  ⟨.expr (.verb .db) [scope.database],
    fun inner => do
      let names ← lowerEach inner
        (if scope.database.isAbsent then [] else [operand scope.database])
      return { Term.empty with tag := some Verb.db.code, args := names },
    none, []⟩

/-- Puts the database of the scope in front of the arguments of a node that leaves it
out. -/
def insertDatabase (v : Verb) (scope : Scope) (operand : Value → Operand)
    (args : List Operand) : List Operand :=
  if v.afterDatabase? = some args.length then implicitDatabase scope operand :: args else args

/-- Splits the options of a table that is to be created into its name and its options. -/
def splitTableSpec (v : Verb) (args : List Operand) :
    Lowering (List Operand × List (String × Operand)) :=
  if v = .tableCreate then
    match args.getLast? with
    | none => throw (.fault (.outOfRange .emptied))
    | some last =>
      match last.value with
      | .tableSpec name .. => pure (args.dropLast ++ [Operand.text name], last.options)
      | _ => throw (.ofCause .needsTableSpec)
  else pure (args, [])

/-- The terms of options from left to right. -/
def lowerOptions (scope : Scope) (options : List (String × Operand)) :
    Lowering (List (Option String × Option Term)) :=
  options.mapM fun o => do
    let t ← o.2.term scope
    return (some o.1, some t)

/-- The term of an operation of the server. `operand` is how the values that the scope
carries are compiled. -/
def lowerVerb (operand : Value → Operand) (v : Verb) (args : List Operand) (scope : Scope) :
    Lowering Term := do
  checkTable v args
  let (args, trailing) ← splitTrailing v args
  let args := insertDatabase v scope operand args
  let (args, tableOptions) ← splitTableSpec v args
  let terms ← lowerEach scope (args.filter fun o => !o.value.isAbsent)
  let options ← lowerOptions scope (trailing ++ tableOptions ++ scopeOptions v scope operand)
  return { Term.empty with tag := some v.code, args := terms, options := options }

/-- The term of a node. A setting contributes no term of its own. -/
def lowerNode (operand : Value → Operand) (op : Operator) (args : List Operand)
    (scope : Scope) : Lowering Term :=
  match op with
  | .literal => do
    let value ← Operand.arg args 0
    value.term scope
  | .func => do
    let body ← Operand.arg args 0
    let hint ← Operand.arg args 1
    body.asFunction hint.value scope
  | .setting s =>
    match args with
    | [inner, value] => do
      if s = .timeFormat then Lowering.noteTimeFormat value.value
      inner.term (scope.set s value.value)
    | _ => throw (.fault (.unpacked args.length))
  | .verb v => lowerVerb operand v args scope

end QueryDriver
