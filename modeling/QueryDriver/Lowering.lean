import QueryDriver.Lowering.Operand

/-! # Expressions as terms

`Value.lower` compiles any value to a term: an expression by its operator, a callable by
calling it, a container item by item, and everything else by the encoder of values.
Literals may nest only so deep; the count starts anew at every expression.

A scope may carry values that are compiled where they are used. They are compiled in
that scope again, so they may lean on further values it carries. `lowerWithin` bounds how
often; the values that settings of the public builders put there are texts, which lean
on nothing.
-/

namespace QueryDriver

open Wire

namespace Value

/-- Under how many containers the compiler takes a part of a literal. -/
def literalLimit : Nat := 20

/-- Refuses a literal under too many containers. -/
def checkLiteralDepth (depth : Int) : Lowering Unit :=
  if depth > literalLimit then throw (.ofCause (.literalTooDeep literalLimit)) else pure ()

/-- The key of an entry of a literal, which has to be a text. -/
def literalKey (key : Value) : Lowering String :=
  match key with
  | .text s => pure s
  | _ => throw (.ofCause (.literalKeyNotText key.typeName))

/-- Items and entries of a literal on their way to terms: each is compiled at the depth
that its container gives it. -/
abbrev Part := Int → Scope → Lowering Term

/-- The term of an array literal. -/
def lowerItems (parts : List Part) (depth : Int) (scope : Scope) : Lowering Term := do
  let terms ← parts.mapM fun p => p depth scope
  return Term.makeArray terms

/-- The term of an object literal. -/
def lowerEntries (parts : List (Value × Part)) (depth : Int) (scope : Scope) :
    Lowering Term := do
  let entries ← parts.mapM fun p => do
    let key ← literalKey p.1
    let t ← p.2 depth scope
    return (key, t)
  return Term.makeObject entries

mutual

/-- The term of a value at a depth of literals, `operand` being how the values that the
scope carries are compiled. -/
def lowerAt (operand : Value → Operand) (v : Value) (depth : Int) (scope : Scope) :
    Lowering Term :=
  match v with
  | .expr op args => do
    checkLiteralDepth depth
    lowerNode operand op (operands operand args) scope
  | .row => do
    checkLiteralDepth depth
    lowerNode operand (.verb .implicitVar) [] scope
  | .placeholder n => do
    checkLiteralDepth depth
    lowerNode operand (.verb .var) [Operand.number n] scope
  | .dict entries | .mapping entries => do
    checkLiteralDepth depth
    lowerEntries (entryParts operand entries) (depth + 1) scope
  | .list items | .tuple items => do
    checkLiteralDepth depth
    lowerItems (itemParts operand items) (depth + 1) scope
  | .func face body => do
    checkLiteralDepth depth
    if face.isType then throw (.ofCause (.unsupported face.typeName))
    lowerCallable face (.int (-1)) fun params => lowerResult operand (body params) scope
  | _ => do
    checkLiteralDepth depth
    liftM (v.marshal 0)

/-- The operands of a node. -/
def operands (operand : Value → Operand) (args : List Value) : List Operand :=
  match args with
  | [] => []
  | v :: vs =>
    ⟨v, lowerAt operand v 0, lowerApplied? operand v, tableOptions operand v⟩
      :: operands operand vs

/-- The term of a callable as a function under a hint. -/
def lowerApplied? (operand : Value → Operand) (v : Value) :
    Option (Value → Scope → Lowering Term) :=
  match v with
  | .func face body =>
    if face.isType then none
    else some fun hint scope =>
      lowerCallable face hint fun params => lowerResult operand (body params) scope
  | _ => none

/-- The options of a table that is to be created, those that are set. -/
def tableOptions (operand : Value → Operand) (v : Value) : List (String × Operand) :=
  match v with
  | .tableSpec _ primaryKey datacenter cacheSize durability =>
    Operand.option "primary_key" ⟨primaryKey, lowerAt operand primaryKey 0,
        lowerApplied? operand primaryKey, tableOptions operand primaryKey⟩
      ++ Operand.option "datacenter" ⟨datacenter, lowerAt operand datacenter 0,
        lowerApplied? operand datacenter, tableOptions operand datacenter⟩
      ++ Operand.option "cache_size" ⟨cacheSize, lowerAt operand cacheSize 0,
        lowerApplied? operand cacheSize, tableOptions operand cacheSize⟩
      ++ Operand.option "durability" (Operand.text durability)
  | _ => []

/-- The term of what a callable returns, which has to be something. -/
def lowerResult (operand : Value → Operand) (result : Except Failure Value) (scope : Scope) :
    Lowering Term :=
  match result with
  | .ok .null => throw (.ofCause .noResult)
  | .ok v => lowerAt operand v 0 scope
  | .error f => throw f

/-- The items of an array literal. -/
def itemParts (operand : Value → Operand) (items : List Value) : List Part :=
  match items with
  | [] => []
  | v :: vs => lowerAt operand v :: itemParts operand vs

/-- The entries of an object literal. -/
def entryParts (operand : Value → Operand) (entries : List (Value × Value)) :
    List (Value × Part) :=
  match entries with
  | [] => []
  | (k, v) :: es => (k, lowerAt operand v) :: entryParts operand es

end

/-- The operand of a value. -/
def operandBy (operand : Value → Operand) (v : Value) : Operand :=
  ⟨v, lowerAt operand v 0, lowerApplied? operand v, tableOptions operand v⟩

/-- The operand of a value, where values of the scope lean on each other at most `fuel`
times. -/
def operandWithin : Nat → Value → Operand
  | 0, v => ⟨v, fun _ => throw (.fault .optionsTooDeep), none, []⟩
  | fuel + 1, v => operandBy (operandWithin fuel) v

/-- How often values of the scope may lean on each other. -/
def optionNesting : Nat := 64

/-- A value on its way to a term. -/
def operand (v : Value) : Operand := operandWithin (optionNesting + 1) v

/-- The term of a value under a scope. -/
def lower (v : Value) (scope : Scope) : Lowering Term := v.operand.term scope

/-- The term of a value as a literal at a depth. -/
def lowerLiteral (v : Value) (depth : Int) (scope : Scope) : Lowering Term :=
  lowerAt (operandWithin optionNesting) v depth scope

/-- The term of a value where a function is expected. -/
def lowerFunction (v : Value) (hint : Value) (scope : Scope) : Lowering Term :=
  v.operand.asFunction hint scope

end Value

end QueryDriver
