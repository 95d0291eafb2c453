import QueryDriver.Builder.Catalog
import QueryDriver.Rendering

/-! # Builders

`Value.method` calls a method of an expression and `Query.call` a function that starts
one, each by its name. Most are rows of the catalog. The few that are not are here: an
index chooses between three methods by the class of the key, a call of a function may
have any number of arguments in front of it, and the descriptors of a grouped reduction
are plain objects.
-/

namespace QueryDriver

namespace Query

/-- The current row of the innermost sequence. -/
def row : Value := .row

/-- Any value as an expression. -/
def expr (v : Value) : Except Failure Value := v.lift

/-- A value as a function with a number of parameters. -/
def func (body arity : Value) : Except Failure Value := body.asFunction arity

/-- Calls the last of the values with the others. -/
def invoke (values : List Value) : Except Failure Value :=
  match values.getLast? with
  | none => .error (.fault (.tooFew "do" "a function"))
  | some function =>
    .ok (.expr (.verb .call) (function.wrapFunction (.int (-1)) :: values.dropLast))

/-- Counts the rows of a group. -/
def countReduction : Value := .dict [(.text "COUNT", .bool true)]

/-- Adds up an attribute over a group. -/
def sumReduction (fieldName : Value) : Except Failure Value := do
  let name ← fieldName.checkName "sum attribute"
  return .dict [(.text "SUM", name)]

/-- The mean of an attribute over a group. -/
def averageReduction (fieldName : Value) : Except Failure Value := do
  let name ← fieldName.checkName "avg attribute"
  return .dict [(.text "AVG", name)]

/-- The arguments of a function outside the catalog. -/
def bound (callee : String) (params : List Parameter) (args : Arguments) :
    Except Failure (List Value) :=
  (bind callee 0 params false [] args).map (·.fixed)

/-- Calls a function that starts an expression. -/
def call (name : String) (args : Arguments) : Except Failure Value :=
  match name with
  | "expr" => do
    let values ← bound name [.arg "value"] args
    expr (values.headD .null)
  | "func" => do
    let values ← bound name [.arg "body", .arg "arity"] args
    func (values.headD .null) (values.getLastD .null)
  | "do" => do
    let args ← bind name 0 [] true [] args
    invoke args.rest
  | "count" => do
    let _ ← bound name [] args
    return countReduction
  | "sum_" => do
    let values ← bound name [.arg "attribute"] args
    sumReduction (values.headD .null)
  | "avg" => do
    let values ← bound name [.arg "attribute"] args
    averageReduction (values.headD .null)
  | _ =>
    match Catalog.function? name with
    | some r => r.apply [] args
    | none => .error (.fault (.noFunction name))

end Query

namespace Value

/-- The part of an expression under an index: a field for a text, a range for a slice
without a step, one item for an integer. -/
def index (receiver key : Value) : Except Failure Value :=
  match key with
  | .text _ => do
    let name ← key.checkName "attribute name"
    return .expr (.verb .field) [receiver, name]
  | .slice start stop step =>
    if !step.isNull then .error (.fault .steppedSlice)
    else
      .ok (.expr (.verb .slice)
        [receiver, if start.isNull then .int 0 else start, if stop.isNull then .int (-1) else stop])
  | .int _ => .ok (.expr (.verb .nth) [receiver, key])
  | _ => .error (.fault .badIndex)

/-- The arguments of a method outside the catalog. -/
def boundMethod (name : String) (params : List Parameter) (args : Arguments) :
    Except Failure (List Value) :=
  (bind ("Expr." ++ name) 1 params false [] args).map (·.fixed)

/-- Calls a method of an expression. Some members of expressions are no methods. -/
def method (receiver : Value) (name : String) (args : Arguments) : Except Failure Value :=
  if !receiver.isExpr then .error (.fault (receiver.noMember name))
  else
    match name with
    | "__getitem__" => do
      let values ← boundMethod name [.arg "key"] args
      receiver.index (values.headD .null)
    | "__iter__" => do
      let _ ← boundMethod name [] args
      throw (.fault .notIterable)
    | "__setattr__" => do
      let _ ← boundMethod name [.arg "name", .arg "value"] args
      throw (.fault .immutable)
    | "__delattr__" => do
      let _ ← boundMethod name [.arg "name"] args
      throw (.fault .immutable)
    | "__repr__" => do
      let _ ← boundMethod name [] args
      return .text (← receiver.shown)
    | "kind" => .error (.fault (.notCallable "Kind"))
    | "args" => .error (.fault (.notCallable "tuple"))
    | _ =>
      match Catalog.method? name with
      | some r => r.apply [receiver] args
      | none => .error (.fault (receiver.noMember name))

/-- An expression with an operator and arguments as they are given. -/
def node (op : Value) (args : List Value) : Except Failure Value :=
  match op with
  | .operator o => .ok (.expr o args)
  | _ => .error (.fault .notAnOperator)

/-- An expression cannot be changed. -/
def assign (_receiver : Value) (_member : String) : Except Failure Value :=
  .error (.fault .immutable)

/-- The options for creating a table from named fields. -/
def tableSpecOfFields (fields : List (String × Value)) : Except Failure Value := do
  let params : List Parameter :=
    [.arg "name", ⟨"primary_key", .plain, some (.text "")⟩,
      ⟨"datacenter", .plain, some (.text "")⟩, ⟨"cache_size", .plain, some (.int 0)⟩,
      ⟨"durability", .plain, some (.text "")⟩]
  let bound ← bind "TableSpec.__init__" 1 params false [] ⟨[], fields⟩
  match bound.fixed with
  | [name, primaryKey, datacenter, cacheSize, durability] =>
    tableSpecOf name primaryKey datacenter cacheSize durability
  | _ => throw (.fault .notATableSpec)

end Value

end QueryDriver
