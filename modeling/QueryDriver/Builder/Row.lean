import QueryDriver.Builder.Role

/-! # Builders as data

Nearly every builder makes one node from its receiver and its arguments. Such a
builder is a `Row`: the operator, the parameters with their roles, and what may follow
them. `Row.apply` is the one function that carries a row out, so that a statement about
all builders is a statement about it and the table.

Arguments come by position or by keyword. `bind` matches them with the parameters and
says what is wrong when they do not match.
-/

namespace QueryDriver

/-- A parameter of a builder. -/
structure Parameter where
  name : String
  role : Role
  default : Option Value

namespace Parameter

/-- An argument that is taken as it is. -/
def arg (name : String) : Parameter := ⟨name, .plain, none⟩

/-- An argument that may be left out. -/
def spare (name : String) : Parameter := ⟨name, .plain, some .absent⟩

/-- An argument that is a name; `what` says what for. -/
def named (name what : String) : Parameter := ⟨name, .name what, none⟩

/-- An argument that is one of a few words. -/
def word (name what : String) (choices : List String) : Parameter :=
  ⟨name, .choice what choices, none⟩

/-- A function with a number of parameters. -/
def body (name : String) (arity : Int) : Parameter := ⟨name, .function arity, none⟩

/-- A switch, on when it is left out. -/
def switch (name : String) : Parameter := ⟨name, .flag, some (.bool true)⟩

end Parameter

/-- What may follow the parameters. -/
inductive Rest where
  | none
  | any (role : Role)
  /-- At least one argument; `what` is the one that is missing otherwise. -/
  | some (role : Role) (what : String)
  /-- One or four arguments: a zone, with a time of day in front of it or not. -/
  | clock

/-- Where the receiver stands among the arguments of the node. -/
inductive Place where
  | first | last | nowhere
deriving DecidableEq

/-- A builder of one node. -/
structure Row where
  name : String
  /-- What messages call it, when it has a second name. -/
  callee : String
  place : Place
  op : Operator
  params : List Parameter
  rest : Rest
  /-- Parameters behind the rest, given by keyword only. -/
  keywordOnly : List Parameter
  /-- Arguments that every such node has. -/
  preset : List Value

/-- The arguments of a call. -/
structure Arguments where
  positional : List Value
  keywords : List (String × Value)

namespace Rest

def takesAny : Rest → Bool
  | .none => false
  | _ => true

/-- The arguments of the node that the rest becomes. -/
def convert (rest : Rest) (callee : String) (values : List Value) :
    Except Failure (List Value) :=
  match rest with
  | .none => .ok []
  | .any role => (values.mapM role.convert).map List.flatten
  | .some role what =>
    if values.isEmpty then .error (.fault (.tooFew callee what))
    else (values.mapM role.convert).map List.flatten
  | .clock =>
    if values.length = 1 ∨ values.length = 4 then .ok values
    else .error (.fault .timeArguments)

end Rest

/-- The arguments of a call, matched with parameters. -/
structure Bound where
  fixed : List Value
  rest : List Value
  keywordOnly : List Value

/-- Gives every parameter its argument: the one at its position, else the one under its
name, else its default. Names the parameters that remain without one. -/
def fill (params : List Parameter) (positional : List Value) (keywords : List (String × Value)) :
    Except (List String) (List Value) :=
  match params, positional with
  | [], _ => .ok []
  | _ :: ps, v :: vs => do
    let values ← fill ps vs keywords
    return v :: values
  | p :: ps, [] =>
    match (keywords.find? fun k => k.1 == p.name).map (·.2), p.default with
    | some v, _ | none, some v => do
      let values ← fill ps [] keywords
      return v :: values
    | none, none =>
      match fill ps [] keywords with
      | .ok _ => .error [p.name]
      | .error names => .error (p.name :: names)

/-- What the parameter for the receiver is called. -/
def receiverName : String := "self"

/-- Matches the arguments of a call with parameters. `receiver` is one when the call
has a receiver, which counts as its first argument. -/
def bind (callee : String) (receiver : Nat) (params : List Parameter) (takesAny : Bool)
    (keywordOnly : List Parameter) (args : Arguments) : Except Failure Bound := do
  let n := args.positional.length
  for (name, _) in args.keywords do
    if (params.take n).any (·.name == name) ∨ (receiver = 1 ∧ name = receiverName) then
      throw (.fault (.repeatedArgument callee name))
    if !(params ++ keywordOnly).any (·.name == name) then
      throw (.fault (.unexpectedKeyword callee name))
  if !takesAny ∧ params.length < n then
    let least := (params.filter fun p => p.default.isNone).length
    throw (.fault (.tooMany callee (least + receiver) (params.length + receiver) (n + receiver)))
  match fill params args.positional args.keywords with
  | .error names => throw (.fault (.missing callee false names))
  | .ok fixed =>
    match fill keywordOnly [] args.keywords with
    | .error names => throw (.fault (.missing callee true names))
    | .ok keyed => return ⟨fixed, args.positional.drop params.length, keyed⟩

namespace Row

/-- A method that makes a node of the receiver and the arguments. -/
def method (name : String) (verb : Verb) (params : List Parameter) : Row :=
  ⟨name, name, .first, .verb verb, params, .none, [], []⟩

/-- A method that takes any number of arguments. -/
def variadic (name : String) (verb : Verb) : Row :=
  { method name verb [] with rest := .any .plain }

/-- A method that sets an option on the receiver. -/
def setter (s : Setting) (params : List Parameter) : Row :=
  ⟨s.label, s.label, .first, .setting s, params, .none, [], []⟩

/-- A function that makes a node of its arguments. -/
def function (name : String) (verb : Verb) (params : List Parameter) : Row :=
  { method name verb params with place := .nowhere }

/-- A second name for a method. -/
def renamed (name : String) (row : Row) : Row := { row with name := name }

/-- The operator with its operands exchanged: the receiver is the right one, and the left
one is made an expression. -/
def exchanged (name : String) (verb : Verb) : Row :=
  { method name verb [⟨"other", .lifted, none⟩] with place := .last }

/-- The arguments that parameters become, in order. -/
def convert (params : List Parameter) (values : List Value) : Except Failure (List Value) := do
  let parts ← (params.zip values).mapM fun pv => Role.convert pv.1.role pv.2
  return parts.flatten

/-- The node that the row makes of a receiver and bound arguments. -/
def assemble (row : Row) (receiver : List Value) (bound : Bound) : Except Failure Value := do
  let rest ← row.rest.convert row.callee bound.rest
  let fixed ← convert row.params bound.fixed
  let keyed ← convert row.keywordOnly bound.keywordOnly
  let arguments := fixed ++ rest ++ keyed ++ row.preset
  return .expr row.op (if row.place = .last then arguments ++ receiver else receiver ++ arguments)

/-- Carries out the row. -/
def apply (row : Row) (receiver : List Value) (args : Arguments) : Except Failure Value := do
  let qualified := (if row.place = .nowhere then "" else "Expr.") ++ row.callee
  let bound ← bind qualified receiver.length row.params row.rest.takesAny row.keywordOnly args
  row.assemble receiver bound

end Row

end QueryDriver
