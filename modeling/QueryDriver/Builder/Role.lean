import QueryDriver.Value.Arity

/-! # Roles of arguments

A builder checks and wraps its arguments before they become arguments of a node. What
happens to one of them is its `Role`: it may be taken as it is, have to be a name or
one of a few words, or stand where the server expects a function.

A function argument is wrapped in a node of its own, with the number of parameters
that the operator passes; `-1` stands for any number. An argument that is already such
a node is left alone.
-/

namespace QueryDriver

namespace Value

/-- Under how many containers a part of a value may lie that is to be an expression. -/
def liftLimit : Nat := 20

mutual

/-- Some part of the value lies under too many containers, the value itself being
`depth` deep. -/
def tooDeep (depth : Nat) : Value → Bool
  | .list items => depth > liftLimit || tooDeepItem (depth + 1) items
  | .tuple items => depth > liftLimit || tooDeepItem (depth + 1) items
  | .dict entries => depth > liftLimit || tooDeepEntry (depth + 1) entries
  | .mapping entries => depth > liftLimit || tooDeepEntry (depth + 1) entries
  | _ => depth > liftLimit

def tooDeepItem (depth : Nat) : List Value → Bool
  | [] => false
  | v :: vs => tooDeep depth v || tooDeepItem depth vs

def tooDeepEntry (depth : Nat) : List (Value × Value) → Bool
  | [] => false
  | (_, v) :: es => tooDeep depth v || tooDeepEntry depth es

end

/-- Stands for a function with the given number of parameters. -/
def wrapFunction (body : Value) (arity : Value) : Value :=
  match body with
  | .expr .func _ => body
  | _ => .expr .func [body, arity]

/-- The number of parameters that a caller asks for has to be an integer from `-1` on. -/
def checkArity (arity : Value) : Except Failure Unit :=
  match arity.belowInt (-1) arity.refusesOrder with
  | .error fault => .error (.fault fault)
  | .ok true => .error (.fault .badArity)
  | .ok false => .ok ()

/-- A function argument whose number of parameters the caller chooses. -/
def asFunction (body arity : Value) : Except Failure Value := do
  checkArity arity
  return wrapFunction body arity

/-- Any value as an expression. -/
def lift (v : Value) : Except Failure Value :=
  if v.isExpr then .ok v
  else if v.isCallable then .ok (wrapFunction v (.int (-1)))
  else if tooDeep 0 v then .error (.ofCause (.literalTooDeep liftLimit))
  else .ok (.expr .literal [v])

/-- A text with more than blanks in it; `role` says what for. -/
def checkName (role : String) (v : Value) : Except Failure Value :=
  if v.isName then .ok v else .error (.fault (.notName role))

/-- One of a few words. -/
def checkChoice (role : String) (choices : List String) (v : Value) : Except Failure Value :=
  if v.isOneOf choices then .ok v else .error (.fault (.notChoice role choices))

/-- The options for creating a table, checked. -/
def tableSpecOf (name primaryKey datacenter cacheSize durability : Value) :
    Except Failure Value := do
  let _ ← checkName "table name" name
  if !durability.isOneOf ["", "soft", "hard"] then
    throw (.fault (.notChoice "durability" ["soft", "hard"]))
  match cacheSize with
  | .bool _ => pure ()
  | .int n => if n < 0 then throw (.fault (.notCount "cache_size"))
  | _ => throw (.fault (.notCount "cache_size"))
  return .tableSpec (name.text?.getD "") primaryKey datacenter cacheSize (durability.text?.getD "")

/-- What the table builders take: options, or a name alone. -/
def asTableSpec (v : Value) : Except Failure Value :=
  match v with
  | .tableSpec .. => .ok v
  | .text _ => tableSpecOf v (.text "") (.text "") (.int 0) (.text "")
  | _ => .error (.fault .notATableSpec)

/-- The items of a value that can be gone through. -/
def iterate (v : Value) : Except Failure (List Value) :=
  match v with
  | .list items | .tuple items | .set items => .ok items
  | .dict entries | .mapping entries => .ok (entries.map (·.1))
  | .text s => .ok (s.toList.map fun c => .text (String.singleton c))
  | .bytes bs => .ok (bs.map fun b => .int b.toNat)
  | _ =>
    .error (.fault (if v.isExpr then .notIterable else .cannotIterate v.qualifiedTypeName))

/-- One or more attribute names, as a list. -/
def asAttributes (v : Value) : Except Failure Value := do
  let items ← match v with
    | .text _ => pure [v]
    | _ => iterate v
  let names ← items.mapM (checkName "group_by attribute")
  if names.isEmpty then throw (.fault (.tooFew "group_by" "at least one attribute"))
  return .list names

/-- The value orders a sequence by itself. -/
def isOrdering : Value → Bool
  | .expr (.verb .asc) _ | .expr (.verb .desc) _ => true
  | _ => false

end Value

/-- What a builder does with an argument. -/
inductive Role where
  | plain
  /-- Only the truth of the argument counts. -/
  | flag
  | name (what : String)
  | choice (what : String) (choices : List String)
  | function (arity : Int)
  /-- A function that leaves no argument when it is left out. -/
  | optionalFunction (arity : Int)
  /-- An ordering, or a function to order by. -/
  | ordering
  | attributes
  | tableSpec
  /-- Made an expression first. -/
  | lifted
deriving DecidableEq

/-- The arguments of the node that an argument of the builder becomes. -/
def Role.convert (role : Role) (v : Value) : Except Failure (List Value) :=
  match role with
  | .plain => .ok [v]
  | .flag => .ok [.bool v.truthy]
  | .name what => (v.checkName what).map ([·])
  | .choice what choices => (v.checkChoice what choices).map ([·])
  | .function arity => .ok [v.wrapFunction (.int arity)]
  | .optionalFunction arity =>
    .ok (if v.isAbsent then [] else [v.wrapFunction (.int arity)])
  | .ordering => .ok [if v.isOrdering then v else v.wrapFunction (.int 1)]
  | .attributes => v.asAttributes.map ([·])
  | .tableSpec => v.asTableSpec.map ([·])
  | .lifted => v.lift.map ([·])

end QueryDriver
