import QueryDriver.Callable
import QueryDriver.Number.Numeral
import QueryDriver.Operator
import QueryDriver.Text.Blank
import QueryDriver.Time.Moment

/-! # Host values and expressions

A `Value` is whatever can be passed to a builder: the literals of the host, other
expressions, and callables. An expression is an operator with its arguments, which
are values again.

A callable is only ever called with placeholders for the parameters of a function,
and a placeholder is known by its number. So a callable is a function from the list of
those numbers to a value or a failure. This keeps the type inductive: what a callable
returns is a part of the callable, and everything that walks over values, calling the
callables as it meets them, is a recursion on the structure.

The current row and the placeholders are expressions of which there is one each. They are
nodes like all others (`Value.node?`), but two mentions of one are the same object, while
two nodes that are made apart are not, whatever they hold.
-/

namespace QueryDriver

inductive Value where
  | null
  | bool (b : Bool)
  | int (n : Int)
  | double (x : Double)
  | fraction (num : Int) (den : Nat)
  | text (s : String)
  | list (items : List Value)
  | tuple (items : List Value)
  | dict (entries : List (Value × Value))
  /-- A read-only mapping, which is shown as an object and not as a literal. -/
  | mapping (entries : List (Value × Value))
  | moment (t : Moment)
  | duration (d : Duration)
  | slice (start stop step : Value)
  /-- Stands for an argument that was left out. -/
  | absent
  /-- The options for creating a table. -/
  | tableSpec (name : String) (primaryKey datacenter cacheSize : Value) (durability : String)
  | bytes (bs : List UInt8)
  | set (items : List Value)
  | complex (re im : Double)
  | decimal (n : Numeral)
  | operator (op : Operator)
  /-- Any other object: its class, and how it is shown or what showing it fails with. -/
  | object (className : String) (shown : Except String String)
  | expr (op : Operator) (args : List Value)
  /-- The current row of the innermost sequence. -/
  | row
  /-- Stands for the parameter with a number in a call of a function. -/
  | placeholder (n : Nat)
  | func (face : Face) (body : List Nat → Except Failure Value)

namespace Value

instance : Inhabited Value := ⟨.null⟩

/-- An expression as an operator and its arguments. -/
def node? : Value → Option (Operator × List Value)
  | expr op args => some (op, args)
  | row => some (.verb .implicitVar, [])
  | placeholder n => some (.verb .var, [.int n])
  | _ => none

/-- The name of a value's class. -/
def typeName : Value → String
  | null => "NoneType"
  | bool _ => "bool"
  | int _ => "int"
  | double _ => "float"
  | fraction .. => "Fraction"
  | text _ => "str"
  | list _ => "list"
  | tuple _ => "tuple"
  | dict _ => "dict"
  | mapping _ => "mappingproxy"
  | moment _ => "datetime"
  | duration _ => "timedelta"
  | slice .. => "slice"
  | absent => "_NoArg"
  | tableSpec .. => "TableSpec"
  | bytes _ => "bytes"
  | set _ => "set"
  | complex .. => "complex"
  | decimal _ => "Decimal"
  | operator _ => "Kind"
  | object className _ => className
  | expr .. | row | placeholder _ => "Expr"
  | func face _ => face.typeName

/-- The name of a value's class with the module that it lives in, for the classes that
are known by both. -/
def qualifiedTypeName : Value → String
  | moment _ => "datetime.datetime"
  | duration _ => "datetime.timedelta"
  | decimal _ => "decimal.Decimal"
  | v => v.typeName

/-- What is missing when a value is asked for a member that it does not have. -/
def noMember (v : Value) (member : String) : Fault :=
  match v with
  | func face _ =>
    if face.isType then .noClassAttribute face.name member
    else .noAttribute face.typeName member
  | _ => .noAttribute v.qualifiedTypeName member

def isExpr : Value → Bool
  | expr .. | row | placeholder _ => true
  | _ => false

def isAbsent : Value → Bool
  | absent => true
  | _ => false

def isNull : Value → Bool
  | null => true
  | _ => false

/-- The value can be called. -/
def isCallable : Value → Bool
  | func .. => true
  | _ => false

/-- Whether a value counts as true where a condition is asked for. -/
def truthy : Value → Bool
  | null | absent => false
  | bool b => b
  | int n => n != 0
  | double x => !x.isZero
  | fraction num _ => num != 0
  | text s => !s.isEmpty
  | list items | tuple items | set items => !items.isEmpty
  | dict entries | mapping entries => !entries.isEmpty
  | duration d => d.micros != 0
  | bytes bs => !bs.isEmpty
  | complex re im => !(re.isZero && im.isZero)
  | decimal n => !n.isZero
  | moment _ | slice .. | tableSpec .. | operator _ | object .. | expr .. | row
  | placeholder _ | func .. => true

/-- The text of a value that is a text. -/
def text? : Value → Option String
  | text s => some s
  | _ => none

/-- The value is one of the given texts. -/
def isOneOf (v : Value) (choices : List String) : Bool :=
  match v with
  | text s => choices.contains s
  | _ => false

/-- A text with more than blanks in it. -/
def isName : Value → Bool
  | text s => !Text.allBlank s
  | _ => false

end Value

end QueryDriver
