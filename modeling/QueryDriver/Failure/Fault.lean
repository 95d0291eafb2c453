import QueryDriver.Text.Quoted
import QueryDriver.Time.Duration

/-! # Faults

A fault is a failure outside the classes of driver errors: a builder called with an
argument that it does not take, a host value that cannot be used as it is, or
whatever a callable raises. Each constructor is one cause; `Fault.message` has the
wording, and `Fault.shown` is how a fault appears inside the message of an error that
wraps it.
-/

namespace QueryDriver

/-- The class of a fault. -/
inductive FaultKind where
  | value | type | overflow | division | decimal | index | member | runtime | os | recursion
  /-- A class named by who raised it. -/
  | named (word : String)
deriving DecidableEq

def FaultKind.word : FaultKind → String
  | .value => "ValueError"
  | .type => "TypeError"
  | .overflow => "OverflowError"
  | .division => "ZeroDivisionError"
  | .decimal => "InvalidOperation"
  | .index => "IndexError"
  | .member => "AttributeError"
  | .runtime => "RuntimeError"
  | .os => "OSError"
  | .recursion => "RecursionError"
  | .named w => w

/-- Where an item was looked for that is not there. -/
inductive Shelf where
  | list | tuple | emptied
deriving DecidableEq

/-- The causes of faults. -/
inductive Fault where
  /-- Raised by a callable, with its class and text. -/
  | raised (word text : String)
  /-- A name that has to be a text with more than blanks in it. -/
  | notName (role : String)
  /-- A text that has to be one of a few. -/
  | notChoice (role : String) (choices : List String)
  /-- A count that has to be an integer from zero on. -/
  | notCount (role : String)
  /-- A builder that needs at least one more argument. -/
  | tooFew (builder what : String)
  | timeArguments
  | steppedSlice
  | badIndex
  | notIterable
  | notAnOperator
  | immutable
  | notATableSpec
  | badArity
  | badAddress (address : String)
  | badPort (address : String)
  | portOutOfRange (address : String)
  | timeoutNotPositive
  | timeoutNotNumber
  | offsetOutOfRange (offset : Duration)
  | yearOutOfRange (year : Int)
  | dayOutOfRange
  /-- A part of a date or of a time of day that is not between its bounds. -/
  | clockOutOfRange (part : String) (least most : Nat)
  | zoneNotText (typeName : String)
  | zoneIsBytes
  | integerTooLarge
  | fractionTooLarge
  | durationTooLong (days : Int)
  | machineIntegerExceeded
  /-- An integer with too many digits to be read. -/
  | tooManyDigits (count limit : Nat)
  | divisionByZero (num : Int)
  | malformedDecimal
  /-- A decimal that is out of range, or a comparison with one that is no number. -/
  | invalidDecimal
  | integerFromInfinity
  | integerFromNaN
  | outOfRange (shelf : Shelf)
  | unpacked (count : Nat)
  | cannotIterate (typeName : String)
  | cannotCompare (operator left right : String)
  | cannotCount (typeName : String)
  | notCallable (typeName : String)
  | unhashable (typeName : String)
  | unhashableSignal
  | noLength (typeName : String)
  | noAttribute (typeName member : String)
  | noClassAttribute (className member : String)
  /-- There is no function of that name that starts an expression. -/
  | noFunction (name : String)
  | missing (callee : String) (keywordOnly : Bool) (names : List String)
  | tooMany (callee : String) (least most given : Nat)
  | unexpectedKeyword (callee name : String)
  | repeatedArgument (callee name : String)
  | summaryNotObject
  | counterNotNumber (field : String)
  | keysNotList
  | firstErrorNotText
  | unprintable (text : String)
  | socket (text : String)
  /-- A token for which a message has no room. -/
  | tokenOutOfRange (token : Nat)
  | optionsTooDeep
deriving DecidableEq

namespace Fault

/-- Names between apostrophes, joined as in a sentence. -/
def nameList (names : List String) : String :=
  match names.map fun n => "'" ++ n ++ "'" with
  | [] => ""
  | [a] => a
  | [a, b] => a ++ " and " ++ b
  | many => String.intercalate ", " many.dropLast ++ ", and " ++ many.getLastD ""

/-- A noun with its plural ending unless there is one. -/
def plural (n : Nat) (noun : String) : String := if n = 1 then noun else noun ++ "s"

def kind : Fault → FaultKind
  | raised word _ => .named word
  | notName _ | notChoice .. | notCount _ | tooFew .. | timeArguments | steppedSlice | badArity
  | badAddress _ | badPort _ | portOutOfRange _ | timeoutNotPositive | offsetOutOfRange _
  | yearOutOfRange _ | dayOutOfRange | clockOutOfRange .. | tooManyDigits ..
  | integerFromNaN | unpacked _ | tokenOutOfRange _ => .value
  | badIndex | notIterable | notAnOperator | notATableSpec | timeoutNotNumber | zoneNotText _
  | zoneIsBytes | cannotIterate _ | cannotCompare .. | cannotCount _ | notCallable _ | unhashable _
  | unhashableSignal | noLength _ | missing .. | tooMany .. | unexpectedKeyword ..
  | repeatedArgument .. | summaryNotObject
  | counterNotNumber _ | keysNotList | firstErrorNotText => .type
  | integerTooLarge | fractionTooLarge | durationTooLong _ | machineIntegerExceeded
  | integerFromInfinity => .overflow
  | divisionByZero _ => .division
  | malformedDecimal | invalidDecimal => .decimal
  | outOfRange _ => .index
  | immutable | noAttribute .. | noClassAttribute .. | noFunction _ => .member
  | unprintable _ => .runtime
  | socket _ => .os
  | optionsTooDeep => .recursion

/-- The text that a fault was made with. -/
def text : Fault → String
  | raised _ t => t
  | notName role => role ++ " must be a non-empty string"
  | notChoice role choices =>
    role ++ " must be " ++ String.intercalate " or " (choices.map Text.quoted)
  | notCount role => role ++ " must be a non-negative integer"
  | tooFew builder what => builder ++ "() requires " ++ what
  | timeArguments =>
    "time() takes a timezone, optionally preceded by hours, minutes and seconds"
  | steppedSlice => "slices with a step are not supported"
  | badIndex => "expression index must be a string, integer or slice"
  | notIterable => "expressions are not iterable; run them to get a cursor"
  | notAnOperator => "expression kind must be a Kind"
  | immutable => "expressions are immutable"
  | notATableSpec => "table_create() requires a table name or TableSpec"
  | badArity => "arity must be -1 or a non-negative integer"
  | badAddress address => "invalid address: " ++ Text.quoted address
  | badPort address => "invalid port in address: " ++ Text.quoted address
  | portOutOfRange address => "port out of range in address: " ++ Text.quoted address
  | timeoutNotPositive => "timeout must be positive"
  | timeoutNotNumber => "timeout must be a number of seconds, a timedelta or None"
  | offsetOutOfRange offset =>
    "offset must be a timedelta strictly between -timedelta(hours=24) and timedelta(hours=24), not "
      ++ offset.shown ++ "."
  | yearOutOfRange year => "year " ++ toString year ++ " is out of range"
  | dayOutOfRange => "day is out of range for month"
  | clockOutOfRange part least most =>
    part ++ " must be in " ++ Layout.digits least ++ ".." ++ Layout.digits most
  | zoneIsBytes => "cannot use a string pattern on a bytes-like object"
  | zoneNotText typeName => "expected string or bytes-like object, got '" ++ typeName ++ "'"
  | integerTooLarge => "int too large to convert to float"
  | fractionTooLarge => "integer division result too large for a float"
  | durationTooLong days =>
    "days=" ++ toString days ++ "; must have magnitude <= 999999999"
  | machineIntegerExceeded => "Python int too large to convert to C int"
  | tooManyDigits count limit =>
    "Exceeds the limit (" ++ Layout.digits limit
      ++ " digits) for integer string conversion: value has " ++ Layout.digits count
      ++ " digits; use sys.set_int_max_str_digits() to increase the limit"
  | divisionByZero num => "Fraction(" ++ toString num ++ ", 0)"
  | malformedDecimal => "[<class 'decimal.ConversionSyntax'>]"
  | invalidDecimal => "[<class 'decimal.InvalidOperation'>]"
  | integerFromInfinity => "cannot convert float infinity to integer"
  | integerFromNaN => "cannot convert float NaN to integer"
  | outOfRange .list => "list index out of range"
  | outOfRange .tuple => "tuple index out of range"
  | outOfRange .emptied => "pop from empty list"
  | unpacked count =>
    if count < 2 then
      "not enough values to unpack (expected 2, got " ++ Layout.digits count ++ ")"
    else "too many values to unpack (expected 2)"
  | cannotIterate typeName => "'" ++ typeName ++ "' object is not iterable"
  | cannotCompare operator left right =>
    "'" ++ operator ++ "' not supported between instances of '" ++ left ++ "' and '" ++ right ++ "'"
  | cannotCount typeName =>
    "'" ++ typeName ++ "' object cannot be interpreted as an integer"
  | notCallable typeName => "'" ++ typeName ++ "' object is not callable"
  | unhashable typeName => "unhashable type: '" ++ typeName ++ "'"
  | unhashableSignal => "Cannot hash a signaling NaN value"
  | noLength typeName => "object of type '" ++ typeName ++ "' has no len()"
  | noAttribute typeName member =>
    "'" ++ typeName ++ "' object has no attribute '" ++ member ++ "'"
  | noClassAttribute className member =>
    "type object '" ++ className ++ "' has no attribute '" ++ member ++ "'"
  | noFunction name => "module 'reql.query' has no attribute '" ++ name ++ "'"
  | missing callee keywordOnly names =>
    callee ++ "() missing " ++ Layout.digits names.length ++ " required "
      ++ (if keywordOnly then "keyword-only " else "positional ")
      ++ plural names.length "argument" ++ ": " ++ nameList names
  | tooMany callee least most given =>
    callee ++ "() takes "
      ++ (if least = most then "" else "from " ++ Layout.digits least ++ " to ")
      ++ Layout.digits most ++ " positional "
      ++ (if least = most then plural most "argument" else "arguments") ++ " but "
      ++ Layout.digits given ++ (if given = 1 then " was given" else " were given")
  | unexpectedKeyword callee name =>
    callee ++ "() got an unexpected keyword argument '" ++ name ++ "'"
  | repeatedArgument callee name =>
    callee ++ "() got multiple values for argument '" ++ name ++ "'"
  | summaryNotObject => "write response must be an object"
  | counterNotNumber field => "write response field '" ++ field ++ "' must be a number"
  | keysNotList => "generated_keys must be a list when present"
  | firstErrorNotText => "first_error must be a string when present"
  | unprintable t => t
  | socket t => t
  | tokenOutOfRange token => "Value out of range: " ++ Layout.digits token
  | optionsTooDeep => "maximum recursion depth exceeded"

/-- The wording of a fault. A missing key is shown between quotes. -/
def message (f : Fault) : String :=
  if f.kind = .named "KeyError" then Text.quoted f.text else f.text

/-- A fault as it appears inside the message of another error. Its text stands between
quotes, unless it is the list of what is wrong with a decimal. -/
def shown (f : Fault) : String :=
  f.kind.word ++ "(" ++ (if f.kind = .decimal then f.text else Text.quoted f.text) ++ ")"

end Fault

end QueryDriver
