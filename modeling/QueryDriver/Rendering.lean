import QueryDriver.Value.Arity
import QueryDriver.Text.Quoted

/-! # Expressions as text

An expression is rendered as the text that builds it. A callable is rendered by calling
it with placeholders, which are numbered as they are met; when that fails, its name
stands in its place, and the numbers that it took stay taken.

Rendering is a fold over the value. For every part the fold keeps a `Sketch`, which
holds the ways in which a part may be written: as a part of an expression, as a function
under a hint on its parameters, as the host shows it by itself, and as it stands inside a
text. What is written for a node is then a plain function of the sketches of its arguments.
-/

namespace QueryDriver

/-- The state of a rendering. -/
structure RenderState where
  /-- The number of the next placeholder. -/
  next : Nat
  /-- How many calls of callables were made. -/
  calls : Nat

abbrev Rendering := ExceptT Failure (StateM RenderState)

/-- The ways in which a part of an expression may be written. -/
structure Sketch where
  value : Value
  /-- As a part of an expression. -/
  text : Rendering String
  /-- As a function, under a hint on the number of its parameters. -/
  applied : Value → Rendering String
  /-- As the host shows it by itself. -/
  shown : Rendering String
  /-- Inside a text. -/
  display : Rendering String

namespace Rendering

def fail {α : Type} (f : Failure) : Rendering α := throw f

/-- Hands out the numbers of `count` placeholders. -/
def takePlaceholders (count : Nat) : Rendering (List Nat) := do
  let s ← get
  set { s with next := s.next + count }
  return List.range' s.next count

/-- Runs with placeholders numbered from one, and goes on with the old numbers. -/
def withFreshNumbers (action : Rendering String) : Rendering String := do
  let s ← get
  set { s with next := 1 }
  try
    let text ← action
    modify fun t => { t with next := s.next }
    return text
  catch e =>
    modify fun t => { t with next := s.next }
    throw e

/-- Runs a list of renderings from left to right. -/
def each (actions : List (Rendering String)) : Rendering (List String) := actions.mapM id

/-- Counts a call of a callable. -/
def countCall (face : Face) : Rendering Unit :=
  if face.isCounted then modify fun s => { s with calls := s.calls + 1 } else pure ()

/-- What a placeholder is called. -/
def placeholderName (n : Nat) : String := "var_" ++ Layout.digits n

/-- A callable as the function that it stands for, `run` being the rendering of what it
returns. -/
def function (face : Face) (hint : Value) (run : List Nat → Rendering String) :
    Rendering String :=
  try
    let count ← liftM (face.placeholders hint)
    let numbers ← takePlaceholders count
    let _ ← liftM (face.admits count)
    countCall face
    let body ← run numbers
    let names := Text.commaList (numbers.map placeholderName)
    return (if numbers.isEmpty then "lambda: " else "lambda " ++ names ++ ": ") ++ body
  catch _ => return "<function " ++ face.name ++ ">"

end Rendering

/-- The number of a complex number's part. -/
def complexPart (x : Double) : String :=
  match x.special? with
  | some s => s
  | none => Layout.write ⟨-4, 16, false⟩ x.negative (if x.isZero then ⟨0, 0⟩ else x.shortest)

/-- A complex number. -/
def complexText (re im : Double) : String :=
  if re.isZero && !re.negative then complexPart im ++ "j"
  else
    let imaginary := complexPart im
    "(" ++ complexPart re ++ (if imaginary.startsWith "-" then "" else "+") ++ imaginary ++ "j)"

namespace Sketch

/-- The sketch of an argument that has to be there. -/
def arg (args : List Sketch) (i : Nat) : Rendering Sketch :=
  match args[i]? with
  | some s => pure s
  | none => throw (.fault (.outOfRange .list))

/-- The rendering of an argument that has to be an expression. -/
def node (s : Sketch) : Rendering String :=
  if s.value.isExpr then s.text
  else throw (.fault (s.value.noMember "kind"))

/-- The arguments between the brackets of a call. The last argument of some verbs is
given by keyword; it is rendered first. -/
def callArgs (op : Operator) (args : List Sketch) : Rendering String := do
  let trailing := match op with
    | .verb v => v.trailing?
    | _ => none
  match trailing, args.getLast? with
  | some keyword, some last =>
    let named ← if last.value.isAbsent then pure []
      else do
        let text ← last.text
        pure [keyword ++ "=" ++ text]
    let parts ← Rendering.each ((args.dropLast.filter fun s => !s.value.isAbsent).map (·.text))
    return Text.commaList (parts ++ named)
  | _, _ =>
    let parts ← Rendering.each ((args.filter fun s => !s.value.isAbsent).map (·.text))
    return Text.commaList parts

/-- A setting behind what it is set on. -/
def setting (s : Setting) (args : List Sketch) : Rendering String :=
  match args with
  | [inner, value] => do
    let shown ← if s = .returnValues then pure "" else value.shown
    let receiver ← inner.node
    return receiver ++ "." ++ s.label ++ "(" ++ shown ++ ")"
  | _ => throw (.fault (.unpacked args.length))

/-- A call of a function: behind its argument if that is a single expression, else with
the function last. -/
def call (args : List Sketch) : Rendering String := do
  let function ← arg args 0
  let operands := args.drop 1
  match operands with
  | [operand] =>
    if operand.value.isExpr then do
      let receiver ← operand.text
      let body ← function.text
      return receiver ++ ".do(" ++ body ++ ")"
    else do
      let parts ← Rendering.each [operand.text, function.text]
      return "r.do(" ++ Text.commaList parts ++ ")"
  | _ => do
    let parts ← Rendering.each (operands.map (·.text) ++ [function.text])
    return "r.do(" ++ Text.commaList parts ++ ")"

/-- A node as a method call on its first argument, or as a function call. -/
def plain (op : Operator) (args : List Sketch) : Rendering String := do
  match args with
  | first :: others =>
    if op.standsAlone || !first.value.isExpr then do
      let inner ← callArgs op args
      return "r." ++ op.label ++ "(" ++ inner ++ ")"
    else do
      let receiver ← first.text
      let inner ← callArgs op others
      return receiver ++ "." ++ op.label ++ "(" ++ inner ++ ")"
  | [] => return "r." ++ op.label ++ "()"

/-- A node from the sketches of its arguments. -/
def ofNode (op : Operator) (args : List Sketch) : Rendering String :=
  match op with
  | .literal => do
    let value ← arg args 0
    let text ← value.text
    return "r.expr(" ++ text ++ ")"
  | .func => do
    let body ← arg args 0
    let hint ← arg args 1
    body.applied hint.value
  | .setting s => setting s args
  | .verb .implicitVar => return "r.row"
  | .verb .var => do
    let number ← arg args 0
    let text ← number.display
    return "var_" ++ text
  | .verb .field => do
    let receiver ← arg args 0
    let text ← receiver.text
    let name ← arg args 1
    let shown ← name.shown
    return text ++ "[" ++ shown ++ "]"
  | .verb .call => call args
  | .verb _ => plain op args

/-- Items between brackets, as a part of an expression. -/
def items (parts : List Sketch) : Rendering String := do
  let texts ← Rendering.each (parts.map (·.text))
  return "[" ++ Text.commaList texts ++ "]"

/-- The items of a container, as the host shows them. -/
def shownItems (parts : List Sketch) : Rendering String := do
  let texts ← Rendering.each (parts.map (·.shown))
  return Text.commaList texts

/-- An entry: its key as the host shows it, and its value. -/
def entry (key : Rendering String) (value : Rendering String) : Rendering String := do
  let k ← key
  let v ← value
  return k ++ ": " ++ v

/-- Entries between braces. -/
def entries (parts : List (Rendering String)) : Rendering String := do
  let texts ← Rendering.each parts
  return "\x7b" ++ Text.commaList texts ++ "\x7d"

/-- The sketch of a value that is written in two ways, inside an expression and by
itself. -/
def of (v : Value) (text shown : Rendering String) : Sketch :=
  ⟨v, text, fun _ => text, shown, shown⟩

/-- The sketch of a value that is always written alike. -/
def leaf (v : Value) (text : String) : Sketch := of v (pure text) (pure text)

/-- The sketch of a value that is written in another way inside a text. -/
def labelled (v : Value) (text display : String) : Sketch :=
  { leaf v text with display := pure display }

/-- The options for creating a table. -/
def tableSpec (name durability : String) (primaryKey datacenter cacheSize : Sketch) :
    Rendering String := do
  let p ← primaryKey.shown
  let d ← datacenter.shown
  let c ← cacheSize.shown
  return "TableSpec(name=" ++ Text.quoted name ++ ", primary_key=" ++ p ++ ", datacenter=" ++ d
    ++ ", cache_size=" ++ c ++ ", durability=" ++ Text.quoted durability ++ ")"

/-- Parts as the host shows them, between a beginning and an end. -/
def enclosed (opening closing : String) (parts : List Sketch) : Rendering String := do
  let inner ← shownItems parts
  return opening ++ inner ++ closing

end Sketch

namespace Value

mutual

/-- The ways in which a value is written. -/
def sketch : Value → Sketch
  | .null => .leaf .null "None"
  | .bool b => .leaf (.bool b) (if b then "True" else "False")
  | .int n => .leaf (.int n) (toString n)
  | .double x => .leaf (.double x) x.text
  | .fraction num den =>
    .labelled (.fraction num den) ("Fraction(" ++ toString num ++ ", " ++ Layout.digits den ++ ")")
      (if den = 1 then toString num else toString num ++ "/" ++ Layout.digits den)
  | .text s => .labelled (.text s) (Text.quoted s) s
  | .list vs =>
    let parts := sketches vs
    .of (.list vs) (Sketch.items parts) (Sketch.enclosed "[" "]" parts)
  | .tuple vs =>
    let parts := sketches vs
    .of (.tuple vs) (Sketch.items parts)
      (Sketch.enclosed "(" (if vs.length = 1 then ",)" else ")") parts)
  | .dict es =>
    let parts := entrySketches es
    .of (.dict es) (Sketch.entries (parts.map fun e => Sketch.entry e.1.shown e.2.text))
      (Sketch.entries (parts.map fun e => Sketch.entry e.1.shown e.2.shown))
  | .mapping es =>
    let parts := entrySketches es
    let inner := Sketch.entries (parts.map fun e => Sketch.entry e.1.shown e.2.shown)
    let shown : Rendering String := do
      let text ← inner
      return "mappingproxy(" ++ text ++ ")"
    { Sketch.of (.mapping es) shown shown with display := inner }
  | .moment t => .labelled (.moment t) t.shown t.text
  | .duration d => .labelled (.duration d) d.shown d.text
  | .slice start stop step =>
    let shown := Sketch.enclosed "slice(" ")" [sketch start, sketch stop, sketch step]
    .of (.slice start stop step) shown shown
  | .absent => .leaf .absent "NO_ARG"
  | .tableSpec name primaryKey datacenter cacheSize durability =>
    let shown := Sketch.tableSpec name durability (sketch primaryKey) (sketch datacenter)
      (sketch cacheSize)
    .of (.tableSpec name primaryKey datacenter cacheSize durability) shown shown
  | .bytes bs => .leaf (.bytes bs) (Text.quotedBytes bs)
  | .set vs =>
    let shown := if vs.isEmpty then pure "set()" else Sketch.enclosed "\x7b" "\x7d" (sketches vs)
    .of (.set vs) shown shown
  | .complex re im => .leaf (.complex re im) (complexText re im)
  | .decimal n => .labelled (.decimal n) ("Decimal('" ++ n.text ++ "')") n.text
  | .operator o =>
    .labelled (.operator o) ("<Kind." ++ o.word ++ ": " ++ Text.quoted o.label ++ ">")
      ("Kind." ++ o.word)
  | .object className shown =>
    let action := match shown with
      | .ok s => pure s
      | .error t => Rendering.fail (.fault (.unprintable t))
    .of (.object className shown) action action
  | .expr op args =>
    let node := Sketch.ofNode op (sketches args)
    .of (.expr op args) node (Rendering.withFreshNumbers node)
  | .row => .leaf .row "r.row"
  | .placeholder n => .leaf (.placeholder n) (Rendering.placeholderName n)
  | .func face body =>
    let applied := fun hint => Rendering.function face hint fun ns => sketchResult (body ns)
    ⟨.func face body, applied (.int (-1)), applied, pure face.shown, pure face.shown⟩

/-- The sketches of a list of values. -/
def sketches : List Value → List Sketch
  | [] => []
  | v :: vs => sketch v :: sketches vs

/-- The sketches of the keys and values of entries. -/
def entrySketches : List (Value × Value) → List (Sketch × Sketch)
  | [] => []
  | (k, v) :: es => (sketch k, sketch v) :: entrySketches es

/-- The rendering of what a callable returns. -/
def sketchResult : Except Failure Value → Rendering String
  | .ok v => (sketch v).text
  | .error f => throw f

end

/-- The text of an expression, and how many calls of callables it took. -/
def format (v : Value) : Except Failure String × Nat :=
  let (result, s) := v.sketch.text.run ⟨1, 0⟩
  (result, s.calls)

/-- The text of an expression, none when it cannot be rendered. -/
def describe (v : Value) : Option String × Nat :=
  let (result, calls) := v.format
  (result.toOption, calls)

/-- A value inside a text. -/
def display (v : Value) : Except Failure String := (v.sketch.display.run ⟨1, 0⟩).1

/-- A value as the host shows it by itself. -/
def shown (v : Value) : Except Failure String := (v.sketch.shown.run ⟨1, 0⟩).1

/-- How many placeholders a value asks for when it is called, none for any number. A
value that cannot be called cannot be inspected either. -/
def arity (v : Value) : Except Failure (Option Nat) :=
  match v with
  | .func face _ =>
    match face.arity with
    | .ok n => .ok n
    | .error cause => .error (.ofCause cause)
  | _ => do
    let text ← v.shown
    throw (.ofCause (.uninspectable text (text ++ " is not a callable object")))

end Value

end QueryDriver
