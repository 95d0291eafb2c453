import QueryDriver.Number.Layout
import QueryDriver.Text.Blank
import QueryDriver.Wire.Message

/-! # Messages as text

A message is shown one field a line in ascending order of the field numbers, a
nested message between braces on lines of its own, two blanks deeper. Only fields
that are set are shown.

The text is first laid out as lines, each with its depth, and joined at the end, so
that the two spellings in use differ in two parameters alone: how many blanks stand
in front of every line, and how a double is written. `Query.logText` and its kin are
the spelling of the log, `Datum.detail` is the spelling of error details.
-/

namespace QueryDriver.Wire

/-- A line of a message with its depth. -/
abbrev Lines := List (Nat × String)

/-- The octal digits of a byte, three of them. -/
def octal (n : Nat) : List Char :=
  [n / 64 % 8, n / 8 % 8, n % 8].map fun d => (Nat.toDigits 8 d).headD '0'

/-- How a character of a text field is written. -/
def escapeInMessage (c : Char) : List Char :=
  if c = '\n' then ['\\', 'n']
  else if c = '\r' then ['\\', 'r']
  else if c = '\t' then ['\\', 't']
  else if c = '\x22' ∨ c = '\x27' ∨ c = '\\' then ['\\', c]
  else if c.toNat < 32 ∨ c.toNat = 127 then '\\' :: octal c.toNat
  else [c]

/-- A text field's value. -/
def quotedInMessage (s : String) : String :=
  String.ofList ('\x22' :: (s.toList.flatMap escapeInMessage ++ ['\x22']))

/-- The line of a field that may be absent. -/
def scalarLine {α : Type} (depth : Nat) (name : String) (write : α → String) : Option α → Lines
  | none => []
  | some a => [(depth, name ++ ": " ++ write a)]

def integerText (n : Int) : String := toString n

/-- The lines of a nested message, framed by its name. -/
def block (depth : Nat) (name : String) (body : Lines) : Lines :=
  (depth, name ++ " \x7b") :: (body ++ [(depth, "\x7d")])

def boolText (b : Bool) : String := if b then "true" else "false"

mutual

/-- The lines of a datum, its doubles written by `write`. -/
def Datum.lines (write : Double → String) (depth : Nat) : Datum → Lines
  | ⟨tag, flag, number, text, items, entries⟩ =>
    scalarLine depth "type" (fun n => integerText n.toInt) tag
      ++ scalarLine depth "r_bool" boolText flag
      ++ scalarLine depth "r_num" write number
      ++ scalarLine depth "r_str" quotedInMessage text
      ++ Datum.itemLines write depth items ++ Datum.entryLines write depth entries

def Datum.itemLines (write : Double → String) (depth : Nat) : List Datum → Lines
  | [] => []
  | d :: ds =>
    block depth "r_array" (d.lines write (depth + 1)) ++ Datum.itemLines write depth ds

def Datum.entryLines (write : Double → String) (depth : Nat) :
    List (Option String × Option Datum) → Lines
  | [] => []
  | (key, value) :: es =>
    block depth "r_object"
      (scalarLine (depth + 1) "key" quotedInMessage key ++ Datum.valueLines write (depth + 1) value)
      ++ Datum.entryLines write depth es

def Datum.valueLines (write : Double → String) (depth : Nat) : Option Datum → Lines
  | none => []
  | some d => block depth "val" (d.lines write (depth + 1))

end

mutual

/-- The lines of a term. -/
def Term.lines (write : Double → String) (depth : Nat) : Term → Lines
  | ⟨tag, datum, args, options⟩ =>
    scalarLine depth "type" (fun n => integerText n.toInt) tag
      ++ (match datum with
        | none => []
        | some d => block depth "datum" (d.lines write (depth + 1)))
      ++ Term.argLines write depth args ++ Term.optionLines write depth "optargs" options

def Term.argLines (write : Double → String) (depth : Nat) : List Term → Lines
  | [] => []
  | t :: ts => block depth "args" (t.lines write (depth + 1)) ++ Term.argLines write depth ts

def Term.optionLines (write : Double → String) (depth : Nat) (name : String) :
    List (Option String × Option Term) → Lines
  | [] => []
  | (key, value) :: os =>
    block depth name
      (scalarLine (depth + 1) "key" quotedInMessage key ++ Term.valueLines write (depth + 1) value)
      ++ Term.optionLines write depth name os

def Term.valueLines (write : Double → String) (depth : Nat) : Option Term → Lines
  | none => []
  | some t => block depth "val" (t.lines write (depth + 1))

end

/-- The lines of a query. -/
def Query.lines (write : Double → String) (depth : Nat) (q : Query) : Lines :=
  scalarLine depth "type" (fun n => integerText n.toInt) q.tag
    ++ (match q.term with
      | none => []
      | some t => block depth "query" (t.lines write (depth + 1)))
    ++ scalarLine depth "token" (fun n => integerText n.toInt) q.token
    ++ scalarLine depth "OBSOLETE_noreply" boolText q.noreply
    ++ Term.optionLines write depth "global_optargs" q.options

/-- The lines of a step of a backtrace. -/
def Frame.lines (depth : Nat) (f : Frame) : Lines :=
  scalarLine depth "type" (fun n => integerText n.toInt) f.tag
    ++ scalarLine depth "pos" (fun n => integerText n.toInt) f.position
    ++ scalarLine depth "opt" quotedInMessage f.option

/-- The lines of a response. -/
def Response.lines (write : Double → String) (depth : Nat) (r : Response) : Lines :=
  scalarLine depth "type" (fun n => integerText n.toInt) r.tag
    ++ scalarLine depth "token" (fun n => integerText n.toInt) r.token
    ++ (r.values.flatMap fun d => block depth "response" (d.lines write (depth + 1)))
    ++ (match r.backtrace with
      | none => []
      | some fs => block depth "backtrace"
          (fs.flatMap fun f => block (depth + 1) "frames" (f.lines (depth + 2))))

/-- The lines one under the other, each moved by its depth. -/
def joinLines (lines : Lines) : String :=
  String.join (lines.map fun l => String.ofList (List.replicate (2 * l.1) ' ') ++ l.2 ++ "\n")

/-- The spelling of the log: every line two blanks in, doubles as expressions show them. -/
def indented (lines : Nat → Lines) : String := Text.trimEnd (joinLines (lines 1))

def Datum.logText (d : Datum) : String := indented fun depth => d.lines Double.text depth

def Term.logText (t : Term) : String := indented fun depth => t.lines Double.text depth

def Query.logText (q : Query) : String := indented fun depth => q.lines Double.text depth

def Response.logText (r : Response) : String := indented fun depth => r.lines Double.text depth

/-- The spelling of error details: no blanks in front, doubles in at most seventeen digits. -/
def Datum.detail (d : Datum) : String :=
  Text.trim (joinLines (d.lines Double.compactText 0))

end QueryDriver.Wire
