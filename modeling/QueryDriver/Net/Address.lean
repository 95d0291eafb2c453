import QueryDriver.Net.Endpoint
import QueryDriver.Text.Digit
import QueryDriver.Text.Quoted
import QueryDriver.Value

/-! # Addresses

An address names a host and, behind a colon, a port. A host with colons of its own
stands between square brackets, or without a port. The port is an integer as the host
language reads one: blanks around it, a sign, digits of any script, and single
underscores between digits are allowed.
-/

namespace QueryDriver.Net

/-- The blanks that may stand around a number. -/
def isNumberBlank (c : Char) : Bool :=
  Text.isBlank c && !(0x1c ≤ c.toNat && c.toNat ≤ 0x1f)

/-- The digits of a number without the underscores between them; none when an underscore
does not stand between two digits. -/
def joinDigits? : List Char → Option (List Char)
  | [] => none
  | [c] => if (Text.digitValue? c).isSome then some [c] else none
  | c :: '_' :: rest =>
    if (Text.digitValue? c).isSome then (joinDigits? rest).map (c :: ·) else none
  | c :: rest => if (Text.digitValue? c).isSome then (joinDigits? rest).map (c :: ·) else none

/-- The most digits that a number is read with. -/
def digitLimit : Nat := 4300

/-- Reads a natural number. -/
def readNatural? (cs : List Char) : Option Nat := do
  let digits ← joinDigits? cs
  if digits.length ≤ digitLimit then Text.readDigits digits else none

/-- A list of characters without the blanks around a number. -/
def stripNumber (cs : List Char) : List Char :=
  ((cs.dropWhile isNumberBlank).reverse.dropWhile isNumberBlank).reverse

/-- Reads an integer. -/
def readInteger? (cs : List Char) : Option Int :=
  match stripNumber cs with
  | '-' :: digits => (readNatural? digits).map fun n => -(n : Int)
  | '+' :: digits => (readNatural? digits).map fun n => (n : Int)
  | digits => (readNatural? digits).map fun n => (n : Int)

/-- Splits a list of characters at the first occurrence of one, which goes to neither
part; none when it does not occur. -/
def splitAt? (c : Char) (cs : List Char) : Option (List Char × List Char) :=
  let before := cs.takeWhile (· != c)
  match cs.drop before.length with
  | [] => none
  | _ :: after => some (before, after)

/-- Host and port of an address without blanks around it, the port empty where there is
none; none for a bracket that is not closed. -/
def splitAddress? (cs : List Char) : Option (List Char × List Char) :=
  match cs with
  | '[' :: rest =>
    (splitAt? ']' rest).map fun p =>
      (p.1, match p.2 with
        | ':' :: port => port
        | _ => [])
  | _ =>
    if cs.count ':' = 1 then splitAt? ':' cs else some (cs, [])

/-- Reads an address; `defaultPort` is the port of one that names none. -/
def parseAddress (text : String) (defaultPort : Nat) : Except Fault Endpoint :=
  if Text.allBlank text then .error (.notName "address")
  else
    let address := Text.trim text
    match splitAddress? address.toList with
    | none => .error (.badAddress address)
    | some (host, []) => .ok ⟨String.ofList host, defaultPort⟩
    | some (host, port) =>
      match readInteger? port with
      | none => .error (.badPort address)
      | some n =>
        if 0 < n ∧ n < 65536 then .ok ⟨String.ofList host, n.toNat⟩
        else .error (.portOutOfRange address)

/-- Reads an address from a value, which has to be a text. -/
def addressOf (v : Value) (defaultPort : Nat) : Except Failure Endpoint :=
  match v with
  | .text s =>
    match parseAddress s defaultPort with
    | .ok e => .ok e
    | .error f => .error (.fault f)
  | _ => .error (.fault (.notName "address"))

end QueryDriver.Net
