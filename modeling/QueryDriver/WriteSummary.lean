import QueryDriver.Failure
import QueryDriver.Value.Keys

/-! # Summaries of writes

The server answers a write with an object that counts what was done. `normalise` makes
every counter an integer: numbers are cut toward zero, and a counter that is missing is
entered as zero behind the entries that are there. All other entries are kept; two of
them are checked.
-/

namespace QueryDriver.WriteSummary

/-- The counters, in the order in which missing ones are entered. -/
def counters : List String :=
  ["inserted", "errors", "updated", "skipped", "replaced", "unchanged", "deleted"]

/-- The integer that a counter is read as. -/
def count (field : String) (v : Value) : Except Fault Int :=
  match v with
  | .int n => .ok n
  | .double x =>
    if x.isNaN then .error .integerFromNaN
    else if x.isInfinite then .error .integerFromInfinity
    else .ok x.truncate
  | _ => .error (.counterNotNumber field)

/-- Makes one counter an integer. -/
def enter (entries : List (Value × Value)) (field : String) :
    Except Fault (List (Value × Value)) := do
  let n ← count field ((Value.lookup entries field).getD (.int 0))
  return Value.insertKey entries (.text field) (.int n)

/-- The entry under a key is missing, null, or as it has to be. -/
def isFine (entries : List (Value × Value)) (key : String) (fine : Value → Bool) : Bool :=
  match Value.lookup entries key with
  | none | some .null => true
  | some v => fine v

def isList : Value → Bool
  | .list _ => true
  | _ => false

def isText : Value → Bool
  | .text _ => true
  | _ => false

/-- The summary with all its counters as integers. -/
def normaliseEntries (entries : List (Value × Value)) : Except Fault (List (Value × Value)) := do
  let entries ← counters.foldlM enter entries
  if !isFine entries "generated_keys" isList then throw .keysNotList
  if !isFine entries "first_error" isText then throw .firstErrorNotText
  return entries

/-- The summary that an answer of the server stands for. -/
def normalise (v : Value) : Except Fault Value :=
  match v with
  | .dict entries | .mapping entries => (normaliseEntries entries).map .dict
  | _ => .error .summaryNotObject

end QueryDriver.WriteSummary
