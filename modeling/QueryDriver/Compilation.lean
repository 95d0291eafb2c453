import QueryDriver.Codec.Unmarshal
import QueryDriver.Journal
import QueryDriver.Lowering

/-! # Queries from expressions

`compile` makes the query that starts an expression. Whatever goes wrong while the
expression is lowered comes back as a driver error with the rendered expression: an error
of the driver as it is, and a fault wrapped in an internal error. The time format that
was met first travels beside the term.
-/

namespace QueryDriver

open Wire

abbrev Compiling := ExceptT Failure (StateM Journal)

/-- Lowers a value with the shared numbers. The time format that was met is returned
with the term. -/
def lowerShared (v : Value) (scope : Scope) : Compiling (Term × Value) :=
  fun j =>
    let (result, p) := (v.lower scope).run ⟨j.next, j.calls, .text ""⟩
    (result.map fun t => (t, p.timeFormat), { j with next := p.next, calls := p.calls })

/-- The text of an expression for an error about it. -/
def describing (v : Value) : Compiling (Option String) := fun j =>
  let (text, j) := j.describe v
  (.ok text, j)

/-- A failure of lowering as the driver error that reports it. -/
def reported (v : Value) : Failure → Compiling DriverError
  | .driver e => do
    let query ← describing v
    return e.withQuery query
  | .fault f => do
    modify (·.record .compileFault)
    let query ← describing v
    return { DriverError.ofCause (.escaped f.kind.word f.shown) with query := query }

/-- The options that a query carries beside its term. -/
def queryOptions (timeFormat : Value) : Except Failure (List (Option String × Option Term)) :=
  if timeFormat.truthy then do
    let t ← timeFormat.marshal 0
    return [(some "time_format", some t)]
  else .ok []

/-- The query that starts an expression under a scope. -/
def compile (v : Value) (scope : Scope) (token : Int64) : Compiling Query := do
  let (root, timeFormat) ←
    try lowerShared v scope
    catch f => do
      let e ← reported v f
      throw (.driver e)
  let options ← liftM (queryOptions timeFormat)
  return { Query.empty with
    tag := some QueryType.start.code
    term := some root
    token := some token
    options := options }

/-- The time format that a query asks for: the value of its first option of that name,
or the native one. -/
def timeFormatOf (q : Query) : Except Failure Value :=
  match q.options.find? fun o => o.1.getD "" == "time_format" with
  | some (_, value) => Term.unmarshalValue .native 0 value
  | none => .ok (.text "native")

end QueryDriver
