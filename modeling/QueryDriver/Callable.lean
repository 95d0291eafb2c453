import QueryDriver.Failure

/-! # Callables seen from outside

A callable that stands for a function of the query language is known by its `Face`:
its name, how it is shown, and its signature, when it can be inspected. Operators
pass it placeholders by position, so the signature decides two things: the number of
placeholders that it asks for (`Signature.arity?`), and whether it takes the number
that it is given (`Signature.admits`).
-/

namespace QueryDriver

/-- The parameters of a callable. -/
structure Signature where
  /-- Positional parameters without a default. -/
  required : List String
  /-- Positional parameters with a default. -/
  defaulted : List String
  /-- Any further positional arguments are taken. -/
  variadic : Bool
  /-- Parameters that can only be given by keyword and have no default. -/
  keywordOnly : List String
deriving DecidableEq

namespace Signature

/-- The number of placeholders that an operator is expected to pass; none for a
callable that takes any number. -/
def arity? (s : Signature) : Option Nat := if s.variadic then none else some s.required.length

/-- Whether a call with `n` positional arguments binds, and what is wrong if not. -/
def admits (s : Signature) (callee : String) (n : Nat) : Except Fault Unit :=
  let most := s.required.length + s.defaulted.length
  if !s.variadic ∧ most < n then .error (.tooMany callee s.required.length most n)
  else if n < s.required.length then .error (.missing callee false (s.required.drop n))
  else if s.keywordOnly.isEmpty then .ok ()
  else .error (.missing callee true s.keywordOnly)

end Signature

/-- What is known of a callable without calling it. -/
structure Face where
  name : String
  /-- What messages about a call call it. -/
  callee : String
  shown : String
  typeName : String
  /-- The callable is a class, which is a value and not a function of the language. -/
  isType : Bool
  /-- The signature, or the reason why there is none. -/
  signature : Except String Signature

namespace Face

/-- What functions that are written in place are called. -/
def anonymous : String := "<lambda>"

/-- A function that is written in place and then given a name. -/
def function (name : String) (signature : Signature) : Face :=
  ⟨name, anonymous, "<function " ++ name ++ ">", "function", false, .ok signature⟩

/-- An object that passes calls on to a function that is written in place. It is known by
its class alone. -/
def object (className : String) (signature : Signature) : Face :=
  ⟨className, anonymous, "<" ++ className ++ ">", className, false, .ok signature⟩

/-- A function of the host that shows its signature. -/
def hostFunction (name : String) (signature : Signature) : Face :=
  ⟨name, name, "<built-in function " ++ name ++ ">", "builtin_function_or_method", false,
    .ok signature⟩

/-- A function of the host without a signature. -/
def hiddenFunction (name : String) : Face :=
  let shown := "<built-in function " ++ name ++ ">"
  ⟨name, name, shown, "builtin_function_or_method", false,
    .error ("no signature found for builtin " ++ shown)⟩

/-- A class of the host without a signature. -/
def hiddenType (name : String) : Face :=
  let shown := "<class '" ++ name ++ "'>"
  ⟨name, name, shown, "type", true, .error ("no signature found for builtin type " ++ shown)⟩

/-- A class whose signature is known. -/
def classObject (name : String) (signature : Signature) : Face :=
  ⟨name, name, "<class '" ++ name ++ "'>", "type", true, .ok signature⟩

/-- The callable belongs to the host: it is a class or a function of the host, of which
there is one of each name. -/
def isShared (f : Face) : Bool := f.isType || f.typeName == "builtin_function_or_method"

/-- How many placeholders the callable asks for, none for any number; the cause when
that cannot be known. -/
def arity (f : Face) : Except Cause (Option Nat) :=
  match f.signature with
  | .error reason => .error (.uninspectable f.shown reason)
  | .ok s => .ok s.arity?

end Face

end QueryDriver
