import QueryDriver.Value

/-! # Scopes

A scope holds the options that are in effect where a part of an expression is compiled:
the database of tables that name none, and what the settings above the part have set.
Switches are either on or off; a bound or a durability is a value, which is sent when it
counts as true.
-/

namespace QueryDriver

structure Scope where
  database : Value
  useOutdated : Bool
  atomic : Bool
  upsert : Bool
  returnValues : Bool
  durability : Value
  leftBound : Value
  rightBound : Value
  timeFormat : Value

namespace Scope

/-- The scope of a whole query: nothing is set. -/
def initial : Scope :=
  ⟨.text "test", false, true, false, false, .text "", .text "", .text "", .text ""⟩

/-- The scope below a setting. -/
def set (scope : Scope) (s : Setting) (v : Value) : Scope :=
  match s with
  | .useOutdated => { scope with useOutdated := v.truthy }
  | .durability => { scope with durability := v }
  | .atomic => { scope with atomic := v.truthy }
  | .upsert => { scope with upsert := v.truthy }
  | .returnValues => { scope with returnValues := v.truthy }
  | .leftBound => { scope with leftBound := v }
  | .rightBound => { scope with rightBound := v }
  | .timeFormat => { scope with timeFormat := v }

/-- A setting leaves the database alone. -/
@[simp] theorem set_database (scope : Scope) (s : Setting) (v : Value) :
    (scope.set s v).database = scope.database := by
  cases s <;> rfl

/-- The fields of a scope by their names. -/
def fields (scope : Scope) : List (String × Value) :=
  [("database", scope.database), ("use_outdated", .bool scope.useOutdated),
    ("atomic", .bool scope.atomic), ("upsert", .bool scope.upsert),
    ("return_values", .bool scope.returnValues), ("durability", scope.durability),
    ("left_bound", scope.leftBound), ("right_bound", scope.rightBound),
    ("time_format", scope.timeFormat)]

/-- A scope with one field replaced by its name. -/
def replace (scope : Scope) (name : String) (v : Value) : Scope :=
  if name = "database" then { scope with database := v }
  else
    match Setting.all.find? fun s => s.label == name with
    | some s => scope.set s v
    | none => scope

end Scope

end QueryDriver
