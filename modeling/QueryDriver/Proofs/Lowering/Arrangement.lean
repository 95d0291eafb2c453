import Mathlib.Data.List.Forall2
import Mathlib.Data.List.Induction
import QueryDriver.Lowering
import QueryDriver.Proofs.Effect
import QueryDriver.Proofs.Value.Part

/-!
# How the arguments of an operation are arranged

Before anything of an operation is compiled, its arguments are sorted: the receiver is
looked at, an argument that is sent as an option is split off, and so are the options of
a table that is to be created. None of this depends on what the arguments compile to, so
it is a function of the values alone, `Verb.arrange`.

The options that the scope adds do not depend on the arguments at all. `Verb.settings`
says which settings an operation listens to, and `Setting.option` what it sends for one.

`lowerVerb_eq` is what compiling an operation comes down to: arrange the arguments, and
compile what they were arranged into from left to right.
-/

namespace QueryDriver

open Wire

/-! ### Values as operands -/

namespace Value

variable (operand : Value → Operand)

theorem operands_eq_map (args : List Value) :
    operands operand args = args.map (operandBy operand) := by
  induction args with
  | nil => rfl
  | cons v vs ih => rw [List.map_cons, ← ih, operands, operandBy]

theorem itemParts_eq_map (items : List Value) :
    itemParts operand items = items.map (lowerAt operand) := by
  induction items with
  | nil => rfl
  | cons v vs ih => rw [itemParts, ih, List.map_cons]

theorem entryParts_eq_map (entries : List (Value × Value)) :
    entryParts operand entries = entries.map fun e => (e.1, lowerAt operand e.2) := by
  induction entries with
  | nil => rfl
  | cons e es ih =>
      obtain ⟨k, v⟩ := e
      rw [entryParts, ih, List.map_cons]

/-- The options of a table that is to be created, those that are set. -/
def tableFields : Value → List (String × Value)
  | .tableSpec _ primaryKey datacenter cacheSize durability =>
    [("primary_key", primaryKey), ("datacenter", datacenter), ("cache_size", cacheSize),
      ("durability", .text durability)].filter fun e => e.2.truthy
  | _ => []

theorem mem_tableFields {v : Value} {e : String × Value} (h : e ∈ v.tableFields) :
    IsPart e.2 v ∨ ∃ s, e.2 = .text s := by
  cases v with
  | tableSpec name p d c durability =>
      obtain ⟨h, -⟩ := List.mem_filter.1 h
      simp only [List.mem_cons, List.not_mem_nil, or_false] at h
      obtain rfl | rfl | rfl | rfl := h
      · exact .inl .primaryKey
      · exact .inl .datacenter
      · exact .inl .cacheSize
      · exact .inr ⟨_, rfl⟩
  | _ => cases h

theorem tableOptions_eq_map (v : Value) :
    tableOptions operand v = v.tableFields.map fun e => (e.1, operandBy operand e.2) := by
  cases v with
  | tableSpec name p d c durability =>
      have hoption (key : String) (w : Value) : Operand.option key (operandBy operand w) =
          ([(key, w)].filter fun e => e.2.truthy).map fun e => (e.1, operandBy operand e.2) := by
        by_cases h : w.truthy = true <;> simp [Operand.option, operandBy, h]
      have hsplit : tableFields (.tableSpec name p d c durability) =
          ([("primary_key", p)].filter fun e => e.2.truthy)
            ++ ([("datacenter", d)].filter fun e => e.2.truthy)
            ++ ([("cache_size", c)].filter fun e => e.2.truthy)
            ++ ([("durability", .text durability)].filter fun e => e.2.truthy) := by
        simp only [tableFields, ← List.filter_append, List.cons_append, List.nil_append]
      rw [hsplit, List.map_append, List.map_append, List.map_append, ← hoption, ← hoption,
        ← hoption, ← hoption]
      rfl
  | _ => rfl

end Value

/-! ### What the arguments are arranged into -/

/-- The arguments of an operation, sorted. -/
structure Arrangement where
  /-- The database of the scope is put in front. -/
  implicit : Bool
  /-- The arguments that are sent by position. -/
  positional : List Value
  /-- The arguments that are sent as options. -/
  named : List (String × Value)

namespace Verb

/-- The receiver of a table operation has to be something that can be a table. -/
def checkReceiver (v : Verb) (args : List Value) : Except Failure Unit :=
  if v.needsTable then
    match args with
    | [] => .error (.fault (.outOfRange .list))
    | receiver :: _ =>
      match notATable? receiver with
      | .error f => .error f
      | .ok none => .ok ()
      | .ok (some given) => .error (.ofCause (.needsTable v.label given))
  else .ok ()

/-- Splits off the argument that is sent as an option. -/
def splitOption (v : Verb) (args : List Value) :
    Except Failure (List Value × List (String × Value)) :=
  match v.trailing? with
  | none => .ok (args, [])
  | some name =>
    match args.getLast? with
    | none => .error (.fault (.outOfRange .emptied))
    | some last => .ok (args.dropLast, if last.isAbsent then [] else [(name, last)])

/-- Splits the options of a table that is to be created into its name and its options. -/
def splitSpec (v : Verb) (args : List Value) :
    Except Failure (List Value × List (String × Value)) :=
  if v = .tableCreate then
    match args.getLast? with
    | none => .error (.fault (.outOfRange .emptied))
    | some last =>
      match last with
      | .tableSpec name .. => .ok (args.dropLast ++ [.text name], last.tableFields)
      | _ => .error (.ofCause .needsTableSpec)
  else .ok (args, [])

/-- Sorts the arguments of an operation. -/
def arrange (v : Verb) (args : List Value) : Except Failure Arrangement := do
  v.checkReceiver args
  let (args, trailing) ← v.splitOption args
  let (positional, fields) ← v.splitSpec args
  return ⟨v.afterDatabase? = some args.length, positional.filter fun a => !a.isAbsent,
    trailing ++ fields⟩

theorem mem_splitOption {v : Verb} {args positional : List Value} {named : List (String × Value)}
    (h : v.splitOption args = .ok (positional, named)) :
    (∀ w ∈ positional, w ∈ args) ∧ ∀ e ∈ named, e.2 ∈ args := by
  unfold splitOption at h
  split at h
  · cases h
    simp
  · split at h
    · cases h
    · rename_i last hlast
      cases h
      constructor
      · exact fun w hw => List.dropLast_subset _ hw
      · intro e he
        split at he
        · cases he
        · rw [List.mem_singleton.1 he]
          exact List.mem_of_getLast? hlast

theorem mem_splitSpec {v : Verb} {args positional : List Value} {named : List (String × Value)}
    (h : v.splitSpec args = .ok (positional, named)) :
    (∀ w ∈ positional, w ∈ args ∨ ∃ s, w = .text s) ∧
      ∀ e ∈ named, ∃ x ∈ args, e ∈ x.tableFields := by
  unfold splitSpec at h
  split at h
  · split at h
    · cases h
    · rename_i last hlast
      split at h
      · cases h
        constructor
        · intro w hw
          obtain hw | hw := List.mem_append.1 hw
          · exact .inl (List.dropLast_subset _ hw)
          · exact .inr ⟨_, List.mem_singleton.1 hw⟩
        · exact fun e he => ⟨_, List.mem_of_getLast? hlast, he⟩
      · cases h
  · cases h
    exact ⟨fun w hw => .inl hw, nofun⟩

/-- Arranging splits off the option first and the options of a table after it. -/
theorem arrange_ok {v : Verb} {args : List Value} {a : Arrangement} (h : v.arrange args = .ok a) :
    ∃ rest trailing positional fields, v.splitOption args = .ok (rest, trailing) ∧
      v.splitSpec rest = .ok (positional, fields) ∧
      a = ⟨v.afterDatabase? = some rest.length, positional.filter fun a => !a.isAbsent,
        trailing ++ fields⟩ := by
  obtain ⟨-, -, h⟩ := bind_ok h
  obtain ⟨⟨rest, trailing⟩, hrest, h⟩ := bind_ok h
  obtain ⟨⟨positional, fields⟩, hpositional, h⟩ := bind_ok h
  cases h
  exact ⟨rest, trailing, positional, fields, hrest, hpositional, rfl⟩

/-- Arranging makes no values up, apart from texts: it takes arguments and options of
tables. -/
theorem mem_of_arrange {v : Verb} {args : List Value} {a : Arrangement}
    (h : v.arrange args = .ok a) :
    ∀ w ∈ a.positional ++ a.named.map (·.2),
      w ∈ args ∨ (∃ x ∈ args, ∃ e ∈ x.tableFields, e.2 = w) ∨ ∃ s, w = .text s := by
  obtain ⟨rest, trailing, positional, fields, hrest, hpositional, rfl⟩ := arrange_ok h
  obtain ⟨hrest, htrailing⟩ := mem_splitOption hrest
  obtain ⟨hpositional, hfields⟩ := mem_splitSpec hpositional
  intro w hw
  simp only [List.mem_append, List.mem_filter, List.mem_map] at hw
  obtain ⟨hw, -⟩ | ⟨e, he | he, rfl⟩ := hw
  · obtain hw | htext := hpositional w hw
    · exact .inl (hrest w hw)
    · exact .inr (.inr htext)
  · exact .inl (htrailing e he)
  · obtain ⟨x, hx, he⟩ := hfields e he
    exact .inr (.inl ⟨x, hrest x hx, e, he, rfl⟩)

/-- What holds of everything below an operation and of all texts holds of what its arguments
are arranged into. -/
theorem forall_of_arrange {P : Value → Prop} {v : Verb} {args : List Value} {a : Arrangement}
    (h : v.arrange args = .ok a) (hbelow : ∀ w, Value.Below w (.expr (.verb v) args) → P w)
    (htext : ∀ s, P (.text s)) : ∀ w ∈ a.positional ++ a.named.map (·.2), P w := by
  intro w hw
  obtain hw | ⟨x, hx, e, he, rfl⟩ | ⟨s, rfl⟩ := mem_of_arrange h w hw
  · exact hbelow w (.single (.argument hw))
  · obtain hpart | ⟨s, hs⟩ := Value.mem_tableFields he
    · exact hbelow e.2 (.head hpart (.single (.argument hx)))
    · rw [hs]
      exact htext s
  · exact htext s

end Verb

/-- The database of a scope as the receiver that a node leaves out. -/
def Scope.receiver (scope : Scope) : Value := .expr (.verb .db) [scope.database]

/-- The receiver that a node leaves out. -/
def Arrangement.receiver (a : Arrangement) (scope : Scope) : List Value :=
  if a.implicit then [scope.receiver] else []

theorem Arrangement.forall_positional {P : Value → Prop} {a : Arrangement} {scope : Scope}
    (hreceiver : P scope.receiver) (h : ∀ w ∈ a.positional, P w) :
    ∀ w ∈ a.receiver scope ++ a.positional, P w := by
  rw [List.forall_mem_append]
  refine ⟨fun w hw => ?_, h⟩
  unfold Arrangement.receiver at hw
  split at hw
  · rw [List.mem_singleton.1 hw]
    exact hreceiver
  · cases hw

section Steps

variable (operand : Value → Operand)

theorem checkTable_map (v : Verb) (args : List Value) :
    checkTable v (args.map (Value.operandBy operand)) = liftM (v.checkReceiver args) := by
  unfold checkTable Verb.checkReceiver
  split
  · cases args with
    | nil => rfl
    | cons receiver rest =>
        change (match notATable? receiver with
          | .error f => (throw f : Lowering Unit)
          | .ok none => pure ()
          | .ok (some given) => throw (Failure.ofCause (.needsTable v.label given))) = _
        dsimp only
        split <;> rfl
  · rfl

theorem splitTrailing_map (v : Verb) (args : List Value) :
    splitTrailing v (args.map (Value.operandBy operand)) =
      (liftM (v.splitOption args) >>= fun split => pure (split.1.map (Value.operandBy operand),
        split.2.map fun e => (e.1, Value.operandBy operand e.2))) := by
  unfold splitTrailing Verb.splitOption
  cases v.trailing? with
  | none => rfl
  | some name =>
      dsimp only
      rw [List.getLast?_map]
      cases args.getLast? with
      | none => rfl
      | some last =>
          change pure (_, if last.isAbsent then _ else _) = _
          simp only [liftM_ok_bind, List.map_dropLast]
          cases last.isAbsent <;> rfl

/-- The database in front is not what the options of a table are taken from. -/
theorem splitTableSpec_map (v : Verb) (front : List Operand) (args : List Value)
    (hfront : v = .tableCreate → args = [] → front = []) :
    splitTableSpec v (front ++ args.map (Value.operandBy operand)) =
      (liftM (v.splitSpec args) >>= fun split =>
        pure (front ++ split.1.map (Value.operandBy operand),
          split.2.map fun e => (e.1, Value.operandBy operand e.2))) := by
  unfold splitTableSpec Verb.splitSpec
  split
  case isFalse => rfl
  case isTrue hv =>
    cases args using List.reverseRecOn with
    | nil =>
        rw [hfront hv rfl]
        rfl
    | append_singleton rest last =>
        simp only [List.map_append, List.map_cons, List.map_nil, ← List.append_assoc,
          List.getLast?_append_cons, List.getLast?_singleton, List.dropLast_concat]
        cases last with
        | tableSpec name p d c durability =>
            simp only [liftM_ok_bind, List.map_append, List.append_assoc,
              ← Value.tableOptions_eq_map]
            rfl
        | _ => rfl

theorem insertDatabase_map (v : Verb) (scope : Scope) (args : List Value) :
    insertDatabase v scope operand (args.map (Value.operandBy operand)) =
      (if v.afterDatabase? = some args.length then [implicitDatabase scope operand] else [])
        ++ args.map (Value.operandBy operand) := by
  unfold insertDatabase
  rw [List.length_map]
  split <;> rfl

/-- Compiling an operation: arrange the arguments, then compile what they were arranged
into from left to right. -/
theorem lowerVerb_eq (v : Verb) (args : List Value) (scope : Scope) :
    lowerVerb operand v (args.map (Value.operandBy operand)) scope =
      (liftM (v.arrange args) >>= fun a => do
        let terms ← lowerEach scope
          ((if a.implicit then [implicitDatabase scope operand] else [])
            ++ a.positional.map (Value.operandBy operand))
        let options ← lowerOptions scope
          (a.named.map (fun e => (e.1, Value.operandBy operand e.2))
            ++ scopeOptions v scope operand)
        return { Term.empty with tag := some v.code, args := terms, options := options }) := by
  have ok_bind {α β : Type} (x : α) (f : α → Except Failure β) : (Except.ok x >>= f) = f x := rfl
  unfold lowerVerb Verb.arrange
  rw [checkTable_map]
  cases v.checkReceiver args with
  | error f => rfl
  | ok u =>
      simp only [ok_bind, liftM_ok_bind, splitTrailing_map]
      cases v.splitOption args with
      | error f => rfl
      | ok split =>
          obtain ⟨args, trailing⟩ := split
          simp only [ok_bind, liftM_ok_bind, pure_bind, insertDatabase_map]
          rw [splitTableSpec_map]
          · cases v.splitSpec args with
            | error f => rfl
            | ok split =>
                obtain ⟨positional, fields⟩ := split
                have hpositional : (positional.map (Value.operandBy operand)).filter
                    (fun o => !o.value.isAbsent) =
                      (positional.filter fun a => !a.isAbsent).map (Value.operandBy operand) :=
                  List.filter_map
                have hfront : (if v.afterDatabase? = some args.length
                    then [implicitDatabase scope operand] else []).filter
                      (fun o => !o.value.isAbsent) =
                    if v.afterDatabase? = some args.length
                      then [implicitDatabase scope operand] else [] := by
                  split <;> rfl
                simp only [ok_bind, liftM_ok_bind, pure_bind, List.filter_append, hpositional,
                  hfront, ← List.map_append]
                change _ = (liftM (Except.ok _) >>= _)
                simp only [liftM_ok_bind, decide_eq_true_eq]
          · rintro rfl rfl
            rfl

/-- The row is the same term in every scope. -/
theorem lowerNode_implicitVar (scope : Scope) : lowerNode operand (.verb .implicitVar) [] scope =
    pure { Term.empty with tag := some Verb.implicitVar.code, args := [], options := [] } := rfl

/-- So is a variable. -/
theorem lowerNode_var (n : Nat) (scope : Scope) :
    lowerNode operand (.verb .var) [Operand.number n] scope =
      pure { Term.empty with tag := some Verb.var.code, args := [numberTerm n], options := [] } :=
  rfl

end Steps

/-! ### What the settings add -/

/-- The value of a setting in a scope. -/
def Scope.get (scope : Scope) : Setting → Value
  | .useOutdated => .bool scope.useOutdated
  | .durability => scope.durability
  | .atomic => .bool scope.atomic
  | .upsert => .bool scope.upsert
  | .returnValues => .bool scope.returnValues
  | .leftBound => scope.leftBound
  | .rightBound => scope.rightBound
  | .timeFormat => scope.timeFormat

/-- What is sent for a setting. -/
def Setting.option (s : Setting) (v : Value) : List (String × Value) :=
  match s with
  | .useOutdated => if v.truthy then [("use_outdated", .bool true)] else []
  | .durability => if v.truthy then [("durability", v)] else []
  | .atomic => if !v.truthy then [("non_atomic", .bool true)] else []
  | .upsert => if v.truthy then [("upsert", .bool true)] else []
  | .returnValues => if v.truthy then [("return_vals", .bool true)] else []
  | .leftBound => if v.truthy then [("left_bound", v)] else []
  | .rightBound => if v.truthy then [("right_bound", v)] else []
  | .timeFormat => []

theorem Setting.mem_option {s : Setting} {v : Value} {e : String × Value} (h : e ∈ s.option v) :
    e.2 = .bool true ∨ e.2 = v := by
  unfold option at h
  split at h
  case h_8 => cases h
  all_goals
    split at h
    · rw [List.mem_singleton.1 h]
      simp
    · cases h

/-- The settings that an operation listens to. -/
def Verb.settings : Verb → List Setting
  | .table => [.useOutdated]
  | .insert => [.durability, .returnValues, .upsert]
  | .update | .replace => [.durability, .returnValues, .atomic]
  | .delete => [.durability, .returnValues]
  | .between | .during => [.leftBound, .rightBound]
  | _ => []

/-- The options that an operation gets from the values of the settings. -/
def Verb.sent (v : Verb) (value : Setting → Value) : List (String × Value) :=
  v.settings.flatMap fun s => s.option (value s)

/-- What holds of the switch that is on and of the values of the settings holds of all that an
operation gets from them. -/
theorem Verb.forall_sent {P : Value → Prop} {value : Setting → Value} (v : Verb)
    (on : P (.bool true)) (h : ∀ s, P (value s)) : ∀ w ∈ (v.sent value).map (·.2), P w := by
  intro w hw
  obtain ⟨e, he, rfl⟩ := List.mem_map.1 hw
  obtain ⟨s, -, he⟩ := List.mem_flatMap.1 he
  obtain he | he := Setting.mem_option he
  · rw [he]
    exact on
  · rw [he]
    exact h s

/-- The options that a scope adds are those of the values of its settings, one by one. -/
theorem scopeOptions_forall₂ {R : String × Value → String × Operand → Prop} {scope : Scope}
    {operand : Value → Operand} (v : Verb)
    (on : ∀ name, R (name, .bool true) (name, Operand.on))
    (carried : ∀ name s, R (name, scope.get s) (name, operand (scope.get s))) :
    List.Forall₂ R (v.sent scope.get) (scopeOptions v scope operand) := by
  have hbool (b : Bool) : (Value.bool b).truthy = b := rfl
  have hdurability := carried "durability" .durability
  have hleft := carried "left_bound" .leftBound
  have hright := carried "right_bound" .rightBound
  simp only [Scope.get] at hdurability hleft hright
  unfold scopeOptions
  split <;> simp only [Verb.sent, Verb.settings, Setting.option, Scope.get, hbool,
    List.flatMap_cons, List.flatMap_nil, List.append_nil, List.Forall₂.nil]
  case h_1 => cases scope.useOutdated <;> simp [on]
  case h_6 | h_7 =>
    by_cases h : scope.leftBound.truthy = true <;> by_cases h' : scope.rightBound.truthy = true <;>
      simp [h, h', hleft, hright]
  all_goals
    by_cases h : scope.durability.truthy = true <;> cases scope.returnValues <;>
      cases scope.atomic <;> cases scope.upsert <;> simp [h, hdurability, on]

theorem forall_scopeOptions {P : Operand → Prop} {scope : Scope} {operand : Value → Operand}
    (v : Verb) (on : P Operand.on) (carried : ∀ s, P (operand (scope.get s))) :
    ∀ o ∈ scopeOptions v scope operand, P o.2 := by
  have h : List.Forall₂ (fun _ o => P o.2) (v.sent scope.get) (scopeOptions v scope operand) :=
    scopeOptions_forall₂ v (fun _ => on) fun _ s => carried s
  generalize v.sent scope.get = sent at h
  generalize scopeOptions v scope operand = options at h
  induction h with
  | nil => exact nofun
  | cons ho _ ih => exact List.forall_mem_cons.2 ⟨ho, ih⟩

end QueryDriver
