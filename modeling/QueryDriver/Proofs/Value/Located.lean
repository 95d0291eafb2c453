import QueryDriver.Proofs.Lowering.Resemblance

/-!
# Values that name their database

A table operation may leave its database out. `Value.located d` writes the receiver `d` in front
of the arguments of every such node of a value, also in literals, in what is set on expressions,
and in what callables return. Every other node keeps its arguments. The result leaves no database
out, and it is the value itself if the value leaves none out.

The questions that the compiler asks about a value before it is compiled have the same answers
then.
-/

namespace QueryDriver

/-- A node with so many arguments leaves its database out. -/
def Operator.omitsDatabase (op : Operator) (count : Nat) : Bool :=
  match op with
  | .verb v => v.afterDatabase? = some count
  | _ => false

namespace Value

/-- The value is a node that leaves its database out. -/
def omitsDatabase : Value → Bool
  | .expr op args => op.omitsDatabase args.length
  | _ => false

mutual

/-- The value with the receiver `d` in front of the arguments of every node that leaves its
database out. -/
def located (v d : Value) : Value :=
  match v with
  | .list items => .list (locatedItems items d)
  | .tuple items => .tuple (locatedItems items d)
  | .dict entries => .dict (locatedEntries entries d)
  | .mapping entries => .mapping (locatedEntries entries d)
  | .slice start stop step => .slice (located start d) (located stop d) (located step d)
  | .tableSpec name p dc cs durability =>
    .tableSpec name (located p d) (located dc d) (located cs d) durability
  | .expr op args =>
    .expr op (if op.omitsDatabase args.length then d :: locatedItems args d
      else locatedItems args d)
  | .func face run => .func face fun params => locatedResult (run params) d
  | v => v

def locatedItems (items : List Value) (d : Value) : List Value :=
  match items with
  | [] => []
  | v :: vs => located v d :: locatedItems vs d

def locatedEntries (entries : List (Value × Value)) (d : Value) : List (Value × Value) :=
  match entries with
  | [] => []
  | (k, v) :: es => (k, located v d) :: locatedEntries es d

def locatedResult (result : Except Failure Value) (d : Value) : Except Failure Value :=
  match result with
  | .ok v => .ok (located v d)
  | .error f => .error f

end

variable (d : Value)

theorem locatedItems_eq_map (items : List Value) : locatedItems items d = items.map (located · d) := by
  induction items with
  | nil => rfl
  | cons v vs ih => rw [locatedItems, ih, List.map_cons]

theorem locatedEntries_eq_map (entries : List (Value × Value)) :
    locatedEntries entries d = entries.map fun e => (e.1, e.2.located d) := by
  induction entries with
  | nil => rfl
  | cons e es ih =>
      obtain ⟨k, v⟩ := e
      rw [locatedEntries, ih, List.map_cons]

theorem locatedResult_eq_map (result : Except Failure Value) :
    locatedResult result d = result.map (located · d) := by
  cases result <;> rfl

/-- A node keeps its operator. -/
theorem located_expr (op : Operator) (args : List Value) :
    (Value.expr op args).located d =
      .expr op ((if op.omitsDatabase args.length then [d] else []) ++ args.map (located · d)) := by
  rw [located, locatedItems_eq_map]
  split <;> rfl

theorem located_expr_of_omits {op : Operator} {args : List Value}
    (h : op.omitsDatabase args.length = true) :
    (Value.expr op args).located d = .expr op (d :: args.map (located · d)) := by
  rw [located_expr, if_pos h, List.singleton_append]

theorem located_expr_of_keeps {op : Operator} {args : List Value}
    (h : op.omitsDatabase args.length = false) :
    (Value.expr op args).located d = .expr op (args.map (located · d)) := by
  rw [located_expr, h, if_neg Bool.false_ne_true, List.nil_append]

/-- Of a value that does not leave its database out the parts are located. -/
theorem located_eq_mapParts {v : Value} (h : v.omitsDatabase = false) :
    v.located d = v.mapParts (located · d) := by
  cases v with
  | list items | tuple items => rw [located, locatedItems_eq_map, mapParts]
  | dict entries | mapping entries => rw [located, locatedEntries_eq_map, mapParts]
  | expr op args => exact located_expr_of_keeps d h
  | func face run => simp only [located, locatedResult_eq_map, mapParts]
  | _ => rfl

/-- What a located value is made of: the receiver, and the located parts of the value. -/
theorem exists_of_isPart_located {v x : Value} (h : IsPart x (v.located d)) :
    x = d ∨ ∃ w, IsPart w v ∧ x = w.located d := by
  cases homits : v.omitsDatabase with
  | false =>
      rw [located_eq_mapParts d homits] at h
      exact .inr (exists_of_isPart_mapParts h)
  | true =>
      cases v with
      | expr op args =>
          rw [located_expr_of_omits d homits] at h
          cases h with
          | argument h =>
              obtain rfl | h := List.mem_cons.1 h
              · exact .inl rfl
              · obtain ⟨w, hw, rfl⟩ := List.mem_map.1 h
                exact .inr ⟨w, .argument hw, rfl⟩
      | _ => cases homits

/-- One more argument is one too many to leave the database out. -/
theorem omitsDatabase_succ {op : Operator} {count : Nat} (h : op.omitsDatabase count = true) :
    op.omitsDatabase (count + 1) = false := by
  cases op with
  | verb v =>
      simp only [Operator.omitsDatabase, decide_eq_true_eq] at h ⊢
      rw [h]
      simp
  | _ => cases h

theorem omitsDatabase_located (v : Value) : (v.located d).omitsDatabase = false := by
  cases v with
  | expr op args =>
      cases h : op.omitsDatabase args.length with
      | true =>
          rw [located_expr_of_omits d h, omitsDatabase, List.length_cons, List.length_map]
          exact omitsDatabase_succ h
      | false =>
          rw [located_expr_of_keeps d h, omitsDatabase, List.length_map]
          exact h
  | _ => rfl

/-- A located value leaves no database out anywhere. -/
theorem throughout_located {d : Value} (hd : d.Throughout fun w => w.omitsDatabase = false)
    (v : Value) : (v.located d).Throughout fun w => w.omitsDatabase = false := by
  induction v using Value.induction with
  | step v ih =>
      refine .of_parts (omitsDatabase_located d v) fun x hx => ?_
      obtain rfl | ⟨w, hw, rfl⟩ := exists_of_isPart_located d hx
      · exact hd
      · exact ih w (.single hw)

/-- A value that leaves no database out is not changed. -/
theorem located_eq_self {v : Value} (h : v.Throughout fun w => w.omitsDatabase = false) :
    v.located d = v := by
  induction v using Value.induction with
  | step v ih =>
      rw [located_eq_mapParts d h.self]
      exact mapParts_eq_self fun w hw => ih w (.single hw) (h.part hw)

section Questions

variable (v : Value)

theorem isAbsent_located : (v.located d).isAbsent = v.isAbsent := by
  cases v <;> rfl

theorem isNull_located : (v.located d).isNull = v.isNull := by
  cases v <;> rfl

theorem isApplied_located : (v.located d).isApplied = v.isApplied := by
  cases v <;> rfl

theorem truthy_located : (v.located d).truthy = v.truthy := by
  cases v with
  | list items | tuple items => simp [located, truthy, locatedItems_eq_map]
  | dict entries | mapping entries => simp [located, truthy, locatedEntries_eq_map]
  | _ => rfl

theorem notATable_located : notATable? (v.located d) = notATable? v := by
  induction v using Value.induction with
  | step v ih =>
      cases v with
      | expr op args =>
          rw [located_expr]
          cases op with
          | setting s =>
              cases args with
              | nil => rfl
              | cons inner rest => exact ih inner (.single (.argument List.mem_cons_self))
          | literal | func => rfl
          | verb op => cases op <;> rfl
      | _ => rfl

end Questions

/-- A value and what it is located are arranged alike. -/
theorem resemblance_located : Resemblance fun v w => w = v.located d where
  absent h := by rw [h, isAbsent_located]
  table h := by rw [h, notATable_located]
  spec {v w} h := by
    subst h
    cases v <;> rfl
  fields {v w} h := by
    subst h
    cases v with
    | tableSpec name p dc cs durability =>
        have hfields : List.Forall₂ (SameEntry fun v w => w = v.located d)
            [("primary_key", p), ("datacenter", dc), ("cache_size", cs),
              ("durability", .text durability)]
            [("primary_key", p.located d), ("datacenter", dc.located d),
              ("cache_size", cs.located d), ("durability", .text durability)] :=
          .cons ⟨rfl, rfl⟩ (.cons ⟨rfl, rfl⟩ (.cons ⟨rfl, rfl⟩ (.cons ⟨rfl, rfl⟩ .nil)))
        refine forall₂_filter (fun e f hef => ?_) hfields
        rw [hef.2, truthy_located]
    | _ => exact .nil
  text s := rfl

end Value

end QueryDriver
