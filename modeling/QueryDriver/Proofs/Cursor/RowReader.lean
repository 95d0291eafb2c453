import QueryDriver.Operation

/-!
# Readers of lists

What a cursor shows to its user, as long as its server keeps to its plan, is a list of
values that is read from the front. A `RowReader` is that and nothing else: it knows of no
batches, no connection and no other cursor, and so it is what cursors are compared with.

A user who scans every row that is gone on to is given the rows of the list in order, and
each of them once; all of them when the end is reached.
-/

namespace QueryDriver

/-- A reader of a list: the value that was read last and the ones to come, until it is found
that there are no more. -/
inductive RowReader where
  | reading (current : Option Value) (rest : List Value)
  | ended

/-- The operation reads rows, one or all that are left. -/
def CursorOperation.Reads : CursorOperation → Prop
  | .next | .scan | .all | .iterate none => True
  | _ => False

/-- The rows that an outcome gives. -/
def rowsGiven : Except Failure Answer → List Value
  | .ok (.value v) => [v]
  | .ok (.values vs) => vs
  | .ok (.rows vs _) => vs
  | _ => []

/-- The rows that operations have given, one after the other. -/
def allRowsGiven (ds : List (CursorOperation × Except Failure Answer)) : List Value :=
  ds.flatMap fun d => rowsGiven d.2

theorem allRowsGiven_cons (d : CursorOperation × Except Failure Answer)
    (ds : List (CursorOperation × Except Failure Answer)) :
    allRowsGiven (d :: ds) = rowsGiven d.2 ++ allRowsGiven ds := rfl

/-- The outcome of an operation says that there are no more rows. -/
def ReachesEnd : CursorOperation × Except Failure Answer → Prop
  | (.next, .ok (.flag b)) => b = false
  | (.all, .ok _) => True
  | (.iterate none, .ok (.rows _ none)) => True
  | _ => False

/-- Every row that is gone on to is scanned once before the next one. -/
inductive Attentive : List (CursorOperation × Except Failure Answer) → Prop
  | nil : Attentive []
  | scanned {ds : List (CursorOperation × Except Failure Answer)} (o : Except Failure Answer)
      (h : Attentive ds) : Attentive ((.next, .ok (.flag true)) :: (.scan, o) :: ds)
  | ended {ds : List (CursorOperation × Except Failure Answer)} (h : Attentive ds) :
    Attentive ((.next, .ok (.flag false)) :: ds)
  | all {ds : List (CursorOperation × Except Failure Answer)} (o : Except Failure Answer)
      (h : Attentive ds) : Attentive ((.all, o) :: ds)
  | iterate {ds : List (CursorOperation × Except Failure Answer)} (o : Except Failure Answer)
      (h : Attentive ds) : Attentive ((.iterate none, o) :: ds)

namespace RowReader

/-- The reader in front of its list. -/
def start (vs : List Value) : RowReader := .reading none vs

/-- The values to come. -/
def rest : RowReader → List Value
  | reading _ vs => vs
  | ended => []

/-- The value that was read last. -/
def current : RowReader → Option Value
  | reading v _ => v
  | ended => none

/-- What an operation of reading answers. -/
def answer (x : RowReader) : CursorOperation → Except Failure Answer
  | .next => .ok (.flag !x.rest.isEmpty)
  | .scan =>
    match x.current with
    | some v => .ok (.value v)
    | none => .error (.ofCause .noCurrentRow)
  | .all => .ok (.values x.rest)
  | .iterate _ => .ok (.rows x.rest none)
  | _ => .ok .nothing

/-- The reader after an operation of reading. -/
def advance (x : RowReader) : CursorOperation → RowReader
  | .next =>
    match x.rest with
    | [] => ended
    | v :: vs => reading (some v) vs
  | .scan => x
  | _ => ended

/-- The reader after operations of reading, one after the other. -/
def after (x : RowReader) (ops : List CursorOperation) : RowReader := ops.foldl advance x

/-- What operations of reading answer, one after the other. -/
def answers (x : RowReader) : List CursorOperation → List (Except Failure Answer)
  | [] => []
  | op :: ops => x.answer op :: (x.advance op).answers ops

@[simp] theorem after_nil (x : RowReader) : x.after [] = x := rfl

@[simp] theorem after_cons (x : RowReader) (op : CursorOperation) (ops : List CursorOperation) :
    x.after (op :: ops) = (x.advance op).after ops := rfl

theorem after_append (x : RowReader) (ops ops' : List CursorOperation) :
    x.after (ops ++ ops') = (x.after ops).after ops' :=
  List.foldl_append

theorem answers_append (x : RowReader) (ops ops' : List CursorOperation) :
    x.answers (ops ++ ops') = x.answers ops ++ (x.after ops).answers ops' := by
  induction ops generalizing x with
  | nil => rfl
  | cons op ops ih => rw [List.cons_append, answers, ih]; rfl

variable {x : RowReader} {op : CursorOperation}

/-- The end is left by no operation. -/
theorem advance_ended : ∀ op, (ended : RowReader).advance op = ended
  | .next => rfl
  | .scan => rfl
  | .look => rfl
  | .one => rfl
  | .all => rfl
  | .exhaust => rfl
  | .close => rfl
  | .iterate _ => rfl
  | .visit _ => rfl

theorem after_ended (ops : List CursorOperation) : (ended : RowReader).after ops = ended := by
  induction ops with
  | nil => rfl
  | cons op ops ih => rw [after_cons, advance_ended, ih]

theorem advance_of_reachesEnd (h : ReachesEnd (op, x.answer op)) : x.advance op = ended := by
  cases op with
  | next =>
      have hrest : x.rest = [] := by simpa [ReachesEnd, answer] using h
      rw [advance, hrest]
  | scan => exact h.elim
  | look => exact h.elim
  | one => exact h.elim
  | exhaust => exact h.elim
  | close => exact h.elim
  | visit count => exact h.elim
  | all => rfl
  | iterate limit => rfl

variable {ds : List (CursorOperation × Except Failure Answer)}

theorem after_of_reachesEnd (h : ds.map Prod.snd = x.answers (ds.map Prod.fst))
    {d : CursorOperation × Except Failure Answer} (hd : d ∈ ds) (hend : ReachesEnd d) :
    x.after (ds.map Prod.fst) = ended := by
  induction ds generalizing x with
  | nil => cases hd
  | cons e ds ih =>
      obtain ⟨he, hds⟩ := List.cons.inj h
      rw [List.map_cons, after_cons]
      obtain rfl | hd := List.mem_cons.1 hd
      · rw [show d = (d.1, x.answer d.1) from Prod.ext rfl he] at hend
        rw [advance_of_reachesEnd hend, after_ended]
      · exact ih hds hd

/-- What an attentive user was given and what is left make up the list. -/
theorem given_append_rest (h : Attentive ds) (hds : ds.map Prod.snd = x.answers (ds.map Prod.fst)) :
    allRowsGiven ds ++ (x.after (ds.map Prod.fst)).rest = x.rest := by
  induction h generalizing x with
  | nil => rfl
  | scanned o h ih =>
      obtain ⟨hnext, hds⟩ := List.cons.inj hds
      obtain ⟨hscan, hds⟩ := List.cons.inj hds
      cases hrest : x.rest with
      | nil => simp [answer, hrest] at hnext
      | cons v vs =>
          have hadvance : x.advance .next = reading (some v) vs := by rw [advance, hrest]
          rw [hadvance] at hscan hds
          cases hscan
          rw [List.map_cons, List.map_cons, after_cons, after_cons, hadvance, allRowsGiven_cons,
            allRowsGiven_cons]
          exact congrArg (v :: ·) (ih hds)
  | ended h ih =>
      obtain ⟨hnext, hds⟩ := List.cons.inj hds
      have hrest : x.rest = [] := by simpa [answer] using hnext.symm
      have hadvance : x.advance .next = ended := by rw [advance, hrest]
      rw [hadvance] at hds
      rw [List.map_cons, after_cons, hadvance, hrest]
      exact ih hds
  | all o h ih =>
      obtain ⟨hall, hds⟩ := List.cons.inj hds
      cases hall
      rw [List.map_cons, after_cons, allRowsGiven_cons, List.append_assoc, ih hds]
      exact List.append_nil _
  | iterate o h ih =>
      obtain ⟨hiterate, hds⟩ := List.cons.inj hds
      cases hiterate
      rw [List.map_cons, after_cons, allRowsGiven_cons, List.append_assoc, ih hds]
      exact List.append_nil _

end RowReader

end QueryDriver
