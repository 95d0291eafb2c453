import Mathlib.Data.List.Forall2
import QueryDriver.Codec.Unmarshal
import QueryDriver.Proofs.Codec.Outcome
import QueryDriver.Proofs.Value.Part

/-!
# Terms and datums say the same

A value goes onto the wire as a term or as a datum, and either is read by a decoder of its own.
The two ways are one as far as anybody can tell: the encoders fail for the same values and with
the same failure, and the term and the datum of a value are read alike, be it as a value or as a
failure, at whatever depth and whatever is made of times.

`Concord R` compares two outcomes, `Wire.Tallies` a term with a datum.
-/

namespace QueryDriver

open Wire

/-- Two outcomes are the same failure, or what they give stands in a relation. -/
inductive Concord {α β : Type} (R : α → β → Prop) : Except Failure α → Except Failure β → Prop
  | fails (e : Failure) : Concord R (.error e) (.error e)
  | gives {x : α} {y : β} (h : R x y) : Concord R (.ok x) (.ok y)

namespace Concord

variable {α β γ δ : Type} {R : α → β → Prop} {S : γ → δ → Prop} {o : Except Failure α}
  {o' : Except Failure β}

theorem bind {f : α → Except Failure γ} {g : β → Except Failure δ} (h : Concord R o o')
    (hfg : ∀ x y, R x y → Concord S (f x) (g y)) : Concord S (o >>= f) (o' >>= g) := by
  cases h with
  | fails e => exact .fails e
  | gives h => exact hfg _ _ h

theorem map {f : α → γ} {g : β → δ} (h : Concord R o o') (hfg : ∀ x y, R x y → S (f x) (g y)) :
    Concord S (o.map f) (o'.map g) := by
  cases h with
  | fails e => exact .fails e
  | gives h => exact .gives (hfg _ _ h)

/-- What is done first on both sides does not tell them apart. -/
theorem after (o : Except Failure α) {f : α → Except Failure γ} {g : α → Except Failure δ}
    (h : ∀ x, Concord S (f x) (g x)) : Concord S (o >>= f) (o >>= g) := by
  cases o with
  | error e => exact .fails e
  | ok x => exact h x

theorem outcomes (h : Concord R o o') :
    (∃ e, o = .error e ∧ o' = .error e) ∨ ∃ x y, o = .ok x ∧ o' = .ok y ∧ R x y := by
  cases h with
  | fails e => exact .inl ⟨e, rfl, rfl⟩
  | gives h => exact .inr ⟨_, _, rfl, rfl, h⟩

end Concord

/-- Checking a depth twice is checking it once. -/
theorem checkDepth_bind_self {α : Type} {depth : Int} (f : Unit → Except Failure α) :
    (checkDepth depth >>= fun _ => checkDepth depth >>= f) = checkDepth depth >>= f := by
  cases checkDepth depth <;> rfl

namespace Wire

variable (format : TimeFormat) (depth : Int)

/-! ### How messages are read that the encoders make -/

theorem Term.unmarshal_ofDatum (d : Datum) :
    (Term.ofDatum d).unmarshal format depth = d.unmarshal format depth := by
  have hterm : (Term.ofDatum d).unmarshal format depth =
      (checkDepth depth >>= fun _ => d.unmarshal format depth) := rfl
  obtain ⟨tag, flag, number, text, items, entries⟩ := d
  rw [hterm, Datum.unmarshal]
  exact checkDepth_bind_self _

theorem Term.unmarshal_makeArray (ts : List Term) :
    (Term.makeArray ts).unmarshal format depth =
      (checkDepth depth >>= fun _ => (Term.unmarshalArgs format (depth + 1) ts).map .list) := rfl

theorem Term.unmarshal_makeObject (entries : List (String × Term)) :
    (Term.makeObject entries).unmarshal format depth = (checkDepth depth >>= fun _ =>
      Term.unmarshalOptions format (depth + 1) (entries.map fun e => (some e.1, some e.2)) >>=
        Value.ofObject format) := rfl

theorem Datum.unmarshal_ofList (ds : List Datum) :
    (Datum.ofList ds).unmarshal format depth =
      (checkDepth depth >>= fun _ => (Datum.unmarshalItems format (depth + 1) ds).map .list) := rfl

theorem Datum.unmarshal_ofEntries (entries : List (String × Datum)) :
    (Datum.ofEntries entries).unmarshal format depth = (checkDepth depth >>= fun _ =>
      Datum.unmarshalEntries format (depth + 1) (entries.map fun e => (some e.1, some e.2)) >>=
        Value.ofObject format) := rfl

end Wire

namespace Wire

/-- The term and the datum are read alike, whatever is made of times and at whatever depth. -/
def Tallies (t : Term) (d : Datum) : Prop :=
  ∀ format depth, t.unmarshal format depth = d.unmarshal format depth

/-- The entries have the same key, and what is under it is read alike. -/
def TallyEntries (e : String × Term) (e' : String × Datum) : Prop :=
  e.1 = e'.1 ∧ Tallies e.2 e'.2

variable (format : TimeFormat) (depth : Int)

theorem unmarshal_of_tallies {ts : List Term} {ds : List Datum} (h : List.Forall₂ Tallies ts ds) :
    Term.unmarshalArgs format depth ts = Datum.unmarshalItems format depth ds := by
  induction h with
  | nil => rfl
  | cons h _ ih => rw [Term.unmarshalArgs, Datum.unmarshalItems, h format depth, ih]

theorem unmarshal_of_tallyEntries {ts : List (String × Term)} {ds : List (String × Datum)}
    (h : List.Forall₂ TallyEntries ts ds) :
    Term.unmarshalOptions format depth (ts.map fun e => (some e.1, some e.2)) =
      Datum.unmarshalEntries format depth (ds.map fun e => (some e.1, some e.2)) := by
  induction h with
  | nil => rfl
  | cons h _ ih =>
      obtain ⟨hkey, hvalue⟩ := h
      rw [List.map_cons, List.map_cons, Term.unmarshalOptions, Datum.unmarshalEntries, ih,
        Term.unmarshalValue, Datum.unmarshalValue, hvalue format depth, hkey]

namespace Tallies

theorem ofDatum (d : Datum) : Tallies (Term.ofDatum d) d :=
  fun format depth => Term.unmarshal_ofDatum format depth d

theorem array {ts : List Term} {ds : List Datum} (h : List.Forall₂ Tallies ts ds) :
    Tallies (Term.makeArray ts) (Datum.ofList ds) := by
  intro format depth
  rw [Term.unmarshal_makeArray, Datum.unmarshal_ofList, unmarshal_of_tallies format _ h]

theorem object {ts : List (String × Term)} {ds : List (String × Datum)}
    (h : List.Forall₂ TallyEntries ts ds) :
    Tallies (Term.makeObject ts) (Datum.ofEntries ds) := by
  intro format depth
  rw [Term.unmarshal_makeObject, Datum.unmarshal_ofEntries, unmarshal_of_tallyEntries format _ h]

end Tallies

end Wire

namespace Value

/-- The encoders do the same to the value at every depth. -/
def Concords (v : Value) : Prop :=
  ∀ depth, Concord Tallies (v.marshal depth) (v.toDatum depth)

variable {depth : Int}

theorem concord_items {items : List Value} (h : ∀ v ∈ items, v.Concords) :
    Concord (List.Forall₂ Tallies) (marshalItems items depth) (itemsToDatums items depth) := by
  induction items with
  | nil => exact .gives .nil
  | cons v vs ih =>
      obtain ⟨hv, hvs⟩ := List.forall_mem_cons.1 h
      rw [marshalItems, itemsToDatums]
      refine (hv depth).bind fun t d htd => ?_
      exact (ih hvs).bind fun ts ds hlater => .gives (.cons htd hlater)

theorem concord_entries {entries : List (Value × Value)} (h : ∀ e ∈ entries, e.2.Concords) :
    Concord (List.Forall₂ TallyEntries) (marshalEntries entries depth)
      (entriesToDatums entries depth) := by
  induction entries with
  | nil => exact .gives .nil
  | cons e es ih =>
      obtain ⟨k, v⟩ := e
      obtain ⟨hv, hes⟩ := List.forall_mem_cons.1 h
      rw [marshalEntries, entriesToDatums]
      refine .after _ fun key => (hv depth).bind fun t d htd => ?_
      exact (ih hes).bind fun ts ds hlater => .gives (.cons ⟨rfl, htd⟩ hlater)

/-- The entries of the object for a moment are datums in either form. -/
theorem concords_moment (m : Moment) : (Value.moment m).Concords := by
  intro depth
  rw [marshal, toDatum]
  refine .after _ fun _ => .after _ fun entries => .gives (.object ?_)
  induction entries with
  | nil => exact .nil
  | cons e es ih => exact .cons ⟨rfl, .ofDatum e.2⟩ ih

section Kinds

variable {v : Value}

theorem concords_array {items : List Value} (hitems : ∀ w ∈ items, w.Concords)
    (hmarshal : ∀ depth, v.marshal depth = (checkDepth depth >>= fun _ =>
      (marshalItems items (depth + 1)).map Term.makeArray))
    (hdatum : ∀ depth, v.toDatum depth = (checkDepth depth >>= fun _ =>
      (itemsToDatums items (depth + 1)).map Datum.ofList)) : v.Concords := by
  intro depth
  rw [hmarshal, hdatum]
  exact .after _ fun _ => (concord_items hitems).map fun _ _ => .array

theorem concords_object {entries : List (Value × Value)} (hentries : ∀ e ∈ entries, e.2.Concords)
    (hmarshal : ∀ depth, v.marshal depth = (checkDepth depth >>= fun _ =>
      (marshalEntries entries (depth + 1)).map Term.makeObject))
    (hdatum : ∀ depth, v.toDatum depth = (checkDepth depth >>= fun _ =>
      (entriesToDatums entries (depth + 1)).map Datum.ofEntries)) : v.Concords := by
  intro depth
  rw [hmarshal, hdatum]
  exact .after _ fun _ => (concord_entries hentries).map fun _ _ => .object

theorem concords_leaf
    (hmarshal : ∀ depth, v.marshal depth = (do
      checkDepth depth
      match ← v.scalar? with
      | some d => return Term.ofDatum d
      | none => throw (.ofCause (.unsupported v.typeName))))
    (hdatum : ∀ depth, v.toDatum depth = (do
      checkDepth depth
      match ← v.scalar? with
      | some d => return d
      | none => throw (.ofCause (.unsupported v.typeName)))) : v.Concords := by
  intro depth
  rw [hmarshal, hdatum]
  refine .after _ fun _ => .after _ fun d => ?_
  cases d with
  | none => exact .fails _
  | some d => exact .gives (.ofDatum d)

end Kinds

theorem concords (v : Value) : v.Concords := by
  induction v using Value.induction with
  | step v ih =>
      replace ih : ∀ w, IsPart w v → w.Concords := fun w hw => ih w (.single hw)
      cases v with
      | list items =>
          exact concords_array (fun w hw => ih w (.item hw)) (fun _ => rfl) fun _ => rfl
      | tuple items =>
          exact concords_array (fun w hw => ih w (.component hw)) (fun _ => rfl) fun _ => rfl
      | dict entries =>
          exact concords_object (fun e he => ih e.2 (.entry he)) (fun _ => rfl) fun _ => rfl
      | mapping entries =>
          exact concords_object (fun e he => ih e.2 (.image he)) (fun _ => rfl) fun _ => rfl
      | moment m => exact concords_moment m
      | _ => exact concords_leaf (fun _ => rfl) fun _ => rfl

/-- From every depth on a value is encoded in both ways or in none. If it is not then both
encoders fail with one failure, and if it is then what is read of the term is what is read of the
datum, whether it is a value or a failure, for every format of times and at every depth. -/
theorem marshal_agrees_toDatum (v : Value) (depth : Int) :
    (∃ e, v.marshal depth = .error e ∧ v.toDatum depth = .error e) ∨
      ∃ t d, v.marshal depth = .ok t ∧ v.toDatum depth = .ok d ∧
        ∀ format place, t.unmarshal format place = d.unmarshal format place :=
  (v.concords depth).outcomes

end Value

end QueryDriver
