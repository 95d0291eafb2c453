import QueryDriver.Codec.Unmarshal
import QueryDriver.Proofs.Value.Part

/-!
# Normal forms

The wire knows fewer kinds of values than the host: one kind of number, one kind of sequence
and one kind of mapping, and no moments. `Value.normal` is what is left of a value, and it keeps
all that the wire can tell: the items and the entries in order, and the keys.

Dictionaries are filled key by key when they are read. As long as the keys are distinct that
makes no difference, `mergeEntries_of_distinct`.
-/

namespace QueryDriver.Value

/-- A number as a double, and any other value as it is. -/
def asDouble (v : Value) : Value :=
  match v.toDouble? with
  | some (.ok x) => .double x
  | _ => v

/-- The object that stands for a moment whose offset is known. -/
def timeObject (t : Moment) : Value :=
  match t.offset? with
  | some east => .dict [(.text markKey, .text timeMark),
      (.text "epoch_time", .double (t.epochSeconds east)), (.text "timezone", .text (Zone.text east))]
  | none => .moment t

mutual

/-- What is left of a value on the wire. -/
def normal (v : Value) : Value :=
  match v with
  | .list items | .tuple items => .list (normalItems items)
  | .dict entries | .mapping entries => .dict (normalEntries entries)
  | .moment t => timeObject t
  | .bool b => .bool b
  | _ => v.asDouble

def normalItems (items : List Value) : List Value :=
  match items with
  | [] => []
  | v :: vs => v.normal :: normalItems vs

def normalEntries (entries : List (Value × Value)) : List (Value × Value) :=
  match entries with
  | [] => []
  | (k, v) :: es => (k, v.normal) :: normalEntries es

end

theorem normalEntries_eq_map (entries : List (Value × Value)) :
    normalEntries entries = entries.map fun e => (e.1, e.2.normal) := by
  induction entries with
  | nil => rfl
  | cons e es ih => rw [normalEntries, ih, List.map_cons]

theorem asDouble_of_some {v : Value} {x : Double} (h : v.toDouble? = some (.ok x)) :
    v.asDouble = .double x := by
  rw [asDouble, h]

theorem asDouble_cases (v : Value) : v.asDouble = v ∨ ∃ x, v.asDouble = .double x := by
  unfold asDouble
  split
  · exact .inr ⟨_, rfl⟩
  · exact .inl rfl

/-- Only a text comes out as a text. -/
theorem eq_text_of_normal {v : Value} {s : String} (h : v.normal = .text s) : v = .text s := by
  have hscalar (h : v.asDouble = .text s) : v = .text s := by
    obtain hsame | ⟨x, hx⟩ := v.asDouble_cases
    · exact hsame.symm.trans h
    · cases hx.symm.trans h
  cases v with
  | list | tuple | dict | mapping | bool => cases h
  | moment t =>
      rw [normal, timeObject] at h
      split at h <;> cases h
  | _ => exact hscalar h

@[simp] theorem same_text (a b : String) : same (.text a) (.text b) = (a == b) := by
  simp [same, magnitude?]

/-- No key occurs twice. -/
def DistinctKeys (entries : List (Value × Value)) : Prop :=
  entries.Pairwise fun e e' => same e.1 e'.1 = false

theorem insertKey_of_fresh {entries : List (Value × Value)} {k v : Value}
    (h : ∀ e ∈ entries, same e.1 k = false) : insertKey entries k v = entries ++ [(k, v)] := by
  induction entries with
  | nil => rfl
  | cons e es ih =>
      obtain ⟨he, hes⟩ := List.forall_mem_cons.1 h
      rw [insertKey, he, if_neg Bool.false_ne_true, ih hes, List.cons_append]

theorem foldl_insertKey {found entries : List (Value × Value)}
    (h : DistinctKeys (found ++ entries)) :
    entries.foldl (fun found e => insertKey found e.1 e.2) found = found ++ entries := by
  induction entries generalizing found with
  | nil => rw [List.foldl_nil, List.append_nil]
  | cons e es ih =>
      have hfresh : ∀ e' ∈ found, same e'.1 e.1 = false := fun e' he' =>
        (List.pairwise_append.1 h).2.2 e' he' e List.mem_cons_self
      have hsplit : found ++ e :: es = found ++ [e] ++ es := by simp
      rw [List.foldl_cons, insertKey_of_fresh hfresh, hsplit, ih (hsplit ▸ h)]

/-- Entries whose keys are distinct replace none of one another. -/
theorem mergeEntries_of_distinct {entries : List (Value × Value)} (h : DistinctKeys entries) :
    mergeEntries entries = entries := by
  have hall : DistinctKeys ([] ++ entries) := h
  exact foldl_insertKey hall

/-- What becomes of the values does not matter for the keys. -/
theorem DistinctKeys.map {entries : List (Value × Value)} (h : DistinctKeys entries)
    (f : Value → Value) : DistinctKeys (entries.map fun e => (e.1, f e.2)) :=
  List.pairwise_map.2 h

theorem lookup_map (entries : List (Value × Value)) (f : Value → Value) (key : String) :
    lookup (entries.map fun e => (e.1, f e.2)) key = (lookup entries key).map f := by
  rw [lookup, lookup, List.find?_map, Option.map_map, Option.map_map]
  rfl

theorem DistinctKeys.normal {entries : List (Value × Value)} (h : DistinctKeys entries) :
    DistinctKeys (normalEntries entries) := by
  rw [normalEntries_eq_map]
  exact h.map Value.normal

/-- The entry under a key has the normal form of what was entered. -/
theorem lookup_normalEntries (entries : List (Value × Value)) (key : String) :
    lookup (normalEntries entries) key = (lookup entries key).map normal := by
  rw [normalEntries_eq_map, lookup_map]

/-- The value is no moment and does not look like the object that stands for one. -/
def Timeless : Value → Prop
  | .moment _ => False
  | .dict entries | .mapping entries => lookup entries markKey ≠ some (.text timeMark)
  | _ => True

theorem isTime_normalEntries {entries : List (Value × Value)}
    (h : lookup entries markKey ≠ some (.text timeMark)) :
    isTime (normalEntries entries) = false := by
  rw [isTime, lookup_normalEntries]
  cases hlookup : lookup entries markKey with
  | none => rfl
  | some v =>
      dsimp only [Option.map_some]
      unfold isOneOf
      split
      · rename_i s hs
        have hne : s ≠ timeMark := fun hmark => h (by rw [hlookup, eq_text_of_normal hs, hmark])
        simpa using hne
      · rfl

/-- The keys of a mapping are distinct. -/
def WellKeyed : Value → Prop
  | .dict entries | .mapping entries => DistinctKeys entries
  | _ => True

end QueryDriver.Value
