import Mathlib.Logic.Relation
import Mathlib.Order.WellFounded
import QueryDriver.Proofs.Effect
import QueryDriver.Value

/-!
# Parts of values

`IsPart w v` says that `w` is one of the values which `v` is made of: an argument, an item,
the value of an entry, an option of a table, a bound of a slice, or what a callable returns
for some parameters. Keys of entries and items of sets are no parts; they are never
compiled.

A value has only finitely many layers of parts, although a callable has infinitely many
results. So whatever holds of a value as soon as it holds of everything below it holds of
all values, which is `Value.induction`.

`Value.mapParts f` is the value with `f` of every part in its place. A function that goes through
a value layer by layer is `mapParts` of itself wherever it does nothing else.
-/

namespace QueryDriver.Value

/-- A value that is made of another one: `IsPart w v` says that `w` is a part of `v`. -/
inductive IsPart : Value → Value → Prop where
  | item {v : Value} {items : List Value} (h : v ∈ items) : IsPart v (.list items)
  | component {v : Value} {items : List Value} (h : v ∈ items) : IsPart v (.tuple items)
  | entry {e : Value × Value} {entries : List (Value × Value)} (h : e ∈ entries) :
      IsPart e.2 (.dict entries)
  | image {e : Value × Value} {entries : List (Value × Value)} (h : e ∈ entries) :
      IsPart e.2 (.mapping entries)
  | primaryKey {name durability : String} {p d c : Value} :
      IsPart p (.tableSpec name p d c durability)
  | datacenter {name durability : String} {p d c : Value} :
      IsPart d (.tableSpec name p d c durability)
  | cacheSize {name durability : String} {p d c : Value} :
      IsPart c (.tableSpec name p d c durability)
  | start {start stop step : Value} : IsPart start (.slice start stop step)
  | stop {start stop step : Value} : IsPart stop (.slice start stop step)
  | step {start stop step : Value} : IsPart step (.slice start stop step)
  | argument {op : Operator} {v : Value} {args : List Value} (h : v ∈ args) :
      IsPart v (.expr op args)
  | result {face : Face} {run : List Nat → Except Failure Value} {params : List Nat} {v : Value}
      (h : run params = .ok v) : IsPart v (.func face run)

section Parts

variable {w : Value} {items : List Value} {entries : List (Value × Value)}

theorem isPart_list : IsPart w (.list items) ↔ w ∈ items :=
  ⟨fun h => by cases h; assumption, .item⟩

theorem isPart_tuple : IsPart w (.tuple items) ↔ w ∈ items :=
  ⟨fun h => by cases h; assumption, .component⟩

theorem isPart_dict : IsPart w (.dict entries) ↔ ∃ e ∈ entries, e.2 = w := by
  constructor
  · intro h
    cases h with
    | entry he => exact ⟨_, he, rfl⟩
  · rintro ⟨e, he, rfl⟩
    exact .entry he

theorem isPart_mapping : IsPart w (.mapping entries) ↔ ∃ e ∈ entries, e.2 = w := by
  constructor
  · intro h
    cases h with
    | image he => exact ⟨_, he, rfl⟩
  · rintro ⟨e, he, rfl⟩
    exact .image he

end Parts

/-- A value without parts that is not made by a builder. -/
def isLeaf : Value → Bool
  | .list _ | .tuple _ | .dict _ | .mapping _ | .slice .. | .tableSpec .. | .expr .. | .func .. =>
    false
  | _ => true

theorem forall_isPart_leaf {P : Value → Prop} {v : Value} (h : v.isLeaf = true) :
    ∀ w, IsPart w v → P w := by
  intro w hw
  cases hw <;> cases h

section MapParts

/-- The value with the images of its parts in their places. -/
def mapParts (f : Value → Value) (v : Value) : Value :=
  match v with
  | .list items => .list (items.map f)
  | .tuple items => .tuple (items.map f)
  | .dict entries => .dict (entries.map fun e => (e.1, f e.2))
  | .mapping entries => .mapping (entries.map fun e => (e.1, f e.2))
  | .slice start stop step => .slice (f start) (f stop) (f step)
  | .tableSpec name p d c durability => .tableSpec name (f p) (f d) (f c) durability
  | .expr op args => .expr op (args.map f)
  | .func face run => .func face fun params => (run params).map f
  | v => v

variable {f : Value → Value} {v x : Value}

/-- The parts are then the images of the parts. -/
theorem exists_of_isPart_mapParts (h : IsPart x (v.mapParts f)) : ∃ w, IsPart w v ∧ x = f w := by
  cases v with
  | list items =>
      obtain ⟨w, hw, rfl⟩ := List.mem_map.1 (isPart_list.1 h)
      exact ⟨w, .item hw, rfl⟩
  | tuple items =>
      obtain ⟨w, hw, rfl⟩ := List.mem_map.1 (isPart_tuple.1 h)
      exact ⟨w, .component hw, rfl⟩
  | dict entries =>
      obtain ⟨_, hmem, rfl⟩ := isPart_dict.1 h
      obtain ⟨e, he, rfl⟩ := List.mem_map.1 hmem
      exact ⟨e.2, .entry he, rfl⟩
  | mapping entries =>
      obtain ⟨_, hmem, rfl⟩ := isPart_mapping.1 h
      obtain ⟨e, he, rfl⟩ := List.mem_map.1 hmem
      exact ⟨e.2, .image he, rfl⟩
  | tableSpec name p d c durability =>
      cases h with
      | primaryKey => exact ⟨p, .primaryKey, rfl⟩
      | datacenter => exact ⟨d, .datacenter, rfl⟩
      | cacheSize => exact ⟨c, .cacheSize, rfl⟩
  | slice start stop step =>
      cases h with
      | start => exact ⟨start, .start, rfl⟩
      | stop => exact ⟨stop, .stop, rfl⟩
      | step => exact ⟨step, .step, rfl⟩
  | expr op args =>
      cases h with
      | argument h =>
          obtain ⟨w, hw, rfl⟩ := List.mem_map.1 h
          exact ⟨w, .argument hw, rfl⟩
  | func face run =>
      cases h with
      | result h =>
          obtain ⟨w, hw, rfl⟩ := map_ok h
          exact ⟨w, .result hw, rfl⟩
  | _ => cases h

/-- Parts that are their own images leave the value as it is. -/
theorem mapParts_eq_self (h : ∀ w, IsPart w v → f w = w) : v.mapParts f = v := by
  have hitems {items : List Value} (hw : ∀ w ∈ items, IsPart w v) : items.map f = items :=
    (List.map_congr_left fun w hw' => h w (hw w hw')).trans (List.map_id _)
  have hentries {entries : List (Value × Value)} (he : ∀ e ∈ entries, IsPart e.2 v) :
      (entries.map fun e => (e.1, f e.2)) = entries :=
    (List.map_congr_left fun e he' => congrArg (e.1, ·) (h e.2 (he e he'))).trans (List.map_id _)
  cases v with
  | list items => rw [mapParts, hitems fun _ => .item]
  | tuple items => rw [mapParts, hitems fun _ => .component]
  | dict entries => rw [mapParts, hentries fun _ => .entry]
  | mapping entries => rw [mapParts, hentries fun _ => .image]
  | slice start stop step => rw [mapParts, h _ .start, h _ .stop, h _ .step]
  | tableSpec name p d c durability =>
      rw [mapParts, h _ .primaryKey, h _ .datacenter, h _ .cacheSize]
  | expr op args => rw [mapParts, hitems fun _ => .argument]
  | func face run =>
      have hrun : (fun params => (run params).map f) = run := by
        funext params
        cases hresult : run params with
        | error e => rfl
        | ok w => rw [Except.map, h w (.result hresult)]
      rw [mapParts, hrun]
  | _ => rfl

/-- Whether a value counts as true is not for its parts to say. -/
theorem truthy_mapParts : (v.mapParts f).truthy = v.truthy := by
  cases v with
  | list items | tuple items => simp [mapParts, truthy]
  | dict entries | mapping entries => simp [mapParts, truthy]
  | _ => rfl

end MapParts

/-- A value below another one: a part, or a part of a part, and so on. -/
abbrev Below : Value → Value → Prop := Relation.TransGen IsPart

mutual

theorem acc_isPart : ∀ v : Value, Acc IsPart v
  | .list items => ⟨_, fun _ h => by cases h with | item h => exact acc_items items _ h⟩
  | .tuple items => ⟨_, fun _ h => by cases h with | component h => exact acc_items items _ h⟩
  | .dict entries => ⟨_, fun _ h => by cases h with | entry h => exact acc_entries entries _ h⟩
  | .mapping entries =>
      ⟨_, fun _ h => by cases h with | image h => exact acc_entries entries _ h⟩
  | .tableSpec _ p d c _ => ⟨_, fun _ h => by
      cases h with
      | primaryKey => exact acc_isPart p
      | datacenter => exact acc_isPart d
      | cacheSize => exact acc_isPart c⟩
  | .slice start stop step => ⟨_, fun _ h => by
      cases h with
      | start => exact acc_isPart start
      | stop => exact acc_isPart stop
      | step => exact acc_isPart step⟩
  | .expr _ args => ⟨_, fun _ h => by cases h with | argument h => exact acc_items args _ h⟩
  | .func _ run => ⟨_, fun _ h => by
      cases h with | @result _ _ params _ h => exact acc_result (run params) _ h⟩
  | .null | .bool _ | .int _ | .double _ | .fraction .. | .text _ | .moment _ | .duration _
  | .absent | .bytes _ | .set _ | .complex .. | .decimal _ | .operator _ | .object ..
  | .row | .placeholder _ => ⟨_, nofun⟩

theorem acc_items : ∀ (items : List Value), ∀ v ∈ items, Acc IsPart v
  | [] => nofun
  | v :: vs => List.forall_mem_cons.2 ⟨acc_isPart v, acc_items vs⟩

theorem acc_entries : ∀ (entries : List (Value × Value)), ∀ e ∈ entries, Acc IsPart e.2
  | [] => nofun
  | (_, v) :: es => List.forall_mem_cons.2 ⟨acc_isPart v, acc_entries es⟩

theorem acc_result : ∀ (result : Except Failure Value), ∀ v, result = .ok v → Acc IsPart v
  | .ok v, _, h => by
      cases h
      exact acc_isPart v
  | .error _, _, h => nomatch h

end

/-- What holds of a value when it holds of all values below it holds of every value. -/
theorem induction {P : Value → Prop} (step : ∀ v, (∀ w, Below w v → P w) → P v) (v : Value) :
    P v :=
  (WellFounded.transGen ⟨acc_isPart⟩).induction v step

/-- `P` holds of a value and of everything below it. -/
def Throughout (P : Value → Prop) (v : Value) : Prop :=
  ∀ w, Relation.ReflTransGen IsPart w v → P w

namespace Throughout

variable {P : Value → Prop} {v w : Value}

theorem self (h : v.Throughout P) : P v := h v .refl

theorem part (h : v.Throughout P) (hw : IsPart w v) : w.Throughout P :=
  fun x hx => h x (hx.tail hw)

theorem below (h : v.Throughout P) (hw : Below w v) : w.Throughout P :=
  fun x hx => h x (hx.trans hw.to_reflTransGen)

theorem of_parts (hself : P v) (h : ∀ w, IsPart w v → w.Throughout P) : v.Throughout P := by
  intro x hx
  cases hx with
  | refl => exact hself
  | tail hx hw => exact h _ hw x hx

theorem mono {Q : Value → Prop} (hPQ : ∀ w, P w → Q w) (h : v.Throughout P) : v.Throughout Q :=
  fun w hw => hPQ w (h w hw)

end Throughout

end QueryDriver.Value
