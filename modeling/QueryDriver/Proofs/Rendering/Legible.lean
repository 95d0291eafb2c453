import QueryDriver.Proofs.Builder.Built
import QueryDriver.Proofs.Rendering.Spelling

/-!
# What is written so that it can be read

A value is `Legible` in a slot if its text shows all that the compiler makes use of. The text of a
value leaves out the following, and there the value is not legible.

* A node for a function is written as the function. As a receiver it cannot be told from a function
  that applies the method to its result; with a hint that is not the number of parameters that the
  operator passes, from one with another hint; and around what is no callable, where no operator
  expects a function, from what it is around.
* A class is written like a function with its parameters and its result, but it is not compiled.
* The options of a table are written as if they stood by themselves, so numbers of placeholders in
  them are handed out again.

A callable that is not written with its body falls back to its name, and is not legible either.

What is legible is written as a phrase that spells it, whatever number the next placeholder gets:
this is what `Value.Tells` says, and here it is proved for literals and functions.
-/

namespace QueryDriver

/-! ### Renderings that succeed -/

namespace Rendering

variable {α β : Type}

/-- The rendering that begins with the number `k` comes to `a` and goes on with the number
`k'`. -/
def Writes (x : Rendering α) (k : Nat) (a : α) (k' : Nat) : Prop :=
  ∀ calls, ∃ calls', x.run ⟨k, calls⟩ = (.ok a, ⟨k', calls'⟩)

theorem writes_pure (a : α) (k : Nat) : Writes (pure a) k a k :=
  fun calls => ⟨calls, rfl⟩

theorem Writes.bind {x : Rendering α} {f : α → Rendering β} {k k' k'' : Nat} {a : α} {b : β}
    (hx : Writes x k a k') (hf : Writes (f a) k' b k'') : Writes (x >>= f) k b k'' := by
  intro calls
  obtain ⟨calls', hx⟩ := hx calls
  obtain ⟨calls'', hf⟩ := hf calls'
  exact ⟨calls'', by rw [run_bind_of_ok hx, hf]⟩

theorem Writes.tryCatch {x : Rendering α} {k k' : Nat} {a : α} (hx : Writes x k a k')
    (handler : Failure → Rendering α) : Writes (tryCatch x handler) k a k' := by
  intro calls
  obtain ⟨calls', hx⟩ := hx calls
  exact ⟨calls', by rw [run_tryCatch, hx]⟩

theorem writes_liftM {x : Except Failure α} {a : α} (hx : x = .ok a) (k : Nat) :
    Writes (liftM x) k a k := by
  subst hx
  exact fun calls => ⟨calls, rfl⟩

theorem writes_takePlaceholders (count k : Nat) :
    Writes (takePlaceholders count) k (List.range' k count) (k + count) :=
  fun calls => ⟨calls, rfl⟩

theorem writes_countCall (face : Face) (k : Nat) : Writes (countCall face) k () k := by
  intro calls
  unfold countCall
  split
  · exact ⟨calls + 1, rfl⟩
  · exact ⟨calls, rfl⟩

/-- A callable that does not fall back to its name is written with its body. -/
theorem writes_function {face : Face} {hint : Value} {run : List Nat → Rendering String}
    {count k k' : Nat} {body : String} (hcount : face.placeholders hint = .ok count)
    (hadmits : face.admits count = .ok ())
    (hbody : Writes (run (List.range' k count)) (k + count) body k') :
    Writes (function face hint run) k (Phrase.opening (List.range' k count) ++ body) k' := by
  unfold function
  -- The function returns from within what it tries.
  refine Writes.bind (a := .error (Phrase.opening (List.range' k count) ++ body))
    (Writes.tryCatch ?_ _) (writes_pure _ _)
  refine (writes_liftM hcount k).bind ?_
  refine (writes_takePlaceholders count k).bind ?_
  refine (writes_liftM hadmits _).bind ?_
  refine (writes_countCall face _).bind ?_
  exact hbody.bind (writes_pure _ _)

end Rendering

/-! ### What can be read -/

/-- The last argument of an operation may be left out. -/
def Verb.hasSpare (v : Verb) : Bool := v.trailing?.isSome || v = .deleteAt || v = .nestedLiteral

/-- Operations that leave out the database leave out nothing else. -/
theorem Verb.hasSpare_of_afterDatabase {v : Verb} (h : v.afterDatabase?.isSome = true) :
    v.hasSpare = false := by
  cases v <;> first | rfl | cases h

/-- What the node has in the place of an argument in this role. -/
def Role.slot : Role → Slot
  | .function arity | .optionalFunction arity => .function arity
  | .ordering => .ordering
  | _ => .value

/-- The operation of the row expects of its arguments what the parameters are turned into. -/
def Row.fitsSlots (row : Row) : Bool :=
  match row.op with
  | .verb v => row.params.zipIdx.all fun p =>
      v.slot ((if row.place = .first then 1 else 0) + p.2) = p.1.role.slot
  | _ => true

/-- Functions and orderings are expected where the builders make them. -/
theorem Catalog.slot_eq {row : Row} (hrow : row ∈ Catalog.methods ++ Catalog.functions) {v : Verb}
    (hv : row.op = .verb v) {i : Nat} {p : Parameter} (hp : row.params[i]? = some p) :
    v.slot ((if row.place = .first then 1 else 0) + i) = p.role.slot := by
  have hall : (Catalog.methods ++ Catalog.functions).all Row.fitsSlots = true := by decide +kernel
  have hfits := List.all_eq_true.1 hall row hrow
  rw [Row.fitsSlots, hv] at hfits
  simpa using List.all_eq_true.1 hfits (p, i) (List.mk_mem_zipIdx_iff_getElem?.2 hp)

namespace Value

/-- A literal that has no parts and is no number in a format of its own. -/
def isBasic : Value → Bool
  | .null | .bool _ | .int _ | .text _ => true
  | _ => false

/-- A literal without expressions in it. -/
inductive Plain : Value → Prop where
  | basic {v : Value} (h : v.isBasic = true) : Plain v
  | list {items : List Value} (h : ∀ v ∈ items, Plain v) : Plain (.list items)
  | dict {entries : List (Value × Value)} (hkey : ∀ e ∈ entries, ∃ s, e.1 = .text s)
      (h : ∀ e ∈ entries, Plain e.2) : Plain (.dict entries)

/-- Nothing that the compiler makes use of is missing from the text of the value. -/
inductive Legible : Slot → Value → Prop where
  | basic {v : Value} (h : v.isBasic = true) : Legible .value v
  | row : Legible .value .row
  | placeholder (n : Nat) : Legible .value (.placeholder n)
  | list {items : List Value} (h : ∀ v ∈ items, Legible .value v) : Legible .value (.list items)
  | dict {entries : List (Value × Value)} (hkey : ∀ e ∈ entries, ∃ s, e.1 = .text s)
      (h : ∀ e ∈ entries, Legible .value e.2) : Legible .value (.dict entries)
  | spec {name durability : String} {p d c : Value} (hp : p.Plain) (hd : d.Plain) (hc : c.Plain) :
      Legible .value (.tableSpec name p d c durability)
  | applied {k j : Int} {face : Face} {run : List Nat → Except Failure Value} {count : Nat}
      (hj : -1 ≤ j) (htakes : Takes k j count) (htype : face.isType = false)
      (hcount : face.placeholders (.int j) = .ok count)
      (hadmits : face.admits count = .ok ())
      (hrun : ∀ first, ∃ v, run (List.range' first count) = .ok v)
      (h : ∀ first v, run (List.range' first count) = .ok v → Legible .value v) :
      Legible (.function k) (.expr .func [.func face run, .int j])
  | constant {k : Int} {body : Value} (hbody : body.isFunction = false)
      (h : Legible .value body) : Legible (.function k) (.expr .func [body, .int k])
  | callable {face : Face} {run : List Nat → Except Failure Value}
      (h : Legible (.function (-1)) (.expr .func [.func face run, .int (-1)])) :
      Legible .value (.func face run)
  | wrapped {j : Int} {face : Face} {run : List Nat → Except Failure Value}
      (h : Legible (.function (-1)) (.expr .func [.func face run, .int j])) :
      Legible .value (.expr .func [.func face run, .int j])
  | ordered {v : Value} (hv : v.isOrdering = true) (h : Legible .value v) : Legible .ordering v
  | key {j : Int} {body : Value} (hbody : body.isOrdering = false)
      (h : Legible (.function 1) (.expr .func [body, .int j])) :
      Legible .ordering (.expr .func [body, .int j])
  | literal {v : Value} (h : Legible .value v) : Legible .value (.expr .literal [v])
  | setting {s : Setting} {inner value : Value} (hs : s ≠ .returnValues)
      (hinner : inner.isFunction = false) (h : Legible .value inner) :
      Legible .value (.expr (.setting s) [inner, value])
  | returnValues {inner : Value} (hinner : inner.isFunction = false) (h : Legible .value inner) :
      Legible .value (.expr (.setting .returnValues) [inner, .bool true])
  | field {receiver : Value} {name : String} (hreceiver : receiver.isFunction = false)
      (h : Legible .value receiver) : Legible .value (.expr (.verb .field) [receiver, .text name])
  | call {function : Value} {operands : List Value}
      (hreceiver : ∀ w, operands = [w] → w.isExpr = true → w.isFunction = false)
      (hfunction : Legible (.function (-1)) function) (h : ∀ w ∈ operands, Legible .value w) :
      Legible .value (.expr (.verb .call) (function :: operands))
  | verb {v : Verb} {args spare : List Value} (hcall : v.isCall = true)
      (hspare : spare = [] ∨ v.hasSpare = true ∧ spare = [.absent])
      (hreceiver : v.standsAlone = false → ∀ w ∈ args.head?, w.isExpr = true → w.isFunction = false)
      (h : ∀ (i : Nat) w, args[i]? = some w → Legible (v.slot i) w) :
      Legible .value (.expr (.verb v) (args ++ spare))

theorem forall_getElem?_cons {α : Type} {P : Nat → α → Prop} {x : α} {xs : List α} (hx : P 0 x)
    (hxs : ∀ (i : Nat) w, xs[i]? = some w → P (i + 1) w) :
    ∀ (i : Nat) w, (x :: xs)[i]? = some w → P i w := by
  intro i w hw
  cases i with
  | zero =>
      cases hw
      exact hx
  | succ i => exact hxs i w hw

/-- An operation none of whose arguments is left out. -/
theorem Legible.whole {v : Verb} {args : List Value} (hcall : v.isCall = true)
    (hreceiver : v.standsAlone = false → ∀ w ∈ args.head?, w.isExpr = true → w.isFunction = false)
    (h : ∀ (i : Nat) w, args[i]? = some w → Legible (v.slot i) w) :
    Legible .value (.expr (.verb v) args) := by
  rw [← List.append_nil args]
  exact .verb hcall (.inl rfl) hreceiver h

/-! ### Reading what is written -/

theorem sketches_eq_map (vs : List Value) : sketches vs = vs.map sketch := by
  induction vs with
  | nil => rfl
  | cons v vs ih => rw [sketches, ih, List.map_cons]

theorem value_sketch (v : Value) : v.sketch.value = v := by
  cases v <;> rfl

/-- Placeholders are written as they are numbered, and all have been numbered. -/
def Numbered (k : Nat) (ρ : Nat → Nat → Prop) : Prop := ∀ a n, ρ a n → a = n ∧ a < k

theorem Numbered.mono {k k' : Nat} {ρ : Nat → Nat → Prop} (h : Numbered k ρ) (hk : k ≤ k') :
    Numbered k' ρ :=
  fun a n han => ⟨(h a n han).1, (h a n han).2.trans_le hk⟩

/-- Whatever the next number is, the value is written as some phrase that spells it. -/
def Tells (slot : Slot) (ρ : Nat → Nat → Prop) (v : Value) : Prop :=
  ∀ k, Numbered k ρ → ∃ φ k', k ≤ k' ∧ Spells slot ρ v φ ∧ v.sketch.text.Writes k φ.text k'

variable {ρ : Nat → Nat → Prop}

/-- What is written for a list of values is written for each of them in turn. -/
theorem tells_each (slot : Nat → Slot) {vs : List Value}
    (h : ∀ (i : Nat) v, vs[i]? = some v → Tells (slot i) ρ v) {k : Nat} (hρ : Numbered k ρ) :
    ∃ (φs : List Phrase) (k' : Nat), k ≤ k' ∧ vs.length = φs.length ∧
      (∀ (i : Nat) v φ, vs[i]? = some v → φs[i]? = some φ → Spells (slot i) ρ v φ) ∧
      (Rendering.each (vs.map (·.sketch.text))).Writes k (φs.map Phrase.text) k' := by
  induction vs generalizing slot k with
  | nil => exact ⟨[], k, le_rfl, rfl, (fun i v φ hv => by cases hv), Rendering.writes_pure _ _⟩
  | cons v vs ih =>
      obtain ⟨φ, k', hk', hφ, hv⟩ := h 0 v rfl k hρ
      obtain ⟨φs, k'', hk'', hlength, hφs, hvs⟩ := ih (fun i => slot (i + 1))
        (fun i w hw => h (i + 1) w hw) (hρ.mono hk')
      refine ⟨φ :: φs, k'', hk'.trans hk'', congrArg (· + 1) hlength, fun i w ψ hw hψ => ?_, ?_⟩
      · cases i with
        | zero =>
            cases hw
            cases hψ
            exact hφ
        | succ i => exact hφs i w ψ hw hψ
      · rw [Rendering.each, List.map_cons, List.mapM_cons]
        exact hv.bind (hvs.bind (Rendering.writes_pure _ _))

/-- What is written for a dictionary is written for each value in turn, with its key. -/
theorem tells_entries {entries : List (Value × Value)}
    (hkey : ∀ e ∈ entries, ∃ s, e.1 = .text s) (h : ∀ e ∈ entries, Tells .value ρ e.2) {k : Nat}
    (hρ : Numbered k ρ) :
    ∃ (es : List (String × Phrase)) (k' : Nat), k ≤ k' ∧
      entries.map (·.1) = es.map (fun e => .text e.1) ∧
      (∀ (i : Nat) e f, entries[i]? = some e → es[i]? = some f → Spells .value ρ e.2 f.2) ∧
      (Rendering.each (entries.map fun e =>
        Sketch.entry e.1.sketch.shown e.2.sketch.text)).Writes k (Phrase.entryTexts es) k' := by
  induction entries generalizing k with
  | nil => exact ⟨[], k, le_rfl, rfl, (fun i v φ hv => by cases hv), Rendering.writes_pure _ _⟩
  | cons e entries ih =>
      obtain ⟨key, v⟩ := e
      obtain ⟨⟨s, hs⟩, hkeys⟩ := List.forall_mem_cons.1 hkey
      obtain ⟨hv, hvs⟩ := List.forall_mem_cons.1 h
      cases hs
      obtain ⟨φ, k', hk', hφ, hv⟩ := hv k hρ
      obtain ⟨es, k'', hk'', hes, hφs, hvs⟩ := ih hkeys hvs (hρ.mono hk')
      refine ⟨(s, φ) :: es, k'', hk'.trans hk'', by rw [List.map_cons, List.map_cons, hes],
        fun i e f he hf => ?_, ?_⟩
      · cases i with
        | zero =>
            cases he
            cases hf
            exact hφ
        | succ i => exact hφs i e f he hf
      · rw [Rendering.each, List.map_cons, List.mapM_cons]
        have hentry : (Sketch.entry (Value.text s).sketch.shown v.sketch.text).Writes k
            (Text.quoted s ++ ": " ++ φ.text) k' :=
          (Rendering.writes_pure _ _).bind (hv.bind (Rendering.writes_pure _ _))
        exact hentry.bind (hvs.bind (Rendering.writes_pure _ _))

theorem tells_of_pure {v : Value} {head : Phrase.Head}
    (hφ : Spells .value ρ v (.chain head [])) (hv : v.sketch.text = pure head.text) :
    Tells .value ρ v := by
  intro k _
  refine ⟨_, k, le_rfl, hφ, ?_⟩
  rw [hv, Phrase.text_head]
  exact Rendering.writes_pure _ _

theorem tells_basic {v : Value} (h : v.isBasic = true) : Tells .value ρ v := by
  cases v with
  | null => exact tells_of_pure .null rfl
  | bool b => exact tells_of_pure (.bool b) rfl
  | int n => exact tells_of_pure (.int n) rfl
  | text s => exact tells_of_pure (.text s) rfl
  | _ => cases h

theorem sketch_list (items : List Value) : (Value.list items).sketch.text = (do
    let texts ← Rendering.each (items.map (·.sketch.text))
    return "[" ++ Text.commaList texts ++ "]") := by
  rw [sketch, sketches_eq_map]
  simp [Sketch.of, Sketch.items, Function.comp_def]

theorem entrySketches_eq_map (entries : List (Value × Value)) :
    entrySketches entries = entries.map fun e => (e.1.sketch, e.2.sketch) := by
  induction entries with
  | nil => rfl
  | cons e entries ih =>
      obtain ⟨key, v⟩ := e
      rw [entrySketches, ih, List.map_cons]

theorem sketch_dict (entries : List (Value × Value)) : (Value.dict entries).sketch.text = (do
    let texts ← Rendering.each (entries.map fun e =>
      Sketch.entry e.1.sketch.shown e.2.sketch.text)
    return "\x7b" ++ Text.commaList texts ++ "\x7d") := by
  rw [sketch, entrySketches_eq_map]
  simp [Sketch.of, Sketch.entries, Function.comp_def]

theorem tells_list {items : List Value} (h : ∀ v ∈ items, Tells .value ρ v) :
    Tells .value ρ (.list items) := by
  intro k hρ
  obtain ⟨φs, k', hk', hlength, hφs, hitems⟩ := tells_each (fun _ => .value)
    (fun i v hv => h v (List.mem_of_getElem? hv)) hρ
  refine ⟨_, k', hk', .list hlength hφs, ?_⟩
  rw [sketch_list, Phrase.text_head, Phrase.Head.text, Phrase.texts_eq_map]
  exact hitems.bind (Rendering.writes_pure _ _)

theorem tells_dict {entries : List (Value × Value)} (hkey : ∀ e ∈ entries, ∃ s, e.1 = .text s)
    (h : ∀ e ∈ entries, Tells .value ρ e.2) : Tells .value ρ (.dict entries) := by
  intro k hρ
  obtain ⟨es, k', hk', hkeys, hes, hentries⟩ := tells_entries hkey h hρ
  refine ⟨_, k', hk', .dict hkeys hes, ?_⟩
  rw [sketch_dict, Phrase.text_head, Phrase.Head.text]
  exact hentries.bind (Rendering.writes_pure _ _)

theorem Plain.tells {v : Value} (h : v.Plain) : Tells .value ρ v := by
  induction h with
  | basic h => exact tells_basic h
  | list _ ih => exact tells_list ih
  | dict hkey _ ih => exact tells_dict hkey ih

/-- A literal is shown by itself as it is written inside an expression. -/
theorem Plain.shown_eq {v : Value} (h : v.Plain) : v.sketch.shown = v.sketch.text := by
  induction h with
  | @basic v h => cases v <;> first | rfl | cases h
  | @list items _ ih =>
      have hitems : items.map (·.sketch.shown) = items.map (·.sketch.text) :=
        List.map_congr_left ih
      rw [sketch_list, ← hitems, sketch, sketches_eq_map]
      simp [Sketch.of, Sketch.enclosed, Sketch.shownItems, Function.comp_def]
  | @dict entries _ _ ih =>
      have hentries : entries.map (fun e => Sketch.entry e.1.sketch.shown e.2.sketch.shown) =
          entries.map fun e => Sketch.entry e.1.sketch.shown e.2.sketch.text :=
        List.map_congr_left fun e he => by rw [ih e he]
      rw [sketch_dict, ← hentries, sketch, entrySketches_eq_map]
      simp [Sketch.of, Sketch.entries, Function.comp_def]

theorem tells_spec {name durability : String} {p d c : Value} (hp : p.Plain) (hd : d.Plain)
    (hc : c.Plain) : Tells .value ρ (.tableSpec name p d c durability) := by
  intro k hρ
  obtain ⟨φp, kp, hkp, hφp, hp'⟩ := hp.tells k hρ
  obtain ⟨φd, kd, hkd, hφd, hd'⟩ := hd.tells kp (hρ.mono hkp)
  obtain ⟨φc, kc, hkc, hφc, hc'⟩ := hc.tells kd (hρ.mono (hkp.trans hkd))
  refine ⟨_, kc, (hkp.trans hkd).trans hkc, .spec hφp hφd hφc, ?_⟩
  rw [Phrase.text_head, Phrase.Head.text]
  rw [← hp.shown_eq] at hp'
  rw [← hd.shown_eq] at hd'
  rw [← hc.shown_eq] at hc'
  exact hp'.bind (hd'.bind (hc'.bind (Rendering.writes_pure _ _)))

/-! ### Functions -/

theorem Numbered.named {k : Nat} (hρ : Numbered k ρ) (count : Nat) :
    Numbered (k + count) (Named k (List.range' k count) ρ) := by
  rintro a n (han | han)
  · obtain ⟨i, -, rfl, hn⟩ := mem_zip_range'.1 han
    rw [List.getElem?_eq_some_iff] at hn
    obtain ⟨hi, rfl⟩ := hn
    rw [List.length_range'] at hi
    exact ⟨by simp, by omega⟩
  · exact ⟨(hρ a n han).1, (hρ a n han).2.trans_le (Nat.le_add_right _ _)⟩

theorem Numbered.compatible {k : Nat} (hρ : Numbered k ρ) : Compatible ρ ρ ρ where
  along a b n hab han := by
    obtain ⟨rfl, -⟩ := hρ a b hab
    exact han
  names b n hbn := ⟨b, hbn⟩

theorem Numbered.bounded {k : Nat} (hρ : Numbered k ρ) : Bounded k ρ :=
  fun a n han => (hρ a n han).2

theorem named_range' (k count : Nat) (ρ : Nat → Nat → Prop) :
    Named k (List.range' k count) ρ = Beside k k count ρ := by
  funext a n
  rw [Named, Beside, List.length_range']

theorem sketch_applied (face : Face) (run : List Nat → Except Failure Value) (k : Int) :
    (Value.expr .func [.func face run, .int k]).sketch.text =
      Rendering.function face (.int k) fun ns => sketchResult (run ns) := rfl

theorem tells_applied {k j : Int} {face : Face} {run : List Nat → Except Failure Value}
    {count : Nat} (hj : -1 ≤ j) (htakes : Takes k j count) (htype : face.isType = false)
    (hcount : face.placeholders (.int j) = .ok count)
    (hadmits : face.admits count = .ok ())
    (hrun : ∀ first, ∃ v, run (List.range' first count) = .ok v)
    (hself : Renamed ρ (.func face run) (.func face run))
    (h : ∀ first v, run (List.range' first count) = .ok v →
      ∀ ρ, Renamed ρ v v → Tells .value ρ v) :
    Tells (.function k) ρ (.expr .func [.func face run, .int j]) := by
  intro m hρ
  have hresults (first : Nat) (w v : Value) (hw : run (List.range' m count) = .ok w)
      (hv : run (List.range' first count) = .ok v) : Renamed (Beside m first count ρ) w v := by
    have hboth := hself.results hadmits m first
    rw [hw, hv] at hboth
    cases hboth with
    | ok hwv => exact hwv
  obtain ⟨w, hw⟩ := hrun m
  obtain ⟨body, k', hk', hbody, hwrites⟩ := h m w hw (Named m (List.range' m count) ρ)
    (named_range' m count ρ ▸ hresults m w w hw hw) (m + count) (hρ.named count)
  have hlength : (List.range' m count).length = count := List.length_range'
  refine ⟨.lambda (List.range' m count) body, k', (Nat.le_add_right _ _).trans hk',
    .applied hj (hlength.symm ▸ htakes) htype (hlength.symm ▸ hcount) (hlength.symm ▸ hadmits)
      List.nodup_range'
      (fun a n han hn => ?_) (hlength.symm ▸ hrun) (fun first v hv => ?_), ?_⟩
  · have hn := (List.mem_range'_1.1 hn).1
    obtain ⟨rfl, ha⟩ := hρ a n han
    omega
  · rw [hlength] at hv
    have hwv := hresults first w v hw hv
    refine hbody.renamed (by rw [hlength]; exact hwv)
      (hρ.compatible.named hρ.bounded hρ.bounded first (List.range' m count))
      ⟨_, hρ.bounded.named _, hρ.bounded.beside first _⟩
  · rw [sketch_applied, Phrase.text]
    refine Rendering.writes_function hcount hadmits ?_
    rw [hw]
    exact hwrites

theorem applied_sketch {v : Value} (h : v.isFunction = false) (hint : Value) :
    v.sketch.applied hint = v.sketch.text := by
  cases v <;> first | rfl | cases h

theorem tells_constant {k : Int} {body : Value} (hbody : body.isFunction = false)
    (h : Tells .value ρ body) : Tells (.function k) ρ (.expr .func [body, .int k]) := by
  intro m hρ
  obtain ⟨φ, k', hk', hφ, hwrites⟩ := h m hρ
  refine ⟨φ, k', hk', .constant hbody hφ, ?_⟩
  have hsketch : (Value.expr .func [body, .int k]).sketch.text = body.sketch.applied (.int k) := rfl
  rw [hsketch, applied_sketch hbody]
  exact hwrites

/-- A phrase for what is no function is a chain. -/
theorem Spells.exists_chain {v : Value} {φ : Phrase} (h : Spells .value ρ v φ)
    (hv : v.isFunction = false) : ∃ head links, φ = .chain head links := by
  cases h <;> first | exact ⟨_, _, rfl⟩ | cases hv

end Value

end QueryDriver
