import QueryDriver.Proofs.Codec.Concord
import QueryDriver.Proofs.Codec.Misreading
import QueryDriver.Proofs.Codec.Normal

/-!
# Times are converted afterwards

A message can be read raw, with the objects that stand for times as they are, or natively, with the
moments. The native reading is the raw one with the moments put in, from the innermost objects
outwards: `Value.readTimes` makes the one of the other.

There is one thing that the raw reading does not show. Of two entries with one key only the later is
left of an object, but both are read, and a time that cannot be read fails there as well.
`Encoded.Replaced` has the places of a message where this happens.
-/

namespace QueryDriver

open Wire

namespace Value

/-! ### Converting a value -/

mutual

/-- A raw value with its time objects read, from the innermost outwards. -/
def readTimes (v : Value) : Except Failure Value :=
  match v with
  | .list items => (readTimesItems items).map .list
  | .dict entries => do
    let read ← readTimesEntries entries
    if isTime entries then timeOf read else return .dict read
  | _ => .ok v

def readTimesItems (items : List Value) : Except Failure (List Value) :=
  match items with
  | [] => .ok []
  | v :: vs => do
    let w ← readTimes v
    let ws ← readTimesItems vs
    return w :: ws

def readTimesEntries (entries : List (Value × Value)) : Except Failure (List (Value × Value)) :=
  match entries with
  | [] => .ok []
  | (k, v) :: es => do
    let w ← readTimes v
    let ws ← readTimesEntries es
    return (k, w) :: ws

end

/-- The entries have one key, and the value of the second is that of the first with its times
read. -/
def Converted (e e' : Value × Value) : Prop := e.1 = e'.1 ∧ e.2.readTimes = .ok e'.2

theorem readTimesItems_eq_mapM (vs : List Value) : readTimesItems vs = vs.mapM readTimes := by
  induction vs with
  | nil => rfl
  | cons v vs ih => rw [readTimesItems, ih, List.mapM_cons]

theorem readTimesEntries_eq_ok_iff {es es' : List (Value × Value)} :
    readTimesEntries es = .ok es' ↔ List.Forall₂ Converted es es' := by
  have hmapM : readTimesEntries es =
      es.mapM fun e => e.2.readTimes.map fun w => (e.1, w) := by
    induction es with
    | nil => rfl
    | cons e es ih =>
        rw [readTimesEntries, ih, List.mapM_cons]
        cases e.2.readTimes <;> rfl
  have hentry (e e' : Value × Value) :
      e.2.readTimes.map (fun w => (e.1, w)) = .ok e' ↔ Converted e e' := by
    rw [map_eq_ok_iff]
    constructor
    · rintro ⟨w, hw, rfl⟩
      exact ⟨rfl, hw⟩
    · rintro ⟨hkey, hvalue⟩
      exact ⟨e'.2, hvalue, Prod.ext hkey rfl⟩
  simp only [hmapM, mapM_eq_ok_iff, hentry]

/-! ### Objects -/

theorem momentAt_ok {x : Double} {shown : String} {east : Duration} {v : Value}
    (h : momentAt x shown east = .ok v) : ∃ t, v = .moment t := by
  unfold momentAt at h
  dsimp only at h
  split at h
  · cases h
    exact ⟨_, rfl⟩
  · cases h

theorem timeOf_ok {entries : List (Value × Value)} {v : Value} (h : timeOf entries = .ok v) :
    ∃ t, v = .moment t := by
  unfold timeOf at h
  split at h
  · obtain ⟨east, -, h⟩ := bind_ok h
    exact momentAt_ok h
  · obtain ⟨east, -, h⟩ := bind_ok h
    exact momentAt_ok h
  · cases h

/-- Reading the times of a value makes no texts and changes none. -/
theorem isOneOf_of_readTimes {v w : Value} (h : v.readTimes = .ok w) (choices : List String) :
    w.isOneOf choices = v.isOneOf choices := by
  cases v with
  | list items =>
      obtain ⟨ws, -, rfl⟩ := map_ok h
      rfl
  | dict entries =>
      obtain ⟨read, -, h⟩ := bind_ok h
      split at h
      · obtain ⟨t, rfl⟩ := timeOf_ok h
        rfl
      · cases h
        rfl
  | _ =>
      cases h
      rfl

theorem lookup_cons (e : Value × Value) (es : List (Value × Value)) (key : String) :
    lookup (e :: es) key = if same e.1 (.text key) then some e.2 else lookup es key := by
  rw [lookup, List.find?_cons]
  cases same e.1 (.text key) <;> rfl

section Converted

variable {es es' : List (Value × Value)}

theorem rel_lookup_of_converted (h : List.Forall₂ Converted es es') (key : String) :
    Option.Rel (fun v w => v.readTimes = .ok w) (lookup es key) (lookup es' key) := by
  induction h with
  | nil => exact .none
  | cons he _ ih =>
      rw [lookup_cons, lookup_cons, he.1]
      split
      · exact .some he.2
      · exact ih

/-- Reading the times in an object does not change whether it is marked as a time. -/
theorem isTime_of_converted (h : List.Forall₂ Converted es es') : isTime es' = isTime es := by
  have hmark := rel_lookup_of_converted h markKey
  unfold isTime
  generalize lookup es markKey = v at hmark
  generalize lookup es' markKey = w at hmark
  cases hmark with
  | none => rfl
  | some h => exact isOneOf_of_readTimes h [timeMark]

theorem Converted.insertKey (h : List.Forall₂ Converted es es') {e e' : Value × Value}
    (he : Converted e e') :
    List.Forall₂ Converted (insertKey es e.1 e.2) (insertKey es' e'.1 e'.2) := by
  induction h with
  | nil => exact .cons he .nil
  | @cons x x' xs xs' hx hxs ih =>
      unfold Value.insertKey
      rw [← hx.1, ← he.1]
      split
      · exact .cons ⟨rfl, he.2⟩ hxs
      · exact .cons ⟨rfl, hx.2⟩ (he.1 ▸ ih)

theorem Converted.mergeEntries (h : List.Forall₂ Converted es es') :
    List.Forall₂ Converted (mergeEntries es) (mergeEntries es') := by
  have hfold {found found' : List (Value × Value)} (hfound : List.Forall₂ Converted found found') :
      List.Forall₂ Converted (es.foldl (fun found e => Value.insertKey found e.1 e.2) found)
        (es'.foldl (fun found e => Value.insertKey found e.1 e.2) found') := by
    induction h generalizing found found' with
    | nil => exact hfound
    | cons he _ ih => exact ih (Converted.insertKey hfound he)
  exact hfold .nil

end Converted

section Values

variable {values values' : List (String × Value)}

theorem ofObject_raw (values : List (String × Value)) :
    ofObject .raw values = .ok (.dict (objectEntries values)) := by
  rw [ofObject, if_neg]
  · rfl
  · rintro ⟨h, -⟩
    cases h

/-- An object whose values have been converted is what the raw object is converted to. -/
theorem ofObject_native (h : List.Forall₂
    (fun r v : String × Value => r.1 = v.1 ∧ r.2.readTimes = .ok v.2) values values') :
    ofObject .native values' = (Value.dict (objectEntries values)).readTimes := by
  have hentries : List.Forall₂ Converted (objectEntries values) (objectEntries values') := by
    refine Converted.mergeEntries (List.forall₂_map_left_iff.2 (List.forall₂_map_right_iff.2 ?_))
    exact h.imp fun r v hrv => ⟨congrArg Value.text hrv.1, hrv.2⟩
  have hmarked := isTime_of_converted hentries
  rw [readTimes, readTimesEntries_eq_ok_iff.2 hentries, ofObject]
  change (if TimeFormat.native = .native ∧ isTime (objectEntries values') = true then _ else _) = _
  simp only [true_and, hmarked]
  rfl

/-- A text is the same key as no other value. -/
theorem same_text_iff {k : Value} {key : String} : same k (.text key) = true ↔ k = .text key := by
  cases k with
  | complex re im => by_cases him : im.isZero = true <;> simp [same, magnitude?, him]
  | _ => simp [same, magnitude?]

theorem lookup_insertKey (es : List (Value × Value)) (key key' : String) (v : Value) :
    lookup (insertKey es (.text key) v) key' = if key = key' then some v else lookup es key' := by
  induction es with
  | nil =>
      rw [insertKey, lookup_cons]
      simp only [same_text_iff, text.injEq]
  | cons e es ih =>
      obtain ⟨k, w⟩ := e
      unfold insertKey
      split
      next hsame =>
        obtain rfl := same_text_iff.1 hsame
        simp only [lookup_cons, same_text_iff, text.injEq]
        split <;> rfl
      next hsame =>
        rw [lookup_cons, lookup_cons, ih]
        split
        next hk =>
          obtain rfl := same_text_iff.1 hk
          rw [if_neg]
          rintro rfl
          exact hsame hk
        next => rfl

/-- The value of the last entry with a key is the one that the object has under it. -/
theorem lookup_objectEntries_last {before after : List (String × Value)} {key : String} {v : Value}
    (h : ∀ e ∈ after, e.1 ≠ key) :
    lookup (objectEntries (before ++ (key, v) :: after)) key = some v := by
  have hfold (found : List (Value × Value)) :
      lookup ((after.map fun e => (Value.text e.1, e.2)).foldl
        (fun found e => insertKey found e.1 e.2) found) key = lookup found key := by
    induction after generalizing found with
    | nil => rfl
    | cons e after ih =>
        obtain ⟨he, hafter⟩ := List.forall_mem_cons.1 h
        rw [List.map_cons, List.foldl_cons, ih hafter, lookup_insertKey, if_neg he]
  rw [objectEntries, mergeEntries, List.map_append, List.foldl_append, List.map_cons,
    List.foldl_cons, hfold, lookup_insertKey, if_pos rfl]

end Values

/-! ### Values without times -/

/-- The value is no object that is marked as a time. -/
def Unmarked : Value → Prop
  | .dict entries => isTime entries = false
  | _ => True

/-- Where no object is marked as a time there is nothing to be read. -/
theorem readTimes_of_unmarked {v : Value} (h : v.Throughout Unmarked) : v.readTimes = .ok v := by
  induction v using Value.induction with
  | step v ih =>
  have hpart {w : Value} (hw : IsPart w v) : w.readTimes = .ok w := ih w (.single hw) (h.part hw)
  cases v with
  | list items =>
      have hitems : items.mapM readTimes = .ok items := by
        rw [mapM_eq_ok_iff, List.forall₂_same]
        exact fun w hw => hpart (.item hw)
      rw [readTimes, readTimesItems_eq_mapM, hitems]
      rfl
  | dict entries =>
      have hentries : readTimesEntries entries = .ok entries := by
        rw [readTimesEntries_eq_ok_iff, List.forall₂_same]
        exact fun e he => ⟨rfl, hpart (.entry he)⟩
      have hunmarked : isTime entries = false := h.self
      rw [readTimes, hentries]
      simp only [hunmarked]
      rfl
  | _ => rfl

theorem unmarked_null (key : String) :
    (dict [(.text key, .null)]).Throughout Unmarked := by
  have hself : isTime [(.text key, .null)] = false := by
    rw [isTime, lookup_cons]
    by_cases hkey : same (.text key) (.text markKey) = true
    · rw [if_pos hkey]
      rfl
    · rw [if_neg hkey]
      rfl
  refine .of_parts hself fun w hw => ?_
  cases hw with
  | entry he =>
      obtain rfl := List.mem_singleton.1 he
      exact .of_parts trivial (forall_isPart_leaf rfl)

end Value

/-! ### Messages -/

namespace Passage

variable {α β : Type}

/-- The passage over other places. -/
def map (f : α → β) : Passage α → Passage β
  | plain value => plain value
  | array items => array (items.map f)
  | object entries => object (entries.map fun e => (e.1, f e.2))

theorem read_map (format : TimeFormat) (decode : β → Except Failure Value) (f : α → β)
    (p : Passage α) : (p.map f).read format decode = p.read format fun x => decode (f x) := by
  cases p with
  | plain value => rfl
  | array items => simp only [map, read, List.mapM_map]; rfl
  | object entries => simp only [map, read, List.mapM_map]; rfl

variable {raw native : α → Except Failure Value} {Q : α → Prop} {v : Value}

/-- The later entries have the key of the entry again. -/
def Repeats (e : Option String × α) (after : List (Option String × α)) : Prop :=
  ∃ e' ∈ after, e'.1.getD "" = e.1.getD ""

/-- `Q` holds of every part of the passage, and the entries that are replaced can be read. -/
def Whole (native : α → Except Failure Value) (Q : α → Prop) : Passage α → Prop
  | plain _ => True
  | array items => ∀ x ∈ items, Q x
  | object entries => (∀ e ∈ entries, Q e.2) ∧ ∀ before e after,
      entries = before ++ e :: after → Repeats e after → ∃ w, native e.2 = .ok w

/-- What is read natively is read raw, and the times in it are read then. -/
def Converts (raw native : α → Except Failure Value) : Prop :=
  ∀ x v, native x = .ok v → ∃ r, raw x = .ok r ∧ r.readTimes = .ok v

theorem Converts.items (h : Converts raw native) {items : List α} {ws : List Value}
    (hws : items.mapM native = .ok ws) :
    ∃ vs, items.mapM raw = .ok vs ∧ (Value.list vs).readTimes = .ok (.list ws) := by
  obtain ⟨vs, hvs, hread⟩ := exists_mapM_of_mapM h hws
  refine ⟨vs, hvs, ?_⟩
  rw [Value.readTimes, Value.readTimesItems_eq_mapM, mapM_eq_ok_iff.2 hread]
  rfl

theorem Converts.entries (h : Converts raw native) {entries : List (Option String × α)}
    {ws : List (String × Value)} (hws : entries.mapM (Value.decodeEntry native) = .ok ws) :
    ∃ vs, entries.mapM (Value.decodeEntry raw) = .ok vs ∧
      Value.ofObject .native ws = (Value.dict (Value.objectEntries vs)).readTimes := by
  have hentry (e : Option String × α) (w : String × Value)
      (hw : Value.decodeEntry native e = .ok w) : ∃ r, Value.decodeEntry raw e = .ok r ∧
        r.1 = w.1 ∧ r.2.readTimes = .ok w.2 := by
    obtain ⟨v, hv, rfl⟩ := map_ok hw
    obtain ⟨r, hr, hread⟩ := h e.2 v hv
    exact ⟨(e.1.getD "", r), by rw [Value.decodeEntry, hr]; rfl, rfl, hread⟩
  obtain ⟨vs, hvs, hread⟩ := exists_mapM_of_mapM hentry hws
  exact ⟨vs, hvs, Value.ofObject_native hread⟩

/-- Every item is converted together with the array. -/
theorem exists_readTimes_of_item {items : List α} {vs : List Value} {v : Value}
    (hvs : items.mapM raw = .ok vs) (hread : (Value.list vs).readTimes = .ok v) :
    ∀ x ∈ items, ∃ r w, raw x = .ok r ∧ r.readTimes = .ok w := by
  intro x hx
  obtain ⟨r, hr, hraw⟩ := exists_mem_of_mapM_ok hvs x hx
  obtain ⟨ws, hws, -⟩ := map_ok hread
  rw [Value.readTimesItems_eq_mapM] at hws
  obtain ⟨w, -, hw⟩ := exists_mem_of_mapM_ok hws r hr
  exact ⟨r, w, hraw, hw⟩

/-- An entry whose key is not repeated is converted together with the object. -/
theorem exists_readTimes_of_last {before after : List (Option String × α)} {e : Option String × α}
    {vs : List (String × Value)} {v : Value}
    (hvs : (before ++ e :: after).mapM (Value.decodeEntry raw) = .ok vs) (hlast : ¬ Repeats e after)
    (hread : (Value.dict (Value.objectEntries vs)).readTimes = .ok v) :
    ∃ r w, raw e.2 = .ok r ∧ r.readTimes = .ok w := by
  rw [List.mapM_append] at hvs
  obtain ⟨vs₁, -, hvs⟩ := bind_ok hvs
  obtain ⟨vs₂, hvs₂, hvs⟩ := bind_ok hvs
  cases hvs
  rw [List.mapM_cons] at hvs₂
  obtain ⟨_, hdecoded, hvs₂⟩ := bind_ok hvs₂
  obtain ⟨later, hlater, hvs₂⟩ := bind_ok hvs₂
  cases hvs₂
  obtain ⟨r, hr, rfl⟩ := map_ok hdecoded
  -- no later entry has the key, so what the object has under it is the value of this one
  have hkeys : ∀ e' ∈ later, e'.1 ≠ e.1.getD "" := by
    intro e' he' hkey
    obtain ⟨x, hx, hdecoded⟩ := exists_of_mapM_ok hlater e' he'
    obtain ⟨_, -, rfl⟩ := map_ok hdecoded
    exact hlast ⟨x, hx, hkey⟩
  obtain ⟨read, hentries, -⟩ := bind_ok hread
  have hrel := Value.rel_lookup_of_converted (Value.readTimesEntries_eq_ok_iff.1 hentries)
    (e.1.getD "")
  rw [Value.lookup_objectEntries_last hkeys] at hrel
  generalize Value.lookup read (e.1.getD "") = w at hrel
  cases hrel with
  | some hw => exact ⟨r, _, hr, hw⟩

/-- What stands at the places of the passage. -/
def parts : Passage α → List α
  | plain _ => []
  | array items => items
  | object entries => entries.map (·.2)

variable {p : Passage α}

/-- A passage that can be read has no part that cannot. -/
theorem exists_of_read {format : TimeFormat} {decode : α → Except Failure Value}
    (h : p.read format decode = .ok v) : ∀ x ∈ p.parts, ∃ w, decode x = .ok w := by
  intro x hx
  cases p with
  | plain value => cases hx
  | array items =>
      obtain ⟨ws, hws, -⟩ := map_ok h
      obtain ⟨w, -, hw⟩ := exists_mem_of_mapM_ok hws x hx
      exact ⟨w, hw⟩
  | object entries =>
      obtain ⟨e, he, rfl⟩ := List.mem_map.1 hx
      obtain ⟨ws, hws, -⟩ := bind_ok h
      obtain ⟨_, -, hdecoded⟩ := exists_mem_of_mapM_ok hws e he
      obtain ⟨w, hw, -⟩ := map_ok hdecoded
      exact ⟨w, hw⟩

section Converting

variable (hconverts : Converts raw native) (hplain : ∀ v, p = .plain (.ok v) → v.readTimes = .ok v)

include hconverts hplain

/-- A passage is converted if its parts are. -/
theorem Converts.read (hv : p.read .native native = .ok v) :
    ∃ r, p.read .raw raw = .ok r ∧ r.readTimes = .ok v := by
  cases p with
  | plain value => exact ⟨v, hv, hplain v (congrArg Passage.plain hv)⟩
  | array items =>
      obtain ⟨ws, hws, rfl⟩ := map_ok hv
      obtain ⟨vs, hvs, hread⟩ := hconverts.items hws
      exact ⟨.list vs, by rw [Passage.read, hvs]; rfl, hread⟩
  | object entries =>
      obtain ⟨ws, hws, hv⟩ := bind_ok hv
      obtain ⟨vs, hvs, hread⟩ := hconverts.entries hws
      refine ⟨.dict (Value.objectEntries vs), ?_, hread.symm.trans hv⟩
      rw [Passage.read, hvs]
      exact Value.ofObject_raw vs

/-- Once the parts can be read natively, the passage is read as the times in it are. -/
theorem Converts.read_of_parts {r : Value} (hall : ∀ x ∈ p.parts, ∃ w, native x = .ok w)
    (hr : p.read .raw raw = .ok r) (hread : r.readTimes = .ok v) :
    p.read .native native = .ok v := by
  cases p with
  | plain value =>
      obtain rfl : value = .ok r := hr
      rw [hplain r rfl] at hread
      exact hread
  | array items =>
      obtain ⟨vs, hvs, rfl⟩ := map_ok hr
      obtain ⟨ws, hws⟩ : ∃ ws, items.mapM native = .ok ws := exists_mapM_eq_ok hall
      obtain ⟨vs', hvs', hread'⟩ := hconverts.items hws
      cases hvs.symm.trans hvs'
      cases hread.symm.trans hread'
      rw [Passage.read, hws]
      rfl
  | object entries =>
      obtain ⟨vs, hvs, hr⟩ := bind_ok hr
      cases (Value.ofObject_raw vs).symm.trans hr
      obtain ⟨ws, hws⟩ : ∃ ws, entries.mapM (Value.decodeEntry native) = .ok ws :=
        exists_mapM_eq_ok fun e he => by
          obtain ⟨w, hw⟩ := hall e.2 (List.mem_map_of_mem he)
          exact ⟨_, map_eq_ok_iff.2 ⟨w, hw, rfl⟩⟩
      obtain ⟨vs', hvs', hread'⟩ := hconverts.entries hws
      cases hvs.symm.trans hvs'
      rw [Passage.read, hws]
      exact hread'.trans hread

end Converting

theorem whole_of_forall_parts (hQ : ∀ x ∈ p.parts, Q x) (hall : ∀ x ∈ p.parts, ∃ w, native x = .ok w) :
    p.Whole native Q := by
  cases p with
  | plain value => trivial
  | array items => exact hQ
  | object entries =>
      refine ⟨fun e he => hQ e.2 (List.mem_map_of_mem he), ?_⟩
      rintro before e after rfl -
      exact hall e.2 (List.mem_map_of_mem (List.mem_append_right _ List.mem_cons_self))

/-- Every part of a whole passage whose times can be read can be read natively: those that show
because they are converted, and those that are replaced because the passage is whole. -/
theorem Whole.exists_native {r : Value} (h : p.Whole native Q) (hr : p.read .raw raw = .ok r)
    (hread : r.readTimes = .ok v)
    (hnative : ∀ x, Q x → (∃ r w, raw x = .ok r ∧ r.readTimes = .ok w) → ∃ w, native x = .ok w) :
    ∀ x ∈ p.parts, ∃ w, native x = .ok w := by
  intro x hx
  cases p with
  | plain value => cases hx
  | array items =>
      obtain ⟨vs, hvs, rfl⟩ := map_ok hr
      exact hnative x (h x hx) (exists_readTimes_of_item hvs hread x hx)
  | object entries =>
      obtain ⟨e, he, rfl⟩ := List.mem_map.1 hx
      obtain ⟨vs, hvs, hr⟩ := bind_ok hr
      cases (Value.ofObject_raw vs).symm.trans hr
      obtain ⟨before, after, rfl⟩ := List.append_of_mem he
      -- an entry that is replaced does not show in the raw object
      by_cases hlast : Repeats e after
      · exact h.2 before e after rfl hlast
      · exact hnative e.2 (h.1 e he) (exists_readTimes_of_last hvs hlast hread)

theorem read_native_iff (hplain : ∀ v, p = .plain (.ok v) → v.readTimes = .ok v)
    (h : ∀ x v, native x = .ok v ↔ ∃ r, raw x = .ok r ∧ r.readTimes = .ok v ∧ Q x) :
    p.read .native native = .ok v ↔
      ∃ r, p.read .raw raw = .ok r ∧ r.readTimes = .ok v ∧ p.Whole native Q := by
  have hconverts : Converts raw native := by
    intro x v hv
    obtain ⟨r, hr, hread, -⟩ := (h x v).1 hv
    exact ⟨r, hr, hread⟩
  constructor
  · intro hv
    obtain ⟨r, hr, hread⟩ := hconverts.read hplain hv
    have hall := exists_of_read hv
    refine ⟨r, hr, hread, whole_of_forall_parts (fun x hx => ?_) hall⟩
    obtain ⟨w, hw⟩ := hall x hx
    obtain ⟨-, -, -, hQ⟩ := (h x w).1 hw
    exact hQ
  · rintro ⟨r, hr, hread, hwhole⟩
    refine hconverts.read_of_parts hplain (hwhole.exists_native hr hread fun x hx => ?_) hr hread
    rintro ⟨r, w, hr, hw⟩
    exact ⟨w, (h x w).2 ⟨r, hr, hw, hx⟩⟩

end Passage

namespace Wire

/-- What is read as a value: a datum or a term, or the place of one that is absent. -/
inductive Encoded where
  | datum (d : Option Datum)
  | term (t : Option Term)

namespace Encoded

/-- The value that stands at a depth. -/
def read (format : TimeFormat) (depth : Int) : Encoded → Except Failure Value
  | datum d => Datum.unmarshalValue format depth d
  | term t => Term.unmarshalValue format depth t

/-- What there is to be read. A term around a datum is no place of its own. -/
def view : Encoded → Passage Encoded
  | datum d => (Datum.view d).map datum
  | term t =>
    let t := t.getD .empty
    if t.kind = TermType.datum.code then (Datum.view t.datum).map datum
    else if t.kind = TermType.makeArray.code then .array (t.args.map fun s => term (some s))
    else if t.kind = TermType.makeObject.code then .object (t.options.map fun e => (e.1, term e.2))
    else .plain (.error (.ofCause (.notAValue t.kind.toInt)))

variable {format : TimeFormat} {depth : Int} {x : Encoded} {v : Value}

theorem read_datum_eq (format : TimeFormat) (depth : Int) (d : Option Datum) :
    Datum.unmarshalValue format depth d = (checkDepth depth >>= fun _ =>
      ((Datum.view d).map datum).read format (read format (depth + 1))) := by
  rw [Datum.unmarshalValue_eq]
  simp only [Passage.read_map]
  rfl

/-- Datums and terms are read by one recursion. -/
theorem read_eq (format : TimeFormat) (depth : Int) (x : Encoded) :
    x.read format depth = (checkDepth depth >>= fun _ =>
      x.view.read format (read format (depth + 1))) := by
  cases x with
  | datum d => exact read_datum_eq format depth d
  | term t =>
      rw [read, Term.unmarshalValue_eq, view, Term.view]
      split_ifs
      · rw [Passage.read, read_datum_eq]
        exact checkDepth_bind_self _
      · simp only [Passage.read, List.mapM_map]
        rfl
      · simp only [Passage.read, List.mapM_map]
        rfl
      · rfl

theorem readTimes_of_view (h : x.view = .plain (.ok v)) : v.readTimes = .ok v := by
  have hdatum {d : Option Datum} (h : (Datum.view d).map datum = .plain (.ok v)) :
      v.readTimes = .ok v := by
    unfold Datum.view at h
    dsimp only at h
    split at h <;> cases h <;> rfl
  cases x with
  | datum d => exact hdatum h
  | term t =>
      unfold view at h
      dsimp only at h
      split_ifs at h
      · exact hdatum h
      · cases h

/-- Under what stands at the depth, at the place, is the value of an entry whose key comes once
more in its object. -/
inductive Replaced : Int → Encoded → Int → Encoded → Prop
  | here {depth : Int} {x : Encoded} {before after : List (Option String × Encoded)}
      {e : Option String × Encoded} (hview : x.view = .object (before ++ e :: after))
      (hrepeats : Passage.Repeats e after) : Replaced depth x (depth + 1) e.2
  | item {depth place : Int} {x y z : Encoded} {items : List Encoded}
      (hview : x.view = .array items) (hy : y ∈ items) (h : Replaced (depth + 1) y place z) :
      Replaced depth x place z
  | entry {depth place : Int} {x z : Encoded} {entries : List (Option String × Encoded)}
      {e : Option String × Encoded} (hview : x.view = .object entries) (he : e ∈ entries)
      (h : Replaced (depth + 1) e.2 place z) : Replaced depth x place z

/-- What is replaced under what stands at the depth can be read natively where it is. -/
def Harmless (depth : Int) (x : Encoded) : Prop :=
  ∀ place y, Replaced depth x place y → ∃ w, y.read .native place = .ok w

theorem harmless_iff (depth : Int) (x : Encoded) : Harmless depth x ↔
    x.view.Whole (read .native (depth + 1)) (Harmless (depth + 1)) := by
  constructor
  · intro h
    cases hview : x.view with
    | plain value => trivial
    | array items => exact fun y hy place z hz => h place z (.item hview hy hz)
    | object entries =>
        refine ⟨fun e he place z hz => h place z (.entry hview he hz), ?_⟩
        rintro before e after rfl hrepeats
        exact h _ _ (.here hview hrepeats)
  · intro h place z hz
    cases hz with
    | here hview hrepeats =>
        rw [hview] at h
        exact h.2 _ _ _ rfl hrepeats
    | item hview hy hz =>
        rw [hview] at h
        exact h _ hy place z hz
    | entry hview he hz =>
        rw [hview] at h
        exact h.1 _ he place z hz

theorem read_native_iff (x : Encoded) (depth : Int) (v : Value) :
    x.read .native depth = .ok v ↔
      ∃ r, x.read .raw depth = .ok r ∧ r.readTimes = .ok v ∧ Harmless depth x := by
  induction depth using depth_induction generalizing x v with
  | h depth ih =>
  simp only [read_eq _ depth, checkDepth_bind_eq_ok, harmless_iff depth x]
  by_cases hroom : depth ≤ depthLimit
  · rw [and_iff_right hroom, Passage.read_native_iff (fun v => readTimes_of_view) (ih hroom)]
    simp only [hroom, true_and]
  · simp only [hroom, false_and, exists_false]

/-- A message is read natively exactly when it is read raw, the times in the value can be read and
what is replaced in the message could be read natively as well; the native value is the raw one
with its times read. What cannot be read raw cannot be read natively, and where no object of the
raw value is marked as a time the two values are the same. -/
theorem native_follows_raw (x : Encoded) :
    (∀ v, x.read .native 0 = .ok v ↔
      ∃ r, x.read .raw 0 = .ok r ∧ r.readTimes = .ok v ∧ Harmless 0 x) ∧
    (∀ e, x.read .raw 0 = .error e → ∃ e', x.read .native 0 = .error e') ∧
    ∀ r, x.read .raw 0 = .ok r → r.Throughout Value.Unmarked → Harmless 0 x →
      x.read .native 0 = .ok r := by
  have hnative := x.read_native_iff 0
  refine ⟨hnative, fun e he => ?_, fun r hr hunmarked hharmless => ?_⟩
  · cases hread : x.read .native 0 with
    | error e' => exact ⟨e', rfl⟩
    | ok v =>
        obtain ⟨r, hr, -⟩ := (hnative v).1 hread
        cases he.symm.trans hr
  · exact (hnative r).2 ⟨r, hr, Value.readTimes_of_unmarked hunmarked, hharmless⟩

/-- An object with a key twice. -/
def repeated : Datum := .ofEntries [("late", .ofBool true), ("late", .null)]

/-- An array with an object of another kind, which holds a time, and one with a key twice. -/
def timetable : Term :=
  .makeArray [
    .ofDatum (.ofEntries [(markKey, .ofText "GEOMETRY"), ("since", .ofEntries
      [(markKey, .ofText timeMark), ("epoch_time", .ofDouble (Double.ofNat 3))])]),
    .ofDatum repeated]

/-- Three seconds into 1970. -/
def thirdSecond : Moment := ⟨1970, 1, 1, 0, 0, 3, 0, .fixed ⟨0⟩⟩

/-- The time in the table is converted, the other objects stay, and a table with a part that has no
tag is read in neither way. -/
theorem native_follows_raw_timetable :
    (∃ r, timetable.unmarshal .raw 0 = .ok r ∧ r.readTimes = .ok (.list [
      .dict [(.text markKey, .text "GEOMETRY"), (.text "since", .moment thirdSecond)],
      .dict [(.text "late", .null)]])) ∧
    (∃ e, (Term.makeArray [timetable, .empty]).unmarshal .native 0 = .error e) ∧
    repeated.unmarshal .native 0 = .ok (.dict [(.text "late", .null)]) := by
  have hpart (e : Option String × Encoded) (he : e ∈ [(some "late", datum (some (.ofBool true))),
      (some "late", datum (some .null))]) :
      Harmless 1 e.2 ∧ ∃ w, e.2.read .native 1 = .ok w := by
    obtain rfl | rfl := by simpa using he
    · exact ⟨(harmless_iff _ _).2 trivial, _, rfl⟩
    · exact ⟨(harmless_iff _ _).2 trivial, _, rfl⟩
  have hharmless : Harmless 0 (datum (some repeated)) := by
    refine (harmless_iff _ _).2
      ⟨fun e he => (hpart e he).1, fun before e after h _ => (hpart e ?_).2⟩
    exact (congrArg (e ∈ ·) h).mpr (List.mem_append_right before List.mem_cons_self)
  refine ⟨?_, ?_, ?_⟩
  · obtain ⟨r, hr, hread, -⟩ := ((native_follows_raw (term (some timetable))).1 _).1 rfl
    exact ⟨r, hr, hread⟩
  · exact (native_follows_raw (term (some (Term.makeArray [timetable, .empty])))).2.1 _ rfl
  · refine (native_follows_raw (datum (some repeated))).2.2 _ rfl ?_ hharmless
    exact Value.unmarked_null "late"

/-- An object marked as a time that says no more, in an entry that is replaced. -/
def shadowed : Datum := .ofEntries [("a", .ofEntries [(markKey, .ofText timeMark)]), ("a", .null)]

/-- What is replaced is read all the same, and keeps the message from being read natively. -/
theorem native_error_of_shadowed :
    shadowed.unmarshal .raw 0 = .ok (.dict [(.text "a", .null)]) ∧
      (Value.dict [(.text "a", .null)]).Throughout Value.Unmarked ∧
      shadowed.unmarshal .native 0 = .error (.ofCause .epochMissing) := by
  exact ⟨rfl, Value.unmarked_null "a", rfl⟩

end Encoded

end Wire

end QueryDriver
