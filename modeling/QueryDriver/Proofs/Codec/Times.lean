import Mathlib.Tactic.IntervalCases
import QueryDriver.Proofs.Codec.Concord
import QueryDriver.Proofs.Codec.Literals
import QueryDriver.Proofs.Time.Moment

/-!
# Times on the wire

A moment goes onto the wire as an object with the seconds of its point in time and the text of its
offset, and where times are read it comes back as the moment it was. It does so at every place of
a value: a value whose parts can be sent and where nothing else is marked as a time comes back as
`Value.kept`, which has every moment where the value has it.

One thing can stop a value of this kind, the depth. A moment takes up one level more than its
place, for the entries of its object. `Value.Reaches` says that nothing lies too deep.
-/

namespace QueryDriver

open Wire

/-! ### Zones -/

namespace Zone

theorem digitValue?_digitChar {n : Nat} (h : n < 10) :
    Text.digitValue? (Nat.digitChar n) = some n := by
  interval_cases n <;> decide

/-- Two digits of hours or minutes are read as what they were written for. -/
theorem padded_two {n : Nat} (h : n < 100) : ∃ a b : Char,
    (Duration.padded 2 n).toList = [a, b] ∧ readPair? a b = some n := by
  refine ⟨Nat.digitChar (n / 10), Nat.digitChar (n % 10), ?_, ?_⟩
  · rw [Duration.padded, String.toList_ofList]
    by_cases hone : n < 10
    · have hzero : n / 10 = 0 := by omega
      rw [Nat.toDigits_of_lt_base hone, hzero, Nat.mod_eq_of_lt hone]
      rfl
    · rw [Nat.toDigits_of_base_le (by decide) (by omega), Nat.toDigits_of_lt_base (by omega)]
      rfl
  · rw [readPair?, digitValue?_digitChar (by omega), digitValue?_digitChar (by omega)]
    change some (10 * (n / 10) + n % 10) = some n
    rw [Nat.div_add_mod]

/-- An offset in whole minutes is read from its text, whether it is ahead or behind. -/
theorem parse_text {east : Duration} (hminutes : 60000000 ∣ east.micros)
    (hbound : east.micros.natAbs < 86400000000) : parse (text east) = .ok east := by
  obtain ⟨minutes, hmicros⟩ := hminutes
  have hdiv : east.micros / 60000000 = minutes := by omega
  obtain ⟨a, b, hhours, hab⟩ := padded_two (n := minutes.natAbs / 60) (by omega)
  obtain ⟨c, d, hrest, hcd⟩ := padded_two (n := minutes.natAbs % 60) (by omega)
  have hsplit : minutes.natAbs / 60 * 60 + minutes.natAbs % 60 = minutes.natAbs := by omega
  have htext : (text east).toList =
      (if 0 ≤ minutes then '+' else '-') :: [a, b, ':', c, d] := by
    rw [text, hdiv]
    simp only [String.toList_append, hhours, hrest]
    split <;> rfl
  have hclock : readClock? [a, b, ':', c, d] =
      some (minutes.natAbs / 60, minutes.natAbs % 60) := by
    simp only [readClock?, readLast?, hab, hcd]
    rfl
  have hread : readOffset? (text east).toList = some east := by
    rw [htext]
    obtain ⟨micros⟩ := east
    dsimp only at hmicros
    split
    next hpos =>
      simp only [readOffset?, hclock, Option.map_some, hsplit, Duration.ofSeconds,
        Option.some.injEq, Duration.mk.injEq]
      omega
    next hneg =>
      simp only [readOffset?, hclock, Option.map_some, hsplit, Duration.ofSeconds,
        Option.some.injEq, Duration.mk.injEq]
      omega
  have hz {s : String} (hs : s.toList.length = 1) : text east ≠ s := by
    rintro rfl
    rw [htext] at hs
    cases hs
  have hbounds : inBounds east = true := decide_eq_true hbound
  rw [parse, if_neg (not_or.2 ⟨hz rfl, hz rfl⟩), hread]
  dsimp only
  rw [check, if_pos hbounds]

end Zone

/-! ### A moment -/

/-- The moments that the wire tells in full: the offset is known and in whole minutes within a day,
there are no microseconds, and the point in time is in a year of at most four digits. -/
structure Moment.Carried (t : Moment) (east : Duration) : Prop where
  wellFormed : t.WellFormed
  offset : t.offset = .fixed east
  micro : t.micro = 0
  minutes : 60000000 ∣ east.micros
  bound : east.micros.natAbs < 86400000000
  years : Moment.InYears (t.epochMicros east)

namespace Moment.Carried

variable {t : Moment} {east : Duration}

theorem offset?_eq (h : t.Carried east) : t.offset? = some east := by
  rw [offset?, h.offset]

theorem ofMoment_eq (h : t.Carried east) : Zone.ofMoment t = .ok (Zone.text east) := by
  have hwhole : Zone.isWholeMinutes east = true :=
    beq_iff_eq.2 (Int.emod_eq_zero_of_dvd h.minutes)
  rw [Zone.ofMoment, h.offset?_eq]
  dsimp only
  rw [if_pos hwhole]

theorem whole (h : t.Carried east) : 1000000 ∣ t.epochMicros east := by
  have hminutes := h.minutes
  rw [epochMicros, localMicros, h.micro]
  omega

theorem timeEntries_eq (h : t.Carried east) : Value.timeEntries t =
    .ok [(markKey, Datum.ofText timeMark), ("epoch_time", Datum.ofDouble (t.epochSeconds east)),
      ("timezone", Datum.ofText (Zone.text east))] := by
  rw [Value.timeEntries, h.offset?_eq]
  dsimp only
  rw [h.ofMoment_eq]

/-- The seconds of the moment are read as its point in time, and that as the moment. -/
theorem momentAt_eq (h : t.Carried east) (shown : String) :
    Value.momentAt (t.epochSeconds east) shown east = .ok (.moment t) := by
  obtain ⟨hfinite, hepoch⟩ := Moment.ofDouble_epochSeconds h.years h.whole
  rw [Value.momentAt, if_pos hfinite, hepoch]
  dsimp only
  rw [Moment.ofEpochMicros_epochMicros h.wellFormed h.offset h.years]

/-- The object that stands for the moment is read as the moment. -/
theorem ofObject_eq (h : t.Carried east) : Value.ofObject .native
    [(markKey, .text timeMark), ("epoch_time", .double (t.epochSeconds east)),
      ("timezone", .text (Zone.text east))] = .ok (.moment t) := by
  obtain ⟨entries, hentries⟩ : ∃ entries, entries = [(Value.text markKey, Value.text timeMark),
      (.text "epoch_time", .double (t.epochSeconds east)),
      (.text "timezone", .text (Zone.text east))] := ⟨_, rfl⟩
  have hdistinct : Value.DistinctKeys entries := by
    simp [hentries, Value.DistinctKeys, markKey]
  have hmark : Value.lookup entries markKey = some (.text timeMark) := by
    simp [hentries, Value.lookup]
  have hepoch : Value.lookup entries "epoch_time" = some (.double (t.epochSeconds east)) := by
    simp [hentries, Value.lookup, markKey]
  have hzone : Value.lookup entries "timezone" = some (.text (Zone.text east)) := by
    simp [hentries, Value.lookup, markKey]
  have hparse := Zone.parse_text h.minutes h.bound
  have htruthy : (Value.text (Zone.text east)).truthy = true := by
    rw [Value.truthy, Bool.not_eq_true', Bool.eq_false_iff]
    intro hempty
    rw [String.isEmpty_iff.1 hempty] at hparse
    cases hparse
  have hzoneOf : Value.zoneOf entries = .ok east := by
    rw [Value.zoneOf, hzone]
    dsimp only
    rw [if_pos htruthy, Zone.ofValue, hparse]
  have htime : Value.isTime entries = true := by
    rw [Value.isTime, hmark]
    rfl
  have htimeOf : Value.timeOf entries = .ok (.moment t) := by
    rw [Value.timeOf, hepoch]
    dsimp only
    rw [hzoneOf]
    exact h.momentAt_eq _
  rw [Value.ofObject, List.map_cons, List.map_cons, List.map_cons, List.map_nil, ← hentries,
    Value.mergeEntries_of_distinct hdistinct, if_pos ⟨rfl, htime⟩, htimeOf]

end Moment.Carried

/-! ### Values with moments in them -/

namespace Value

mutual

/-- What comes back of a value where times are read: as its normal form, but with the moments. -/
def kept (v : Value) : Value :=
  match v with
  | .list items | .tuple items => .list (keptItems items)
  | .dict entries | .mapping entries => .dict (keptEntries entries)
  | .bool b => .bool b
  | _ => v.asDouble

def keptItems (items : List Value) : List Value :=
  match items with
  | [] => []
  | v :: vs => v.kept :: keptItems vs

def keptEntries (entries : List (Value × Value)) : List (Value × Value) :=
  match entries with
  | [] => []
  | (k, v) :: es => (k, v.kept) :: keptEntries es

end

theorem keptItems_eq_map (items : List Value) : keptItems items = items.map kept := by
  induction items with
  | nil => rfl
  | cons v vs ih => rw [keptItems, ih, List.map_cons]

theorem keptEntries_eq_map (entries : List (Value × Value)) :
    keptEntries entries = entries.map fun e => (e.1, e.2.kept) := by
  induction entries with
  | nil => rfl
  | cons e es ih => rw [keptEntries, ih, List.map_cons]

/-! ### Places -/

/-- The way from a container to what is in it. -/
inductive Selector where
  | item (index : Nat)
  | entry (key : String)

/-- What a container has at an index or under a key. -/
def select? (v : Value) (s : Selector) : Option Value :=
  match v, s with
  | .list items, .item index | .tuple items, .item index => items[index]?
  | .dict entries, .entry key | .mapping entries, .entry key => lookup entries key
  | _, _ => none

/-- What stands at a place of a value. -/
def at? (v : Value) : List Selector → Option Value
  | [] => some v
  | s :: place => (v.select? s).bind fun w => w.at? place

theorem select?_kept {v w : Value} {s : Selector} (h : v.select? s = some w) :
    v.kept.select? s = some w.kept := by
  unfold select? at h
  split at h
  case h_1 | h_2 => rw [kept, select?, keptItems_eq_map, List.getElem?_map, h, Option.map_some]
  case h_3 | h_4 => rw [kept, select?, keptEntries_eq_map, lookup_map, h, Option.map_some]
  case h_5 => cases h

/-- What stands at a place stands there still when the value comes back. -/
theorem at?_kept {v w : Value} {place : List Selector} (h : v.at? place = some w) :
    v.kept.at? place = some w.kept := by
  induction place generalizing v with
  | nil =>
      cases h
      rfl
  | cons s place ih =>
      obtain ⟨x, hx, h⟩ := Option.bind_eq_some_iff.1 h
      rw [at?, select?_kept hx, Option.bind_some, ih h]

/-! ### Depth -/

/-- From the depth on there is a level for everything in the value. A moment takes up one more
than its place. -/
def Shallow (depth : Int) (v : Value) : Prop :=
  ∀ n w, Under n w v →
    depth + n ≤ depthLimit ∧ ∀ t, w = .moment t → depth + n < depthLimit

variable {depth : Int} {v : Value}

theorem Shallow.self (h : v.Shallow depth) : depth ≤ depthLimit := by
  have := (h 0 v .here).1
  omega

theorem checkDepth_of_le (h : depth ≤ depthLimit) : checkDepth depth = .ok () :=
  if_neg (by omega)

theorem shallow_container (hcontainer : v.isContainer = true) :
    v.Shallow depth ↔ depth ≤ depthLimit ∧ ∀ w, IsPart w v → w.Shallow (depth + 1) := by
  constructor
  · refine fun h => ⟨h.self, fun w hw n x hx => ?_⟩
    obtain ⟨hle, hlt⟩ := h (n + 1) x (.inside hcontainer hw hx)
    exact ⟨by omega, fun t ht => by have := hlt t ht; omega⟩
  · rintro ⟨hself, hparts⟩ n x hx
    cases hx with
    | here => exact ⟨by simpa using hself, fun t ht => by rw [ht] at hcontainer; cases hcontainer⟩
    | @inside n _ _ w _ hw hx =>
        obtain ⟨hle, hlt⟩ := hparts w hw n x hx
        exact ⟨by omega, fun t ht => by have := hlt t ht; omega⟩

theorem shallow_leaf (hplain : v.isContainer = false) :
    v.Shallow depth ↔ depth ≤ depthLimit ∧ ∀ t, v = .moment t → depth < depthLimit := by
  constructor
  · intro h
    simpa using h 0 v .here
  · intro h n x hx
    cases hx with
    | here => simpa using h
    | inside hcontainer => exact absurd hcontainer (by simp [hplain])

/-! ### Sending and reading -/

/-- What may stand at a place: a list or a tuple, a mapping with distinct texts as keys and without
the mark of times, a moment that the wire tells in full, or a scalar that can be sent. -/
def Carriable (v : Value) : Prop :=
  match v with
  | .list _ | .tuple _ => True
  | .dict entries | .mapping entries =>
    DistinctKeys entries ∧ (∀ e ∈ entries, ∃ s, e.1 = .text s) ∧ lookup entries markKey = none
  | .moment t => ∃ east, t.Carried east
  | _ => ∃ d, v.scalar? = .ok (some d)

/-- Wherever there is a level for everything in the value, its datum is made and comes back as what
is kept of the value. -/
def ComesBack (v : Value) : Prop :=
  ∀ depth, v.Shallow depth →
    ∃ d, v.toDatum depth = .ok d ∧ d.unmarshal .native depth = .ok v.kept

theorem read_items {items : List Value} (h : ∀ v ∈ items, v.ComesBack)
    (hshallow : ∀ v ∈ items, v.Shallow depth) :
    ∃ ds, itemsToDatums items depth = .ok ds ∧
      Datum.unmarshalItems .native depth ds = .ok (keptItems items) := by
  induction items with
  | nil => exact ⟨[], rfl, rfl⟩
  | cons v vs ih =>
      obtain ⟨hv, hvs⟩ := List.forall_mem_cons.1 h
      obtain ⟨hlevel, hlevels⟩ := List.forall_mem_cons.1 hshallow
      obtain ⟨d, hd, hread⟩ := hv depth hlevel
      obtain ⟨ds, hds, hreads⟩ := ih hvs hlevels
      refine ⟨d :: ds, ?_, ?_⟩
      · rw [itemsToDatums, hd, hds]
        rfl
      · rw [Datum.unmarshalItems, hread, hreads]
        rfl

theorem read_entries {entries : List (Value × Value)} (h : ∀ e ∈ entries, e.2.ComesBack)
    (hkeys : ∀ e ∈ entries, ∃ s, e.1 = .text s) (hshallow : ∀ e ∈ entries, e.2.Shallow depth) :
    ∃ ds values, entriesToDatums entries depth = .ok ds ∧
      Datum.unmarshalEntries .native depth (ds.map fun e => (some e.1, some e.2)) = .ok values ∧
      values.map (fun e => (.text e.1, e.2)) = keptEntries entries := by
  induction entries with
  | nil => exact ⟨[], [], rfl, rfl, rfl⟩
  | cons e es ih =>
      obtain ⟨k, v⟩ := e
      obtain ⟨hv, hes⟩ := List.forall_mem_cons.1 h
      obtain ⟨⟨key, hkey⟩, hlater⟩ := List.forall_mem_cons.1 hkeys
      obtain ⟨hlevel, hlevels⟩ := List.forall_mem_cons.1 hshallow
      obtain rfl : k = .text key := hkey
      obtain ⟨d, hd, hread⟩ := hv depth hlevel
      obtain ⟨ds, values, hds, hreads, hkept⟩ := ih hes hlater hlevels
      refine ⟨(key, d) :: ds, (key, v.kept) :: values, ?_, ?_, ?_⟩
      · rw [entriesToDatums, textKey, hd, hds]
        rfl
      · rw [List.map_cons, Datum.unmarshalEntries, Datum.unmarshalValue, hread, hreads]
        rfl
      · rw [List.map_cons, hkept, keptEntries]

/-- A mapping without the mark of times is read as it is. -/
theorem ofObject_of_unmarked {values : List (String × Value)} {entries : List (Value × Value)}
    (hvalues : values.map (fun e => (.text e.1, e.2)) = entries) (hdistinct : DistinctKeys entries)
    (hmark : lookup entries markKey = none) : ofObject .native values = .ok (.dict entries) := by
  have htime : isTime entries = false := by
    rw [isTime, hmark]
  rw [ofObject, hvalues, mergeEntries_of_distinct hdistinct, htime, if_neg (by simp)]

section Kinds

theorem comesBack_array {items : List Value} (hcontainer : v.isContainer = true)
    (hitems : ∀ w ∈ items, IsPart w v) (h : ∀ w ∈ items, w.ComesBack)
    (hdatum : ∀ depth, v.toDatum depth = (checkDepth depth >>= fun _ =>
      (itemsToDatums items (depth + 1)).map Datum.ofList))
    (hkept : v.kept = .list (keptItems items)) : v.ComesBack := by
  intro depth hshallow
  obtain ⟨hdepth, hparts⟩ := (shallow_container hcontainer).1 hshallow
  obtain ⟨ds, hds, hread⟩ := read_items h fun w hw => hparts w (hitems w hw)
  refine ⟨Datum.ofList ds, ?_, ?_⟩
  · rw [hdatum, checkDepth_of_le hdepth, hds]
    rfl
  · rw [Datum.unmarshal_ofList, checkDepth_of_le hdepth, hread, hkept]
    rfl

theorem comesBack_object {entries : List (Value × Value)} (hcontainer : v.isContainer = true)
    (hentries : ∀ e ∈ entries, IsPart e.2 v) (h : ∀ e ∈ entries, e.2.ComesBack)
    (hdistinct : DistinctKeys entries) (hkeys : ∀ e ∈ entries, ∃ s, e.1 = .text s)
    (hmark : lookup entries markKey = none)
    (hdatum : ∀ depth, v.toDatum depth = (checkDepth depth >>= fun _ =>
      (entriesToDatums entries (depth + 1)).map Datum.ofEntries))
    (hkept : v.kept = .dict (keptEntries entries)) : v.ComesBack := by
  intro depth hshallow
  obtain ⟨hdepth, hparts⟩ := (shallow_container hcontainer).1 hshallow
  obtain ⟨ds, values, hds, hread, hvalues⟩ :=
    read_entries h hkeys fun e he => hparts e.2 (hentries e he)
  have hobject : ofObject .native values = .ok (.dict (keptEntries entries)) := by
    refine ofObject_of_unmarked hvalues ?_ ?_
    · rw [keptEntries_eq_map]
      exact hdistinct.map kept
    · rw [keptEntries_eq_map, lookup_map, hmark, Option.map_none]
  refine ⟨Datum.ofEntries ds, ?_, ?_⟩
  · rw [hdatum, checkDepth_of_le hdepth, hds]
    rfl
  · rw [Datum.unmarshal_ofEntries, checkDepth_of_le hdepth, hread, hkept]
    exact hobject

theorem comesBack_moment {t : Moment} {east : Duration} (h : t.Carried east) :
    (Value.moment t).ComesBack := by
  intro depth hshallow
  obtain ⟨hdepth, hroom⟩ := (shallow_leaf rfl).1 hshallow
  have hinner : checkDepth (depth + 1) = .ok () := by
    have := hroom t rfl
    exact checkDepth_of_le (by omega)
  refine ⟨Datum.ofEntries [(markKey, Datum.ofText timeMark),
    ("epoch_time", Datum.ofDouble (t.epochSeconds east)),
    ("timezone", Datum.ofText (Zone.text east))], ?_, ?_⟩
  · rw [toDatum, checkDepth_of_le hdepth, timeEntriesAt, h.timeEntries_eq, hinner]
    rfl
  · rw [Datum.unmarshal_ofEntries, checkDepth_of_le hdepth]
    simp only [List.map_cons, List.map_nil, Datum.unmarshalEntries, Datum.unmarshalValue,
      Datum.unmarshal_ofText hinner, Datum.unmarshal_ofDouble hinner]
    exact h.ofObject_eq

theorem comesBack_scalar (hplain : v.isContainer = false) (h : ∃ d, v.scalar? = .ok (some d))
    (hdatum : ∀ depth, v.toDatum depth = (do
      checkDepth depth
      match ← v.scalar? with
      | some d => return d
      | none => throw (.ofCause (.unsupported v.typeName))))
    (hkept : v.kept = v.normal) : v.ComesBack := by
  intro depth hshallow
  obtain ⟨hdepth, -⟩ := (shallow_leaf hplain).1 hshallow
  obtain ⟨d, hd⟩ := h
  refine ⟨d, ?_, ?_⟩
  · rw [hdatum, checkDepth_of_le hdepth, hd]
    rfl
  · rw [hkept]
    exact unmarshal_scalar (checkDepth_of_le hdepth) hd

end Kinds

theorem comesBack {v : Value} (h : v.Throughout Carriable) : v.ComesBack := by
  induction v using Value.induction with
  | step v ih =>
      replace ih : ∀ w, IsPart w v → w.ComesBack := fun w hw => ih w (.single hw) (h.part hw)
      have hself : v.Carriable := h.self
      cases v with
      | list items =>
          exact comesBack_array rfl (fun _ hw => .item hw) (fun w hw => ih w (.item hw))
            (fun _ => rfl) rfl
      | tuple items =>
          exact comesBack_array rfl (fun _ hw => .component hw) (fun w hw => ih w (.component hw))
            (fun _ => rfl) rfl
      | dict entries =>
          obtain ⟨hdistinct, hkeys, hmark⟩ := hself
          exact comesBack_object rfl (fun _ he => .entry he) (fun e he => ih e.2 (.entry he))
            hdistinct hkeys hmark (fun _ => rfl) rfl
      | mapping entries =>
          obtain ⟨hdistinct, hkeys, hmark⟩ := hself
          exact comesBack_object rfl (fun _ he => .image he) (fun e he => ih e.2 (.image he))
            hdistinct hkeys hmark (fun _ => rfl) rfl
      | moment t =>
          obtain ⟨east, ht⟩ := hself
          exact comesBack_moment ht
      | _ => exact comesBack_scalar rfl hself (fun _ => rfl) rfl

/-! ### What is sent is not too deep -/

theorem forall_items_shallow {items : List Value} (h : ∀ v ∈ items, ∀ d, v.toDatum depth = .ok d →
    v.Shallow depth) {ds : List Datum} (hds : itemsToDatums items depth = .ok ds) :
    ∀ v ∈ items, v.Shallow depth := by
  induction items generalizing ds with
  | nil => exact List.forall_mem_nil _
  | cons v vs ih =>
      obtain ⟨hv, hvs⟩ := List.forall_mem_cons.1 h
      rw [itemsToDatums] at hds
      obtain ⟨d, hd, hds⟩ := bind_ok hds
      obtain ⟨ds, hlater, -⟩ := bind_ok hds
      exact List.forall_mem_cons.2 ⟨hv d hd, ih hvs hlater⟩

theorem forall_entries_shallow {entries : List (Value × Value)}
    (h : ∀ e ∈ entries, ∀ d, e.2.toDatum depth = .ok d → e.2.Shallow depth)
    {ds : List (String × Datum)} (hds : entriesToDatums entries depth = .ok ds) :
    ∀ e ∈ entries, e.2.Shallow depth := by
  induction entries generalizing ds with
  | nil => exact List.forall_mem_nil _
  | cons e es ih =>
      obtain ⟨k, v⟩ := e
      obtain ⟨hv, hes⟩ := List.forall_mem_cons.1 h
      rw [entriesToDatums] at hds
      obtain ⟨key, -, hds⟩ := bind_ok hds
      obtain ⟨d, hd, hds⟩ := bind_ok hds
      obtain ⟨ds, hlater, -⟩ := bind_ok hds
      exact List.forall_mem_cons.2 ⟨hv d hd, ih hes hlater⟩

theorem shallow_array {items : List Value} {d : Datum} (hcontainer : v.isContainer = true)
    (hitems : ∀ w, IsPart w v → w ∈ items)
    (h : ∀ w ∈ items, ∀ d, w.toDatum (depth + 1) = .ok d → w.Shallow (depth + 1))
    (hdatum : (checkDepth depth >>= fun _ =>
      (itemsToDatums items (depth + 1)).map Datum.ofList) = .ok d) : v.Shallow depth := by
  obtain ⟨hdepth, hdatum⟩ := checkDepth_bind_eq_ok.1 hdatum
  obtain ⟨ds, hds, -⟩ := map_ok hdatum
  exact (shallow_container hcontainer).2
    ⟨hdepth, fun w hw => forall_items_shallow h hds w (hitems w hw)⟩

theorem shallow_object {entries : List (Value × Value)} {d : Datum}
    (hcontainer : v.isContainer = true) (hentries : ∀ w, IsPart w v → ∃ e ∈ entries, e.2 = w)
    (h : ∀ e ∈ entries, ∀ d, e.2.toDatum (depth + 1) = .ok d → e.2.Shallow (depth + 1))
    (hdatum : (checkDepth depth >>= fun _ =>
      (entriesToDatums entries (depth + 1)).map Datum.ofEntries) = .ok d) : v.Shallow depth := by
  obtain ⟨hdepth, hdatum⟩ := checkDepth_bind_eq_ok.1 hdatum
  obtain ⟨ds, hds, -⟩ := map_ok hdatum
  refine (shallow_container hcontainer).2 ⟨hdepth, fun w hw => ?_⟩
  obtain ⟨e, he, rfl⟩ := hentries w hw
  exact forall_entries_shallow h hds e he

/-- The encoder counts the levels of every value that it accepts. -/
theorem shallow_of_toDatum {v : Value} {d : Datum} (h : v.toDatum depth = .ok d) :
    v.Shallow depth := by
  induction v using Value.induction generalizing depth d with
  | step v ih =>
      replace ih : ∀ w, IsPart w v → ∀ d, w.toDatum (depth + 1) = .ok d → w.Shallow (depth + 1) :=
        fun w hw d hd => ih w (.single hw) hd
      cases v with
      | list items =>
          refine shallow_array rfl (fun w hw => ?_) (fun w hw => ih w (.item hw)) h
          cases hw with
          | item hw => exact hw
      | tuple items =>
          refine shallow_array rfl (fun w hw => ?_) (fun w hw => ih w (.component hw)) h
          cases hw with
          | component hw => exact hw
      | dict entries =>
          refine shallow_object rfl (fun w hw => ?_) (fun e he => ih e.2 (.entry he)) h
          cases hw with
          | entry he => exact ⟨_, he, rfl⟩
      | mapping entries =>
          refine shallow_object rfl (fun w hw => ?_) (fun e he => ih e.2 (.image he)) h
          cases hw with
          | image he => exact ⟨_, he, rfl⟩
      | moment t =>
          rw [toDatum] at h
          obtain ⟨hdepth, h⟩ := checkDepth_bind_eq_ok.1 h
          obtain ⟨entries, hentries, -⟩ := bind_ok h
          obtain ⟨entries, -, hentries⟩ := bind_ok hentries
          have hinner := (checkDepth_bind_eq_ok.1 hentries).1
          exact (shallow_leaf rfl).2 ⟨hdepth, fun _ _ => by omega⟩
      | _ =>
          exact (shallow_leaf rfl).2 ⟨(checkDepth_bind_eq_ok.1 h).1, fun _ ht => by cases ht⟩

/-- A value of moments that the wire tells in full, of scalars that can be sent, and of lists,
tuples and mappings of them is sent exactly if nothing in it lies under more than twenty containers
and no moment under more than nineteen. Then its term and its datum are read as what is kept of the
value, and that has every moment at the place where the value has it. -/
theorem moments_return {v : Value} (h : v.Throughout Carriable) :
    ((∃ t, v.marshal 0 = .ok t) ↔ v.Shallow 0) ∧
      (v.Shallow 0 → ∃ t d, v.marshal 0 = .ok t ∧ v.toDatum 0 = .ok d ∧
        t.unmarshal .native 0 = .ok v.kept ∧ d.unmarshal .native 0 = .ok v.kept) ∧
      ∀ place t, v.at? place = some (.moment t) → v.kept.at? place = some (.moment t) := by
  have hreturn (hshallow : v.Shallow 0) : ∃ t d, v.marshal 0 = .ok t ∧ v.toDatum 0 = .ok d ∧
      t.unmarshal .native 0 = .ok v.kept ∧ d.unmarshal .native 0 = .ok v.kept := by
    obtain ⟨d, hd, hread⟩ := comesBack h 0 hshallow
    obtain ⟨e, -, he⟩ | ⟨t, d', ht, hd', htallies⟩ := (v.concords 0).outcomes
    · cases hd.symm.trans he
    · cases hd.symm.trans hd'
      exact ⟨t, d, ht, hd, (htallies .native 0).trans hread, hread⟩
  refine ⟨⟨?_, fun hshallow => ?_⟩, hreturn, fun place t ht => at?_kept ht⟩
  · rintro ⟨t, ht⟩
    obtain ⟨e, he, -⟩ | ⟨t', d, -, hd, -⟩ := (v.concords 0).outcomes
    · cases ht.symm.trans he
    · exact shallow_of_toDatum hd
  · obtain ⟨t, d, ht, -⟩ := hreturn hshallow
    exact ⟨t, ht⟩

/-- The last minute but one of a leap day, half an hour off the full hours behind. -/
def leapNight : Moment := ⟨2000, 2, 29, 23, 58, 59, 0, .fixed ⟨-19800000000⟩⟩

/-- A moment in a mapping in a tuple, next to a number. -/
def almanac : Value := .tuple [.mapping [(.text "leap", .moment leapNight)], .int 3]

theorem carried_leapNight : leapNight.Carried ⟨-19800000000⟩ where
  wellFormed := ⟨by decide, by decide, by decide, by decide, by decide, by decide, by decide⟩
  offset := rfl
  micro := rfl
  minutes := by decide
  bound := by decide
  years := by
    unfold Moment.InYears
    decide

theorem carriable_almanac : almanac.Throughout Carriable := by
  have hthree : Double.ofInt? 3 = some (Double.ofNat 3) := by decide +kernel
  have hfinite : (Double.ofNat 3).isFinite = true := by decide +kernel
  have hscalar : ∃ d, (Value.int 3).scalar? = .ok (some d) :=
    ⟨Datum.ofDouble (Double.ofNat 3), by
      simp [scalar?, toDouble?, hthree, checkFinite, hfinite, Except.map]⟩
  refine .of_parts trivial fun w hw => ?_
  cases hw with
  | component hw =>
      obtain rfl | rfl := by simpa using hw
      · refine .of_parts (by simp [Carriable, DistinctKeys, lookup, markKey]) fun w hw => ?_
        cases hw with
        | image he =>
            obtain rfl := by simpa using he
            exact .of_parts ⟨_, carried_leapNight⟩ (forall_isPart_leaf rfl)
      · exact .of_parts hscalar (forall_isPart_leaf rfl)

theorem moments_return_almanac :
    almanac.Throughout Carriable ∧ almanac.Shallow 0 ∧
      (∃ t d, almanac.marshal 0 = .ok t ∧ almanac.toDatum 0 = .ok d ∧
        t.unmarshal .native 0 = .ok almanac.kept ∧ d.unmarshal .native 0 = .ok almanac.kept) ∧
      almanac.kept.at? [.item 0, .entry "leap"] = some (.moment leapNight) := by
  have hsent : ∃ t, almanac.marshal 0 = .ok t := by
    cases ht : almanac.marshal 0 with
    | ok t => exact ⟨t, rfl⟩
    | error e =>
        have hok : (almanac.marshal 0).isOk = true := by decide +kernel
        rw [ht] at hok
        cases hok
  obtain ⟨hiff, hreturn, hplaces⟩ := moments_return carriable_almanac
  have hshallow := hiff.1 hsent
  exact ⟨carriable_almanac, hshallow, hreturn hshallow, hplaces _ _ rfl⟩

end Value

end QueryDriver
