import QueryDriver.Proofs.Codec.Normal
import QueryDriver.Proofs.Codec.Outcome

/-!
# What is sent is what is read

A value goes onto the wire as a term or as a datum. If it goes as a term then it also goes as
a datum, and either way it comes back as its normal form. The encoders and the decoders count
depth in the same way, so a place that an encoder accepts is one that a decoder accepts.

The two ways are followed side by side: `Mirrors` says that a term and a datum are read as the
same value, and the proof goes along the structure of the value that is sent.
-/

namespace QueryDriver

open Wire

variable {f : TimeFormat} {depth : Int}

/-- The term and the datum are both read as the value. -/
structure Mirrors (f : TimeFormat) (depth : Int) (t : Term) (d : Datum) (v : Value) : Prop where
  term : t.unmarshal f depth = .ok v
  datum : d.unmarshal f depth = .ok v

/-- The terms and the datums are both read as the values. -/
structure ItemsMirror (f : TimeFormat) (depth : Int) (ts : List Term) (ds : List Datum)
    (vs : List Value) : Prop where
  terms : Term.unmarshalArgs f depth ts = .ok vs
  datums : Datum.unmarshalItems f depth ds = .ok vs

/-- The entries are both read as the values, under texts as keys. -/
structure EntriesMirror (f : TimeFormat) (depth : Int) (ts : List (String × Term))
    (ds : List (String × Datum)) (es : List (Value × Value)) : Prop where
  read : ∃ values : List (String × Value), es = values.map (fun e => (.text e.1, e.2)) ∧
    Term.unmarshalOptions f depth (ts.map fun e => (some e.1, some e.2)) = .ok values ∧
    Datum.unmarshalEntries f depth (ds.map fun e => (some e.1, some e.2)) = .ok values

namespace Wire.Datum

variable (hdepth : checkDepth depth = .ok ())

include hdepth

theorem unmarshal_null : Datum.null.unmarshal f depth = .ok .null := by
  simp [Datum.null, Datum.empty, Datum.unmarshal, hdepth, DatumType.ofCode?_code, bind, Except.bind,
    pure, Except.pure]

theorem unmarshal_ofBool (b : Bool) : (Datum.ofBool b).unmarshal f depth = .ok (.bool b) := by
  simp [Datum.ofBool, Datum.empty, Datum.unmarshal, hdepth, DatumType.ofCode?_code, bind,
    Except.bind, pure, Except.pure]

theorem unmarshal_ofDouble (x : Double) :
    (Datum.ofDouble x).unmarshal f depth = .ok (.double x) := by
  simp [Datum.ofDouble, Datum.empty, Datum.unmarshal, hdepth, DatumType.ofCode?_code, bind,
    Except.bind, pure, Except.pure]

theorem unmarshal_ofText (s : String) : (Datum.ofText s).unmarshal f depth = .ok (.text s) := by
  simp [Datum.ofText, Datum.empty, Datum.unmarshal, hdepth, DatumType.ofCode?_code, bind,
    Except.bind, pure, Except.pure]

end Wire.Datum

namespace Mirrors

/-- A datum stands for itself. -/
theorem ofDatum {d : Datum} {v : Value} (hdepth : checkDepth depth = .ok ())
    (h : d.unmarshal f depth = .ok v) : Mirrors f depth (Term.ofDatum d) d v where
  term := by
    simp [Term.ofDatum, Term.empty, Term.unmarshal, hdepth, Datum.unmarshalValue, h, bind,
      Except.bind]
  datum := h

theorem array {ts : List Term} {ds : List Datum} {vs : List Value}
    (hdepth : checkDepth depth = .ok ()) (h : ItemsMirror f (depth + 1) ts ds vs) :
    Mirrors f depth (Term.makeArray ts) (Datum.ofList ds) (.list vs) where
  term := by
    have hcode : TermType.makeArray.code ≠ TermType.datum.code := by decide
    simp [Term.makeArray, Term.empty, Term.unmarshal, hdepth, hcode, h.terms, bind, Except.bind,
      pure, Except.pure]
  datum := by
    simp [Datum.ofList, Datum.empty, Datum.unmarshal, hdepth, DatumType.ofCode?_code, h.datums,
      bind, Except.bind, pure, Except.pure]

theorem object {ts : List (String × Term)} {ds : List (String × Datum)}
    {es : List (Value × Value)} (hdepth : checkDepth depth = .ok ())
    (h : EntriesMirror f (depth + 1) ts ds es) (hdistinct : Value.DistinctKeys es)
    (htime : f = .native → Value.isTime es = false) :
    Mirrors f depth (Term.makeObject ts) (Datum.ofEntries ds) (.dict es) := by
  obtain ⟨values, rfl, hterms, hdatums⟩ := h.read
  have hobject : Value.ofObject f values = .ok (.dict (values.map fun e => (.text e.1, e.2))) := by
    rw [Value.ofObject, Value.mergeEntries_of_distinct hdistinct, if_neg]
    rintro ⟨hnative, htrue⟩
    rw [htime hnative] at htrue
    cases htrue
  constructor
  · have hcode : TermType.makeObject.code ≠ TermType.datum.code := by decide
    have hcode' : TermType.makeObject.code ≠ TermType.makeArray.code := by decide
    simp [Term.makeObject, Term.empty, Term.unmarshal, hdepth, hcode, hcode', hterms, bind,
      Except.bind, hobject]
  · simp [Datum.ofEntries, Datum.empty, Datum.unmarshal, hdepth, DatumType.ofCode?_code, hdatums,
      bind, Except.bind, hobject]

end Mirrors

namespace ItemsMirror

theorem nil : ItemsMirror f depth [] [] [] := ⟨rfl, rfl⟩

theorem cons {t : Term} {d : Datum} {v : Value} {ts : List Term} {ds : List Datum}
    {vs : List Value} (h : Mirrors f depth t d v) (hlater : ItemsMirror f depth ts ds vs) :
    ItemsMirror f depth (t :: ts) (d :: ds) (v :: vs) where
  terms := by
    simp [Term.unmarshalArgs, h.term, hlater.terms, bind, Except.bind, pure, Except.pure]
  datums := by
    simp [Datum.unmarshalItems, h.datum, hlater.datums, bind, Except.bind, pure, Except.pure]

end ItemsMirror

namespace EntriesMirror

theorem nil : EntriesMirror f depth [] [] [] := ⟨[], rfl, rfl, rfl⟩

theorem cons (key : String) {t : Term} {d : Datum} {v : Value} {ts : List (String × Term)}
    {ds : List (String × Datum)} {es : List (Value × Value)} (h : Mirrors f depth t d v)
    (hlater : EntriesMirror f depth ts ds es) :
    EntriesMirror f depth ((key, t) :: ts) ((key, d) :: ds) ((.text key, v) :: es) := by
  obtain ⟨values, rfl, hterms, hdatums⟩ := hlater.read
  refine ⟨(key, v) :: values, rfl, ?_, ?_⟩
  · simp [Term.unmarshalOptions, Term.unmarshalValue, h.term, hterms, bind, Except.bind, pure,
      Except.pure]
  · simp [Datum.unmarshalEntries, Datum.unmarshalValue, h.datum, hdatums, bind, Except.bind, pure,
      Except.pure]

end EntriesMirror

namespace Value

theorem ofDouble_of_checkFinite {x : Double} {d : Datum}
    (h : (checkFinite x).map (fun x => some (Datum.ofDouble x)) = .ok (some d)) :
    d = Datum.ofDouble x := by
  obtain ⟨x', hfinite, hd⟩ := map_ok h
  unfold checkFinite at hfinite
  split at hfinite <;> cases hfinite
  exact (Option.some.inj hd).symm

/-- The scalars, with what is sent of them. -/
theorem scalar?_cases {v : Value} {d : Datum} (h : v.scalar? = .ok (some d)) :
    (v = .null ∧ d = Datum.null) ∨ (∃ b, v = .bool b ∧ d = Datum.ofBool b) ∨
      (∃ s, v = .text s ∧ d = Datum.ofText s) ∨ ∃ x, v.normal = .double x ∧ d = Datum.ofDouble x := by
  cases v with
  | null => exact .inl ⟨rfl, (Option.some.inj (Except.ok.inj h)).symm⟩
  | bool b => exact .inr (.inl ⟨b, rfl, (Option.some.inj (Except.ok.inj h)).symm⟩)
  | text s => exact .inr (.inr (.inl ⟨s, rfl, (Option.some.inj (Except.ok.inj h)).symm⟩))
  | int | double | fraction =>
      refine .inr (.inr (.inr ?_))
      simp only [scalar?] at h
      split at h
      · cases h
      · cases h
      · rename_i x hx
        exact ⟨x, asDouble_of_some hx, ofDouble_of_checkFinite h⟩
  | _ => cases h

/-- What is sent of a scalar is its normal form. -/
theorem unmarshal_scalar {v : Value} {d : Datum} (hdepth : checkDepth depth = .ok ())
    (h : v.scalar? = .ok (some d)) : d.unmarshal f depth = .ok v.normal := by
  obtain ⟨rfl, rfl⟩ | ⟨b, rfl, rfl⟩ | ⟨s, rfl, rfl⟩ | ⟨x, hx, rfl⟩ := scalar?_cases h
  · exact Datum.unmarshal_null hdepth
  · exact Datum.unmarshal_ofBool hdepth b
  · exact Datum.unmarshal_ofText hdepth s
  · rw [hx]
    exact Datum.unmarshal_ofDouble hdepth x

/-- A moment that can be sent has a known offset, and there is room for its object. -/
theorem timeEntriesAt_ok {t : Moment} {entries : List (String × Datum)}
    (h : timeEntriesAt t depth = .ok entries) : checkDepth (depth + 1) = .ok () ∧
      ∃ east, t.offset? = some east ∧ entries = [(markKey, Datum.ofText timeMark),
        ("epoch_time", Datum.ofDouble (t.epochSeconds east)),
        ("timezone", Datum.ofText (Zone.text east))] := by
  obtain ⟨entries', hentries, h⟩ := bind_ok h
  obtain ⟨⟨⟩, hdepth, h⟩ := bind_ok h
  cases h
  refine ⟨hdepth, ?_⟩
  unfold timeEntries at hentries
  cases hoffset : t.offset? with
  | none =>
      rw [hoffset] at hentries
      cases hentries
  | some east =>
      rw [hoffset] at hentries
      cases hzone : Zone.ofMoment t with
      | error cause =>
          rw [hzone] at hentries
          cases hentries
      | ok zone =>
          rw [hzone] at hentries
          cases hentries
          simp only [Zone.ofMoment, hoffset] at hzone
          split at hzone <;> cases hzone
          exact ⟨east, rfl, rfl⟩

/-- Wherever the value goes as a term, it goes as a datum and both are read as its normal
form. -/
def Mirrored (f : TimeFormat) (v : Value) : Prop :=
  ∀ ⦃depth : Int⦄ ⦃t : Term⦄, v.marshal depth = .ok t →
    ∃ d, v.toDatum depth = .ok d ∧ Mirrors f depth t d v.normal

theorem mirror_items {items : List Value} (h : ∀ v ∈ items, v.Mirrored f) {ts : List Term}
    (hts : marshalItems items depth = .ok ts) :
    ∃ ds, itemsToDatums items depth = .ok ds ∧ ItemsMirror f depth ts ds (normalItems items) := by
  induction items generalizing ts with
  | nil =>
      cases hts
      exact ⟨[], rfl, .nil⟩
  | cons v vs ih =>
      obtain ⟨hv, hvs⟩ := List.forall_mem_cons.1 h
      rw [marshalItems] at hts
      obtain ⟨t, ht, hts⟩ := bind_ok hts
      obtain ⟨ts, hlater, hts⟩ := bind_ok hts
      cases hts
      obtain ⟨d, hd, hmirror⟩ := hv ht
      obtain ⟨ds, hds, hmirrors⟩ := ih hvs hlater
      refine ⟨d :: ds, ?_, .cons hmirror hmirrors⟩
      simp [itemsToDatums, hd, hds, bind, Except.bind, pure, Except.pure]

theorem mirror_entries {entries : List (Value × Value)} (h : ∀ e ∈ entries, e.2.Mirrored f)
    {ts : List (String × Term)} (hts : marshalEntries entries depth = .ok ts) :
    ∃ ds, entriesToDatums entries depth = .ok ds ∧
      EntriesMirror f depth ts ds (normalEntries entries) := by
  induction entries generalizing ts with
  | nil =>
      cases hts
      exact ⟨[], rfl, .nil⟩
  | cons e es ih =>
      obtain ⟨k, v⟩ := e
      obtain ⟨hv, hes⟩ := List.forall_mem_cons.1 h
      rw [marshalEntries] at hts
      obtain ⟨key, hkey, hts⟩ := bind_ok hts
      obtain ⟨t, ht, hts⟩ := bind_ok hts
      obtain ⟨ts, hlater, hts⟩ := bind_ok hts
      cases hts
      obtain ⟨d, hd, hmirror⟩ := hv ht
      obtain ⟨ds, hds, hmirrors⟩ := ih hes hlater
      obtain rfl := textKey_eq_ok_iff.1 hkey
      refine ⟨(key, d) :: ds, ?_, .cons key hmirror hmirrors⟩
      simp [entriesToDatums, hkey, hd, hds, bind, Except.bind, pure, Except.pure]

/-- Keys are distinct, and where moments are read there are none and nothing looks like one. -/
structure Readable (f : TimeFormat) (v : Value) : Prop where
  keyed : v.Throughout WellKeyed
  timeless : f = .native → v.Throughout Timeless

theorem Readable.part {v w : Value} (h : v.Readable f) (hw : IsPart w v) : w.Readable f :=
  ⟨h.keyed.part hw, fun hnative => (h.timeless hnative).part hw⟩

section Kinds

variable {v : Value}

theorem mirrored_array {items : List Value} (hitems : ∀ w ∈ items, w.Mirrored f)
    (hmarshal : ∀ depth, v.marshal depth = (do
      checkDepth depth
      (marshalItems items (depth + 1)).map Term.makeArray))
    (hdatum : ∀ depth, v.toDatum depth = (do
      checkDepth depth
      (itemsToDatums items (depth + 1)).map Datum.ofList))
    (hnormal : v.normal = .list (normalItems items)) : v.Mirrored f := by
  intro depth t ht
  rw [hmarshal] at ht
  obtain ⟨⟨⟩, hdepth, ht⟩ := bind_ok ht
  obtain ⟨ts, hts, rfl⟩ := map_ok ht
  obtain ⟨ds, hds, hmirror⟩ := mirror_items hitems hts
  rw [hdatum, hdepth, hds, hnormal]
  exact ⟨_, rfl, .array hdepth hmirror⟩

theorem mirrored_object {entries : List (Value × Value)}
    (hentries : ∀ e ∈ entries, e.2.Mirrored f) (hdistinct : DistinctKeys entries)
    (htime : f = .native → lookup entries markKey ≠ some (.text timeMark))
    (hmarshal : ∀ depth, v.marshal depth = (do
      checkDepth depth
      (marshalEntries entries (depth + 1)).map Term.makeObject))
    (hdatum : ∀ depth, v.toDatum depth = (do
      checkDepth depth
      (entriesToDatums entries (depth + 1)).map Datum.ofEntries))
    (hnormal : v.normal = .dict (normalEntries entries)) : v.Mirrored f := by
  intro depth t ht
  rw [hmarshal] at ht
  obtain ⟨⟨⟩, hdepth, ht⟩ := bind_ok ht
  obtain ⟨ts, hts, rfl⟩ := map_ok ht
  obtain ⟨ds, hds, hmirror⟩ := mirror_entries hentries hts
  rw [hdatum, hdepth, hds, hnormal]
  exact ⟨_, rfl, .object hdepth hmirror hdistinct.normal
    fun hnative => isTime_normalEntries (htime hnative)⟩

/-- The object of a moment is read as it is unless moments are read. -/
theorem mirrored_moment {m : Moment} (hraw : f ≠ .native) : (Value.moment m).Mirrored f := by
  intro depth t ht
  rw [marshal] at ht
  obtain ⟨⟨⟩, hdepth, ht⟩ := bind_ok ht
  obtain ⟨entries, hentries, ht⟩ := bind_ok ht
  obtain ⟨hinner, east, hoffset, rfl⟩ := timeEntriesAt_ok hentries
  cases ht
  rw [toDatum, hdepth, hentries, normal, timeObject, hoffset]
  have hmark := Mirrors.ofDatum (f := f) hinner (Datum.unmarshal_ofText hinner timeMark)
  have hepoch := Mirrors.ofDatum (f := f) hinner
    (Datum.unmarshal_ofDouble hinner (m.epochSeconds east))
  have hzone := Mirrors.ofDatum (f := f) hinner (Datum.unmarshal_ofText hinner (Zone.text east))
  have hmirror := EntriesMirror.cons markKey hmark (.cons "epoch_time" hepoch
    (.cons "timezone" hzone .nil))
  refine ⟨_, rfl, .object hdepth hmirror ?_ fun hnative => absurd hnative hraw⟩
  simp [DistinctKeys, markKey]

theorem mirrored_scalar
    (hmarshal : ∀ depth, v.marshal depth = (do
      checkDepth depth
      match ← v.scalar? with
      | some d => return Term.ofDatum d
      | none => throw (.ofCause (.unsupported v.typeName))))
    (hdatum : ∀ depth, v.toDatum depth = (do
      checkDepth depth
      match ← v.scalar? with
      | some d => return d
      | none => throw (.ofCause (.unsupported v.typeName)))) : v.Mirrored f := by
  intro depth t ht
  rw [hmarshal] at ht
  obtain ⟨⟨⟩, hdepth, ht⟩ := bind_ok ht
  obtain ⟨d, hd, ht⟩ := bind_ok ht
  cases d with
  | none => cases ht
  | some d =>
      cases ht
      rw [hdatum, hdepth, hd]
      exact ⟨d, rfl, .ofDatum hdepth (unmarshal_scalar hdepth hd)⟩

end Kinds

theorem mirrored {v : Value} (h : v.Readable f) : v.Mirrored f := by
  induction v using Value.induction with
  | step v ih =>
      replace ih : ∀ w, IsPart w v → w.Mirrored f := fun w hw => ih w (.single hw) (h.part hw)
      cases v with
      | list items =>
          exact mirrored_array (fun w hw => ih w (.item hw)) (fun _ => rfl) (fun _ => rfl) rfl
      | tuple items =>
          exact mirrored_array (fun w hw => ih w (.component hw)) (fun _ => rfl) (fun _ => rfl) rfl
      | dict entries =>
          exact mirrored_object (fun e he => ih e.2 (.entry he)) h.keyed.self
            (fun hnative => (h.timeless hnative).self) (fun _ => rfl) (fun _ => rfl) rfl
      | mapping entries =>
          exact mirrored_object (fun e he => ih e.2 (.image he)) h.keyed.self
            (fun hnative => (h.timeless hnative).self) (fun _ => rfl) (fun _ => rfl) rfl
      | moment m => exact mirrored_moment fun hnative => (h.timeless hnative).self
      | _ => exact mirrored_scalar (fun _ => rfl) (fun _ => rfl)

/-- A value that goes as a term goes as a datum, and both come back as its normal form where
moments are asked for raw. They do so too where moments are read, as long as there are none in
the value and nothing in it looks like one. -/
theorem unmarshal_of_marshal {v : Value} (hkeyed : v.Throughout WellKeyed) {t : Term}
    (ht : v.marshal 0 = .ok t) :
    ∃ d, v.toDatum 0 = .ok d ∧ t.unmarshal .raw 0 = .ok v.normal ∧
      d.unmarshal .raw 0 = .ok v.normal ∧
      (v.Throughout Timeless →
        t.unmarshal .native 0 = .ok v.normal ∧ d.unmarshal .native 0 = .ok v.normal) := by
  have hreadable : v.Readable .raw := ⟨hkeyed, fun h => by cases h⟩
  obtain ⟨d, hd, hraw⟩ := mirrored hreadable ht
  refine ⟨d, hd, hraw.term, hraw.datum, fun htimeless => ?_⟩
  obtain ⟨d', hd', hnative⟩ := mirrored ⟨hkeyed, fun _ => htimeless⟩ ht
  cases hd.symm.trans hd'
  exact ⟨hnative.term, hnative.datum⟩

/-- A mapping in a tuple, which carries the mark of something that is no time. -/
def markedPair : Value :=
  .tuple [.int 3, .mapping [(.text "a", .bool true), (.text markKey, .text "GEOMETRY")]]

/-- A moment in a list. -/
def leapDay : Value := .list [.moment ⟨2020, 2, 29, 12, 30, 15, 500000, .fixed ⟨-19800000000⟩⟩]

theorem throughout_markedPair {P : Value → Prop}
    (h : ∀ v ∈ [markedPair, .int 3,
      .mapping [(.text "a", .bool true), (.text markKey, .text "GEOMETRY")], .bool true,
      .text "GEOMETRY"], P v) : markedPair.Throughout P := by
  obtain ⟨hpair, hint, hmapping, hbool, htext⟩ : _ ∧ _ ∧ _ ∧ _ ∧ _ := by simpa using h
  refine .of_parts hpair fun w hw => ?_
  cases hw with
  | component hw =>
      obtain rfl | rfl := by simpa using hw
      · exact .of_parts hint (forall_isPart_leaf rfl)
      · refine .of_parts hmapping fun w hw => ?_
        cases hw with
        | image he =>
            obtain rfl | rfl := by simpa using he
            · exact .of_parts hbool (forall_isPart_leaf rfl)
            · exact .of_parts htext (forall_isPart_leaf rfl)

/-- Two values on the wire and back. -/
theorem unmarshal_markedPair_leapDay :
    markedPair.Throughout WellKeyed ∧ markedPair.Throughout Timeless ∧
      leapDay.Throughout WellKeyed ∧
      (∃ t d, markedPair.marshal 0 = .ok t ∧ markedPair.toDatum 0 = .ok d ∧
        t.unmarshal .native 0 = .ok markedPair.normal ∧
        d.unmarshal .native 0 = .ok markedPair.normal) ∧
      (∃ t d, leapDay.marshal 0 = .ok t ∧ leapDay.toDatum 0 = .ok d ∧
        t.unmarshal .raw 0 = .ok leapDay.normal ∧ d.unmarshal .raw 0 = .ok leapDay.normal) ∧
      markedPair.normal = .list [.double (Double.ofNat 3),
        .dict [(.text "a", .bool true), (.text markKey, .text "GEOMETRY")]] := by
  have hok {v : Value} (h : (v.marshal 0).isOk = true) : ∃ t, v.marshal 0 = .ok t := by
    cases ht : v.marshal 0 with
    | error e =>
        rw [ht] at h
        cases h
    | ok t => exact ⟨t, rfl⟩
  have hkeyed : markedPair.Throughout WellKeyed :=
    throughout_markedPair (by simp [WellKeyed, markedPair, DistinctKeys, markKey])
  have htimeless : markedPair.Throughout Timeless :=
    throughout_markedPair (by simp [Timeless, markedPair, lookup, markKey, timeMark])
  have hleap : leapDay.Throughout WellKeyed := by
    refine .of_parts trivial fun w hw => ?_
    cases hw with
    | item hw =>
        obtain rfl := by simpa using hw
        exact .of_parts trivial (forall_isPart_leaf rfl)
  obtain ⟨t, ht⟩ := hok (v := markedPair) (by decide +kernel)
  obtain ⟨t', ht'⟩ := hok (v := leapDay) (by decide +kernel)
  have hthree : Double.ofInt? 3 = some (Double.ofNat 3) := by decide +kernel
  obtain ⟨d, hd, -, -, hnative⟩ := unmarshal_of_marshal hkeyed ht
  obtain ⟨d', hd', hterm, hdatum, -⟩ := unmarshal_of_marshal hleap ht'
  refine ⟨hkeyed, htimeless, hleap, ⟨t, d, ht, hd, hnative htimeless⟩,
    ⟨t', d', ht', hd', hterm, hdatum⟩, ?_⟩
  simp [markedPair, normal, normalItems, normalEntries, asDouble, toDouble?, hthree]

end Value

end QueryDriver
