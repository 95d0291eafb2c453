import QueryDriver.Proofs.Codec.Outcome
import QueryDriver.Proofs.Number.Range
import QueryDriver.Proofs.Value.Part

/-!
# What the encoders fail for

A value that has no form on the wire is refused by an error of the codec, at whatever depth it
lies, except for one kind: an integer or a fraction that is too large for a double is not refused
but brings the conversion down. `Overflows` says where the encoder meets such a number first, with
everything before it encoded.

Values go onto the wire as terms or as datums. The two encoders walk alike, and `Encoder` is how
they walk.
-/

namespace QueryDriver

open Wire

namespace Value

/-- A number that is too large for a double, with what is wrong with it. -/
inductive TooLarge : Value → Fault → Prop where
  | integer {n : Int} (h : Double.bound ≤ n.natAbs) : TooLarge (.int n) .integerTooLarge
  | fraction {num : Int} {den : Nat} (hden : den ≠ 0) (h : Double.bound * den ≤ num.natAbs) :
      TooLarge (.fraction num den) .fractionTooLarge

theorem toDouble?_eq_error_iff {v : Value} {f : Fault} :
    v.toDouble? = some (.error f) ↔ v.TooLarge f := by
  constructor
  · intro h
    cases v with
    | int n =>
        cases hn : Double.ofInt? n with
        | none =>
            simp only [toDouble?, hn] at h
            cases h
            have := ((Double.ofRatio_eq_none_iff _ _ _).1 hn).2
            exact .integer (by omega)
        | some x =>
            simp only [toDouble?, hn] at h
            cases h
    | fraction num den =>
        cases hn : Double.ofRatio (num < 0) num.natAbs den with
        | none =>
            simp only [toDouble?, hn] at h
            cases h
            obtain ⟨hden, h⟩ := (Double.ofRatio_eq_none_iff _ _ _).1 hn
            exact .fraction hden h
        | some x =>
            simp only [toDouble?, hn] at h
            cases h
    | _ => cases h
  · intro h
    cases h with
    | @integer n h =>
        have hn : Double.ofInt? n = none :=
          (Double.ofRatio_eq_none_iff _ _ _).2 ⟨by decide, by omega⟩
        simp only [toDouble?, hn]
    | @fraction num den hden h =>
        have hn : Double.ofRatio (num < 0) num.natAbs den = none :=
          (Double.ofRatio_eq_none_iff _ _ _).2 ⟨hden, h⟩
        simp only [toDouble?, hn]

theorem coded_scalar (v : Value) : Coded v.scalar? := by
  unfold scalar?
  split
  · exact coded_ok _
  · exact coded_ok _
  · exact coded_ok _
  · split
    · exact coded_ok _
    · exact coded_fault _
    · refine Coded.map ?_ _
      unfold checkFinite
      split
      · exact coded_ok _
      · exact coded_cause rfl

/-- A scalar brings its conversion down when it is a number that is too large. -/
theorem scalar?_eq_fault_iff {v : Value} {f : Fault} :
    v.scalar? = .error (.fault f) ↔ v.TooLarge f := by
  rw [← toDouble?_eq_error_iff]
  have hfinite (x : Double) : (checkFinite x).map (fun x => some (Datum.ofDouble x)) ≠
      .error (.fault f) := by
    unfold checkFinite
    split <;> exact fun h => (by cases h)
  unfold scalar?
  split
  case h_1 | h_2 | h_3 => exact iff_of_false (fun h => (by cases h)) fun h => (by cases h)
  case h_4 =>
    split
    case h_1 h => simp [h]
    case h_2 h => simp [h]
    case h_3 h =>
      rw [h]
      exact iff_of_false (hfinite _) fun h => (by cases h)

/-- The items of an array. -/
def items? : Value → Option (List Value)
  | .list items | .tuple items => some items
  | _ => none

/-- The entries of an object. -/
def entries? : Value → Option (List (Value × Value))
  | .dict entries | .mapping entries => some entries
  | _ => none

theorem entries?_of_items {v : Value} {items : List Value} (h : v.items? = some items) :
    v.entries? = none := by
  cases v <;> first | rfl | cases h

theorem isPart_of_items {v w : Value} {items : List Value} (h : v.items? = some items)
    (hw : w ∈ items) : IsPart w v := by
  cases v with
  | list => cases h; exact .item hw
  | tuple => cases h; exact .component hw
  | _ => cases h

theorem isPart_of_entries {v : Value} {entries : List (Value × Value)} {e : Value × Value}
    (h : v.entries? = some entries) (he : e ∈ entries) : IsPart e.2 v := by
  cases v with
  | dict => cases h; exact .entry he
  | mapping => cases h; exact .image he
  | _ => cases h

section Encoder

variable {α : Type} {encode : Value → Int → Except Failure α}

/-- An entry with its key as a text and its value encoded. -/
def encodeEntry (encode : Value → Int → Except Failure α) (depth : Int) (e : Value × Value) :
    Except Failure (String × α) :=
  textKey e.1 >>= fun key => (encode e.2 depth).map (key, ·)

/-- How an encoder walks through a value, whatever it makes of the parts. -/
structure Encoder (encode : Value → Int → Except Failure α) : Prop where
  array : ∀ {v items}, v.items? = some items → ∀ depth, ∃ finish,
    encode v depth = (checkDepth depth >>= fun _ =>
      (items.mapM fun w => encode w (depth + 1)).map finish)
  object : ∀ {v entries}, v.entries? = some entries → ∀ depth, ∃ finish,
    encode v depth = (checkDepth depth >>= fun _ =>
      (entries.mapM (encodeEntry encode (depth + 1))).map finish)
  moment : ∀ t depth, ∃ finish,
    encode (.moment t) depth = (checkDepth depth >>= fun _ => (timeEntriesAt t depth).map finish)
  leaf : ∀ {v}, v.items? = none → v.entries? = none → (∀ t, v ≠ .moment t) → ∀ depth,
    ∃ finish : Datum → α, encode v depth = (checkDepth depth >>= fun _ => v.scalar? >>= fun d =>
      match d with
      | some d => .ok (finish d)
      | none => .error (.ofCause (.unsupported v.typeName)))

theorem marshalItems_eq_mapM (items : List Value) (depth : Int) :
    marshalItems items depth = items.mapM fun w => w.marshal depth := by
  induction items with
  | nil => rfl
  | cons v vs ih =>
      rw [marshalItems, List.mapM_cons, ih]

theorem marshalEntries_eq_mapM (entries : List (Value × Value)) (depth : Int) :
    marshalEntries entries depth = entries.mapM (encodeEntry marshal depth) := by
  induction entries with
  | nil => rfl
  | cons e es ih =>
      obtain ⟨key, v⟩ := e
      rw [marshalEntries, List.mapM_cons, ih, encodeEntry]
      cases textKey key with
      | error e => rfl
      | ok key =>
          cases v.marshal depth <;> rfl

theorem itemsToDatums_eq_mapM (items : List Value) (depth : Int) :
    itemsToDatums items depth = items.mapM fun w => w.toDatum depth := by
  induction items with
  | nil => rfl
  | cons v vs ih =>
      rw [itemsToDatums, List.mapM_cons, ih]

theorem entriesToDatums_eq_mapM (entries : List (Value × Value)) (depth : Int) :
    entriesToDatums entries depth = entries.mapM (encodeEntry toDatum depth) := by
  induction entries with
  | nil => rfl
  | cons e es ih =>
      obtain ⟨key, v⟩ := e
      rw [entriesToDatums, List.mapM_cons, ih, encodeEntry]
      cases textKey key with
      | error e => rfl
      | ok key =>
          cases v.toDatum depth <;> rfl

theorem encoder_marshal : Encoder marshal where
  array {v items} h depth := by
    refine ⟨Term.makeArray, ?_⟩
    rw [← marshalItems_eq_mapM]
    cases v with
    | list | tuple => cases h; rfl
    | _ => cases h
  object {v entries} h depth := by
    refine ⟨Term.makeObject, ?_⟩
    rw [← marshalEntries_eq_mapM]
    cases v with
    | dict | mapping => cases h; rfl
    | _ => cases h
  moment t depth := by
    refine ⟨fun entries => Term.makeObject (entries.map fun e => (e.1, Term.ofDatum e.2)), ?_⟩
    rw [marshal]
    cases timeEntriesAt t depth <;> rfl
  leaf {v} hitems hentries hmoment depth := by
    refine ⟨Term.ofDatum, ?_⟩
    cases v with
    | list | tuple => cases hitems
    | dict | mapping => cases hentries
    | moment t => exact absurd rfl (hmoment t)
    | _ => rfl

theorem encoder_toDatum : Encoder toDatum where
  array {v items} h depth := by
    refine ⟨Datum.ofList, ?_⟩
    rw [← itemsToDatums_eq_mapM]
    cases v with
    | list | tuple => cases h; rfl
    | _ => cases h
  object {v entries} h depth := by
    refine ⟨Datum.ofEntries, ?_⟩
    rw [← entriesToDatums_eq_mapM]
    cases v with
    | dict | mapping => cases h; rfl
    | _ => cases h
  moment t depth := by
    refine ⟨Datum.ofEntries, ?_⟩
    rw [toDatum]
    cases timeEntriesAt t depth <;> rfl
  leaf {v} hitems hentries hmoment depth := by
    refine ⟨id, ?_⟩
    cases v with
    | list | tuple => cases hitems
    | dict | mapping => cases hentries
    | moment t => exact absurd rfl (hmoment t)
    | _ => rfl

end Encoder

/-! ### Where an encoder is brought down -/

/-- Going through the value at a depth, the encoder meets a number that is too large, and it has
encoded everything before. -/
inductive Overflows {α : Type} (encode : Value → Int → Except Failure α) :
    Int → Value → Fault → Prop where
  | here {depth : Int} {v : Value} {f : Fault} (hdepth : depth ≤ depthLimit) (h : v.TooLarge f) :
      Overflows encode depth v f
  | item {depth : Int} {v w : Value} {before after : List Value} {f : Fault}
      (hdepth : depth ≤ depthLimit) (hitems : v.items? = some (before ++ w :: after))
      (hbefore : ∀ x ∈ before, ∃ y, encode x (depth + 1) = .ok y)
      (h : Overflows encode (depth + 1) w f) : Overflows encode depth v f
  | entry {depth : Int} {v w : Value} {key : String} {before after : List (Value × Value)}
      {f : Fault} (hdepth : depth ≤ depthLimit)
      (hentries : v.entries? = some (before ++ (.text key, w) :: after))
      (hbefore : ∀ e ∈ before, ∃ s y, e.1 = .text s ∧ encode e.2 (depth + 1) = .ok y)
      (h : Overflows encode (depth + 1) w f) : Overflows encode depth v f

variable {α : Type} {encode : Value → Int → Except Failure α}

/-- A value is an array, an object, a moment or none of them. -/
theorem kinds (v : Value) : (∃ items, v.items? = some items) ∨
    (∃ entries, v.entries? = some entries) ∨ (∃ t, v = .moment t) ∨
      v.items? = none ∧ v.entries? = none ∧ ∀ t, v ≠ .moment t := by
  cases v with
  | list items | tuple items => exact .inl ⟨items, rfl⟩
  | dict entries | mapping entries => exact .inr (.inl ⟨entries, rfl⟩)
  | moment t => exact .inr (.inr (.inl ⟨t, rfl⟩))
  | _ => exact .inr (.inr (.inr ⟨rfl, rfl, fun _ h => by cases h⟩))

theorem coded_encodeEntry {depth : Int} {e : Value × Value} (h : Coded (encode e.2 depth)) :
    Coded (encodeEntry encode depth e) :=
  (coded_textKey e.1).bind fun _ => h.map _

theorem Encoder.coded (h : Encoder encode) (v : Value) (depth : Int) : Coded (encode v depth) := by
  induction v using Value.induction generalizing depth with
  | step v ih =>
  obtain ⟨items, hitems⟩ | ⟨entries, hentries⟩ | ⟨t, rfl⟩ | ⟨hitems, hentries, hmoment⟩ := kinds v
  · obtain ⟨finish, heq⟩ := h.array hitems depth
    rw [heq]
    refine (coded_checkDepth depth).bind fun _ => (coded_mapM fun w hw => ?_).map _
    exact ih w (.single (isPart_of_items hitems hw)) _
  · obtain ⟨finish, heq⟩ := h.object hentries depth
    rw [heq]
    refine (coded_checkDepth depth).bind fun _ => (coded_mapM fun e he => ?_).map _
    exact coded_encodeEntry (ih e.2 (.single (isPart_of_entries hentries he)) _)
  · obtain ⟨finish, heq⟩ := h.moment t depth
    rw [heq]
    refine (coded_checkDepth depth).bind fun _ => Coded.map (fun e he => .inl ?_) _
    exact timeEntriesAt_error he
  · obtain ⟨finish, heq⟩ := h.leaf hitems hentries hmoment depth
    rw [heq]
    refine (coded_checkDepth depth).bind fun _ => (coded_scalar v).bind fun d => ?_
    cases d with
    | none => exact coded_cause rfl
    | some d => exact coded_ok _

theorem encodeEntry_eq_ok_iff {depth : Int} {e : Value × Value} :
    (∃ y, encodeEntry encode depth e = .ok y) ↔
      ∃ s y, e.1 = .text s ∧ encode e.2 depth = .ok y := by
  simp only [encodeEntry, bind_eq_ok_iff, map_eq_ok_iff, textKey_eq_ok_iff]
  constructor
  · rintro ⟨_, s, hs, y, hy, -⟩
    exact ⟨s, y, hs, hy⟩
  · rintro ⟨s, y, hs, hy⟩
    exact ⟨_, s, hs, y, hy, rfl⟩

theorem encodeEntry_eq_fault_iff {depth : Int} {e : Value × Value} {f : Fault} :
    encodeEntry encode depth e = .error (.fault f) ↔
      ∃ s, e.1 = .text s ∧ encode e.2 depth = .error (.fault f) := by
  have hkey : textKey e.1 ≠ .error (.fault f) := by
    unfold textKey
    split <;> exact nofun
  simp only [encodeEntry, bind_eq_error_iff, map_eq_error_iff, textKey_eq_ok_iff, hkey, false_or]

section Kinds

variable {depth : Int} {v : Value} {f : Fault}

theorem overflows_array_iff {items : List Value} (hitems : v.items? = some items) :
    Overflows encode depth v f ↔ depth ≤ depthLimit ∧ ∃ before w after,
      items = before ++ w :: after ∧ (∀ x ∈ before, ∃ y, encode x (depth + 1) = .ok y) ∧
        Overflows encode (depth + 1) w f := by
  constructor
  · intro h
    cases h with
    | here hdepth h => cases h <;> cases hitems
    | item hdepth hitems' hbefore h =>
        cases hitems.symm.trans hitems'
        exact ⟨hdepth, _, _, _, rfl, hbefore, h⟩
    | entry hdepth hentries => cases (entries?_of_items hitems).symm.trans hentries
  · rintro ⟨hdepth, before, w, after, rfl, hbefore, h⟩
    exact .item hdepth hitems hbefore h

theorem overflows_object_iff {entries : List (Value × Value)}
    (hentries : v.entries? = some entries) :
    Overflows encode depth v f ↔ depth ≤ depthLimit ∧ ∃ before e after,
      entries = before ++ e :: after ∧
        (∀ e ∈ before, ∃ s y, e.1 = .text s ∧ encode e.2 (depth + 1) = .ok y) ∧
        ∃ s, e.1 = .text s ∧ Overflows encode (depth + 1) e.2 f := by
  constructor
  · intro h
    cases h with
    | here hdepth h => cases h <;> cases hentries
    | item hdepth hitems => cases (entries?_of_items hitems).symm.trans hentries
    | entry hdepth hentries' hbefore h =>
        cases hentries.symm.trans hentries'
        exact ⟨hdepth, _, _, _, rfl, hbefore, _, rfl, h⟩
  · rintro ⟨hdepth, before, ⟨key, w⟩, after, rfl, hbefore, s, hs, h⟩
    cases hs
    exact .entry hdepth hentries hbefore h

theorem overflows_leaf_iff (hitems : v.items? = none) (hentries : v.entries? = none) :
    Overflows encode depth v f ↔ depth ≤ depthLimit ∧ v.TooLarge f := by
  constructor
  · intro h
    cases h with
    | here hdepth h => exact ⟨hdepth, h⟩
    | item _ hitems' => cases hitems.symm.trans hitems'
    | entry _ hentries' => cases hentries.symm.trans hentries'
  · exact fun ⟨hdepth, h⟩ => .here hdepth h

/-- An encoder is brought down exactly where it meets a number that is too large. -/
theorem Encoder.eq_fault_iff (h : Encoder encode) :
    encode v depth = .error (.fault f) ↔ Overflows encode depth v f := by
  induction v using Value.induction generalizing depth with
  | step v ih =>
  obtain ⟨items, hitems⟩ | ⟨entries, hentries⟩ | ⟨t, rfl⟩ | ⟨hitems, hentries, hmoment⟩ := kinds v
  · obtain ⟨finish, heq⟩ := h.array hitems depth
    rw [heq, checkDepth_bind_eq_fault, map_eq_error_iff, mapM_eq_error_iff,
      overflows_array_iff hitems]
    refine and_congr_right fun _ => exists_congr fun before => exists_congr fun w =>
      exists_congr fun after => and_congr_right fun hsplit => and_congr_right fun _ => ?_
    have hw : w ∈ items := by
      rw [hsplit]
      exact List.mem_append_right _ List.mem_cons_self
    exact ih w (.single (isPart_of_items hitems hw))
  · obtain ⟨finish, heq⟩ := h.object hentries depth
    rw [heq, checkDepth_bind_eq_fault, map_eq_error_iff, mapM_eq_error_iff,
      overflows_object_iff hentries]
    simp only [encodeEntry_eq_ok_iff, encodeEntry_eq_fault_iff]
    refine and_congr_right fun _ => exists_congr fun before => exists_congr fun e =>
      exists_congr fun after => and_congr_right fun hsplit => and_congr_right fun _ =>
        exists_congr fun s => and_congr_right fun _ => ?_
    have he : e ∈ entries := by
      rw [hsplit]
      exact List.mem_append_right _ List.mem_cons_self
    exact ih e.2 (.single (isPart_of_entries hentries he))
  · obtain ⟨finish, heq⟩ := h.moment t depth
    rw [heq, checkDepth_bind_eq_fault, map_eq_error_iff, overflows_leaf_iff rfl rfl]
    refine and_congr_right fun _ => iff_of_false (fun ht => ?_) fun hlarge => by cases hlarge
    obtain ⟨e, he, -⟩ := timeEntriesAt_error ht
    cases he
  · obtain ⟨finish, heq⟩ := h.leaf hitems hentries hmoment depth
    rw [heq, checkDepth_bind_eq_fault, bind_eq_error_iff, overflows_leaf_iff hitems hentries,
      scalar?_eq_fault_iff]
    refine and_congr_right fun _ => or_iff_left ?_
    rintro ⟨d, -, h⟩
    cases d <;> cases h

end Kinds

/-- A list with the least integer that is too large. -/
def overflowing : Value := .list [.null, .int Double.bound]

theorem overflows_overflowing {α : Type} {encode : Value → Int → Except Failure α}
    (h : ∃ y, encode .null 1 = .ok y) : Overflows encode 0 overflowing .integerTooLarge := by
  have hitems : overflowing.items? = some ([.null] ++ .int Double.bound :: []) := rfl
  refine .item (by decide) hitems (List.forall_mem_singleton.2 h) ?_
  exact .here (by decide) (.integer (Int.natAbs_natCast _).ge)

end Value

end QueryDriver
