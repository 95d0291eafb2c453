import QueryDriver.Codec.Unmarshal
import QueryDriver.Proofs.Codec.Outcome

/-!
# What the decoders fail for

Whatever stands in a datum or in a term, reading it ends with a value or with an error of the
codec, except in one place: an object that is marked as a time may name a zone that is no text, or
one that lies a day or more away, and either brings the decoder down. `Strays` says where the
decoder meets such a zone first, with everything before it read.

The depth at which anything may lie is bounded, so the inductions are on the depth that is left.
-/

namespace QueryDriver

open Wire

namespace Value

/-! ### Time objects -/

/-- What a time object names as its zone although there is no such zone. -/
inductive StrayZone : Value → Fault → Prop where
  | notText {v : Value} (htruthy : v.truthy = true) (htext : v.text? = none) :
      StrayZone v (.zoneNotText v.qualifiedTypeName)
  | beyond {s : String} {east : Duration} (hread : Zone.readOffset? s.toList = some east)
      (hfar : 86400000000 ≤ east.micros.natAbs) : StrayZone (.text s) (.offsetOutOfRange east)

/-- A value that is no sequence of bytes, as nothing is that was read. -/
def isBytes : Value → Bool
  | .bytes _ => true
  | _ => false

theorem parse_eq_fault_iff {s : String} {f : Fault} :
    Zone.parse s = .error (.fault f) ↔ StrayZone (.text s) f := by
  unfold Zone.parse
  split
  next hutc =>
    refine iff_of_false nofun fun h => ?_
    cases h with
    | notText _ htext => cases htext
    | beyond hread => obtain rfl | rfl := hutc <;> cases hread
  next =>
    constructor
    · intro h
      split at h
      · cases h
      · rename_i east hread
        unfold Zone.check Zone.inBounds at h
        split at h <;> cases h
        rename_i hbound
        exact .beyond hread (by simpa using hbound)
    · intro h
      cases h with
      | notText _ htext => cases htext
      | @beyond _ east hread hfar =>
          have hbound : Zone.inBounds east = false := by simpa [Zone.inBounds] using hfar
          rw [hread]
          simp [Zone.check, hbound]

theorem parse_default : Zone.parse "+00:00" = .ok ⟨0⟩ := rfl

theorem coded_parse (s : String) : Coded (Zone.parse s) := by
  unfold Zone.parse
  split
  · exact coded_ok _
  · split
    · exact coded_cause rfl
    · unfold Zone.check
      split
      · exact coded_ok _
      · exact coded_fault _

variable {entries : List (Value × Value)} {f : Fault}

theorem coded_zoneOf (entries : List (Value × Value)) : Coded (zoneOf entries) := by
  unfold zoneOf
  split
  · exact coded_parse _
  · split
    · unfold Zone.ofValue
      split
      · exact coded_parse _
      · exact coded_fault _
      · exact coded_fault _
    · exact coded_parse _

/-- The zone of a time object brings the decoder down when it strays. -/
theorem zoneOf_eq_fault_iff
    (hbytes : ∀ v, lookup entries "timezone" = some v → v.isBytes = false) :
    zoneOf entries = .error (.fault f) ↔
      ∃ v, lookup entries "timezone" = some v ∧ StrayZone v f := by
  unfold zoneOf
  cases hzone : lookup entries "timezone" with
  | none => simp [parse_default]
  | some v =>
      replace hbytes := hbytes v hzone
      simp only [Option.some.injEq, exists_eq_left']
      split
      next htruthy =>
        cases v with
        | text s => exact parse_eq_fault_iff
        | bytes b => cases hbytes
        | _ =>
            constructor
            · intro h
              cases h
              exact .notText htruthy rfl
            · intro h
              cases h
              rfl
      next hfalsy =>
        rw [parse_default]
        refine iff_of_false nofun fun h => ?_
        cases h with
        | notText htruthy => exact hfalsy htruthy
        | @beyond s _ hread =>
            have hempty : s = "" := by simpa [truthy] using hfalsy
            subst hempty
            cases hread

/-- An object that is marked as a time, with a number of seconds and a zone that strays. -/
structure StrayTime (entries : List (Value × Value)) (f : Fault) : Prop where
  marked : isTime entries = true
  epoch : (∃ x, lookup entries "epoch_time" = some (.double x)) ∨
    ∃ b, lookup entries "epoch_time" = some (.bool b)
  zone : ∃ v, lookup entries "timezone" = some v ∧ StrayZone v f

theorem coded_momentAt (x : Double) (shown : String) (east : Duration) :
    Coded (momentAt x shown east) := by
  unfold momentAt
  dsimp only
  split
  · exact coded_ok _
  · exact coded_cause rfl

theorem momentAt_ne_fault {x : Double} {shown : String} {east : Duration} :
    momentAt x shown east ≠ .error (.fault f) := by
  unfold momentAt
  dsimp only
  split <;> exact nofun

theorem coded_timeOf (entries : List (Value × Value)) : Coded (timeOf entries) := by
  unfold timeOf
  split
  · exact (coded_zoneOf _).bind fun _ => coded_momentAt _ _ _
  · exact (coded_zoneOf _).bind fun _ => coded_momentAt _ _ _
  · exact coded_cause rfl

theorem timeOf_eq_fault_iff
    (hbytes : ∀ v, lookup entries "timezone" = some v → v.isBytes = false)
    (hmarked : isTime entries = true) :
    timeOf entries = .error (.fault f) ↔ StrayTime entries f := by
  have hstray : StrayTime entries f ↔ ((∃ x, lookup entries "epoch_time" = some (.double x)) ∨
      ∃ b, lookup entries "epoch_time" = some (.bool b)) ∧ zoneOf entries = .error (.fault f) := by
    rw [zoneOf_eq_fault_iff hbytes]
    exact ⟨fun h => ⟨h.epoch, h.zone⟩, fun h => ⟨hmarked, h.1, h.2⟩⟩
  rw [hstray]
  unfold timeOf
  split
  next x hx => simp [bind_eq_error_iff, momentAt_ne_fault, hx]
  next b hb => simp [bind_eq_error_iff, momentAt_ne_fault, hb]
  next hdouble hbool =>
    refine iff_of_false nofun ?_
    rintro ⟨⟨x, hx⟩ | ⟨b, hb⟩, -⟩
    · exact hdouble x hx
    · exact hbool b hb

/-! ### Objects -/

/-- The dictionary of an object, before it is looked at for the mark of times. -/
def objectEntries (values : List (String × Value)) : List (Value × Value) :=
  mergeEntries (values.map fun e => (.text e.1, e.2))

theorem forall_mem_insertKey {P : Value → Prop} {k v : Value} (hv : P v)
    (h : ∀ e ∈ entries, P e.2) : ∀ e ∈ insertKey entries k v, P e.2 := by
  induction entries with
  | nil => exact List.forall_mem_singleton.2 hv
  | cons e es ih =>
      obtain ⟨he, hes⟩ := List.forall_mem_cons.1 h
      unfold insertKey
      split
      · exact List.forall_mem_cons.2 ⟨hv, hes⟩
      · exact List.forall_mem_cons.2 ⟨he, ih hes⟩

theorem forall_mem_mergeEntries {P : Value → Prop} (h : ∀ e ∈ entries, P e.2) :
    ∀ e ∈ mergeEntries entries, P e.2 := by
  have hfold (found : List (Value × Value)) (hfound : ∀ e ∈ found, P e.2) :
      ∀ e ∈ entries.foldl (fun found e => insertKey found e.1 e.2) found, P e.2 := by
    induction entries generalizing found with
    | nil => exact hfound
    | cons e es ih =>
        obtain ⟨he, hes⟩ := List.forall_mem_cons.1 h
        exact ih hes _ (forall_mem_insertKey he hfound)
  exact hfold [] (List.forall_mem_nil _)

theorem lookup_objectEntries {P : Value → Prop} {values : List (String × Value)}
    (h : ∀ e ∈ values, P e.2) {key : String} {v : Value}
    (hv : lookup (objectEntries values) key = some v) : P v := by
  obtain ⟨e, he, rfl⟩ := Option.map_eq_some_iff.1 hv
  exact forall_mem_mergeEntries (List.forall_mem_map.2 h) e (List.mem_of_find?_eq_some he)

variable {format : TimeFormat} {values : List (String × Value)}

theorem coded_ofObject (format : TimeFormat) (values : List (String × Value)) :
    Coded (ofObject format values) := by
  unfold ofObject
  dsimp only
  split
  · exact coded_timeOf _
  · exact coded_ok _

theorem ofObject_eq_fault_iff (hbytes : ∀ e ∈ values, e.2.isBytes = false) :
    ofObject format values = .error (.fault f) ↔
      format = .native ∧ StrayTime (objectEntries values) f := by
  have hzone (v : Value) (hv : lookup (objectEntries values) "timezone" = some v) :
      v.isBytes = false :=
    lookup_objectEntries (P := fun v => v.isBytes = false) hbytes hv
  unfold ofObject
  dsimp only
  split
  next htime =>
    rw [and_iff_right htime.1]
    exact timeOf_eq_fault_iff hzone htime.2
  next htime => exact iff_of_false nofun fun h => htime ⟨h.1, h.2.marked⟩

theorem isBytes_of_ofObject {v : Value} (h : ofObject format values = .ok v) :
    v.isBytes = false := by
  have hmoment {x : Double} {shown : String} {east : Duration}
      (h : momentAt x shown east = .ok v) : v.isBytes = false := by
    unfold momentAt at h
    dsimp only at h
    split at h <;> cases h
    rfl
  unfold ofObject at h
  dsimp only at h
  split at h
  · unfold timeOf at h
    split at h
    · obtain ⟨east, -, h⟩ := bind_ok h
      exact hmoment h
    · obtain ⟨east, -, h⟩ := bind_ok h
      exact hmoment h
    · cases h
  · cases h
    rfl

section Entries

variable {α : Type} {decode : α → Except Failure Value}

/-- An entry as it is read. -/
def decodeEntry (decode : α → Except Failure Value) (e : Option String × α) :
    Except Failure (String × Value) :=
  (decode e.2).map (e.1.getD "", ·)

theorem coded_decodeEntries {fields : List (Option String × α)}
    (h : ∀ e ∈ fields, Coded (decode e.2)) :
    Coded (fields.mapM (decodeEntry decode) >>= ofObject format) :=
  (coded_mapM fun e he => (h e he).map _).bind fun values => coded_ofObject format values

/-- Reading an object fails in an entry, or in what the entries together stand for. -/
theorem decodeEntries_eq_fault_iff {fields : List (Option String × α)}
    (hbytes : ∀ x v, decode x = .ok v → v.isBytes = false) :
    fields.mapM (decodeEntry decode) >>= ofObject format = .error (.fault f) ↔
      (∃ before e after, fields = before ++ e :: after ∧
        (∀ x ∈ before, ∃ v, decode x.2 = .ok v) ∧ decode e.2 = .error (.fault f)) ∨
      ∃ values, fields.mapM (decodeEntry decode) = .ok values ∧ format = .native ∧
        StrayTime (objectEntries values) f := by
  have hentry (e : Option String × α) :
      (∃ z, decodeEntry decode e = .ok z) ↔ ∃ v, decode e.2 = .ok v := by
    simp only [decodeEntry, map_eq_ok_iff]
    exact ⟨fun ⟨_, v, hv, _⟩ => ⟨v, hv⟩, fun ⟨v, hv⟩ => ⟨_, v, hv, rfl⟩⟩
  rw [bind_eq_error_iff, mapM_eq_error_iff]
  simp only [hentry]
  refine or_congr ?_ (exists_congr fun values => and_congr_right fun hvalues => ?_)
  · simp only [decodeEntry, map_eq_error_iff]
  · refine ofObject_eq_fault_iff fun e he => ?_
    obtain ⟨x, -, hx⟩ := exists_of_mapM_ok hvalues e he
    obtain ⟨v, hv, rfl⟩ := map_ok hx
    exact hbytes _ _ hv

end Entries

end Value

/-! ### Messages -/

/-- What holds at a depth if it holds one level deeper, as long as there is one, holds at every
depth. -/
theorem depth_induction {P : Int → Prop}
    (h : ∀ depth, (depth ≤ depthLimit → P (depth + 1)) → P depth) (depth : Int) : P depth := by
  generalize hn : (depthLimit + 1 - depth).toNat = n
  induction n generalizing depth with
  | zero => exact h depth fun hroom => absurd hroom (by omega)
  | succ n ih => exact h depth fun _ => ih _ (by omega)

/-- What there is to be read at some place: something plain, an array or an object. -/
inductive Passage (α : Type) where
  | plain (value : Except Failure Value)
  | array (items : List α)
  | object (entries : List (Option String × α))

section Decoder

variable {α : Type}

/-- The value of a place, when its parts are read by `decode`. -/
def Passage.read (format : TimeFormat) (decode : α → Except Failure Value) :
    Passage α → Except Failure Value
  | plain value => value
  | array items => (items.mapM decode).map .list
  | object entries => entries.mapM (Value.decodeEntry decode) >>= Value.ofObject format

variable {format : TimeFormat} {decode : Int → α → Except Failure Value}
  {view : Int → α → Passage α} {stray : Int → α → Fault → Prop} {depth : Int} {x : α} {f : Fault}

/-- A way of reading the places of messages. What is plain is brought down where it is stray. -/
structure Decoder (format : TimeFormat) (decode : Int → α → Except Failure Value)
    (view : Int → α → Passage α) (stray : Int → α → Fault → Prop) : Prop where
  eq : ∀ depth x, decode depth x =
    (checkDepth depth >>= fun _ => (view depth x).read format (decode (depth + 1)))
  coded : ∀ {depth x value}, view depth x = .plain value → Coded value
  isBytes : ∀ {depth x v}, view depth x = .plain (.ok v) → v.isBytes = false
  fault_iff : ∀ {depth x value f}, view depth x = .plain value →
    (value = .error (.fault f) ↔ stray depth x f)

/-- The first thing at a place that cannot be read is a zone that strays. Everything before it
has been read. -/
inductive Strays (format : TimeFormat) (decode : Int → α → Except Failure Value)
    (view : Int → α → Passage α) (stray : Int → α → Fault → Prop) : Int → α → Fault → Prop
  | plain {depth : Int} {x : α} {value : Except Failure Value} {f : Fault}
      (hroom : depth ≤ depthLimit) (hview : view depth x = .plain value)
      (h : stray depth x f) : Strays format decode view stray depth x f
  | item {depth : Int} {x y : α} {before after : List α} {f : Fault}
      (hroom : depth ≤ depthLimit) (hview : view depth x = .array (before ++ y :: after))
      (hbefore : ∀ z ∈ before, ∃ v, decode (depth + 1) z = .ok v)
      (h : Strays format decode view stray (depth + 1) y f) :
    Strays format decode view stray depth x f
  | entry {depth : Int} {x : α} {before after : List (Option String × α)}
      {e : Option String × α} {f : Fault}
      (hroom : depth ≤ depthLimit) (hview : view depth x = .object (before ++ e :: after))
      (hbefore : ∀ z ∈ before, ∃ v, decode (depth + 1) z.2 = .ok v)
      (h : Strays format decode view stray (depth + 1) e.2 f) :
    Strays format decode view stray depth x f
  | time {depth : Int} {x : α} {entries : List (Option String × α)}
      {values : List (String × Value)} {f : Fault}
      (hroom : depth ≤ depthLimit) (hview : view depth x = .object entries)
      (hvalues : entries.mapM (Value.decodeEntry (decode (depth + 1))) = .ok values)
      (hnative : format = .native) (h : Value.StrayTime (Value.objectEntries values) f) :
    Strays format decode view stray depth x f

/-- Raw times are read as objects, so that no zone can stray. -/
theorem Strays.isNative (hstray : ∀ {depth x f}, stray depth x f → format = .native)
    (h : Strays format decode view stray depth x f) : format = .native := by
  induction h with
  | plain _ _ h => exact hstray h
  | item _ _ _ _ ih => exact ih
  | entry _ _ _ _ ih => exact ih
  | time _ _ _ hnative _ => exact hnative

namespace Decoder

variable (h : Decoder format decode view stray)

include h

theorem coded_at (depth : Int) (x : α) : Coded (decode depth x) := by
  induction depth using depth_induction generalizing x with
  | h depth ih =>
  rw [h.eq]
  by_cases hroom : depth ≤ depthLimit
  · refine (coded_checkDepth depth).bind fun _ => ?_
    cases hview : view depth x with
    | plain value => exact h.coded hview
    | array items => exact (coded_mapM fun y _ => ih hroom y).map _
    | object entries => exact Value.coded_decodeEntries fun e _ => ih hroom e.2
  · rw [checkDepth, if_pos (by omega)]
    exact coded_cause rfl

theorem isBytes_at {v : Value} (hv : decode depth x = .ok v) : v.isBytes = false := by
  rw [h.eq, checkDepth_bind_eq_ok] at hv
  obtain ⟨-, hv⟩ := hv
  cases hview : view depth x with
  | plain value =>
      rw [hview] at hv
      cases (show value = .ok v from hv)
      exact h.isBytes hview
  | array items =>
      rw [hview] at hv
      obtain ⟨vs, -, rfl⟩ := map_ok hv
      rfl
  | object entries =>
      rw [hview] at hv
      obtain ⟨values, -, hv⟩ := bind_ok hv
      exact Value.isBytes_of_ofObject hv

/-- A decoder is brought down exactly where it meets a zone that strays. -/
theorem eq_fault_iff (depth : Int) (x : α) :
    decode depth x = .error (.fault f) ↔ Strays format decode view stray depth x f := by
  induction depth using depth_induction generalizing x with
  | h depth ih =>
  rw [h.eq, checkDepth_bind_eq_fault]
  constructor
  · rintro ⟨hroom, hfault⟩
    cases hview : view depth x with
    | plain value =>
        rw [hview] at hfault
        exact .plain hroom hview ((h.fault_iff hview).1 hfault)
    | array items =>
        rw [hview, Passage.read, map_eq_error_iff, mapM_eq_error_iff] at hfault
        obtain ⟨before, y, after, rfl, hbefore, hy⟩ := hfault
        exact .item hroom hview hbefore ((ih hroom y).1 hy)
    | object entries =>
        rw [hview, Passage.read,
          Value.decodeEntries_eq_fault_iff fun _ _ => h.isBytes_at] at hfault
        obtain ⟨before, e, after, rfl, hbefore, he⟩ | ⟨values, hvalues, hnative, htime⟩ := hfault
        · exact .entry hroom hview hbefore ((ih hroom e.2).1 he)
        · exact .time hroom hview hvalues hnative htime
  · intro hstrays
    cases hstrays with
    | plain hroom hview hstray =>
        rw [hview]
        exact ⟨hroom, (h.fault_iff hview).2 hstray⟩
    | item hroom hview hbefore hy =>
        rw [hview, Passage.read, map_eq_error_iff, mapM_eq_error_iff]
        exact ⟨hroom, _, _, _, rfl, hbefore, (ih hroom _).2 hy⟩
    | entry hroom hview hbefore he =>
        rw [hview, Passage.read, Value.decodeEntries_eq_fault_iff fun _ _ => h.isBytes_at]
        exact ⟨hroom, .inl ⟨_, _, _, rfl, hbefore, (ih hroom _).2 he⟩⟩
    | time hroom hview hvalues hnative htime =>
        rw [hview, Passage.read, Value.decodeEntries_eq_fault_iff fun _ _ => h.isBytes_at]
        exact ⟨hroom, .inr ⟨_, hvalues, hnative, htime⟩⟩

end Decoder

end Decoder

namespace Wire

variable {format : TimeFormat} {depth : Int}

/-! ### Datums -/

namespace Datum

theorem unmarshalItems_eq_mapM (items : List Datum) :
    unmarshalItems format depth items =
      (items.map some).mapM (unmarshalValue format depth) := by
  induction items with
  | nil => rfl
  | cons d ds ih => rw [unmarshalItems, List.map_cons, List.mapM_cons, ← ih, unmarshalValue]

theorem unmarshalEntries_eq_mapM (entries : List (Option String × Option Datum)) :
    unmarshalEntries format depth entries =
      entries.mapM (Value.decodeEntry (unmarshalValue format depth)) := by
  induction entries with
  | nil => rfl
  | cons e es ih =>
      obtain ⟨key, value⟩ := e
      rw [unmarshalEntries, List.mapM_cons, ih, Value.decodeEntry]
      cases unmarshalValue format depth value <;> rfl

/-- What there is to be read in a datum. An absent one has no tag. -/
def view (d : Option Datum) : Passage (Option Datum) :=
  let d := d.getD empty
  match DatumType.ofCode? d.kind with
  | some .null => .plain (.ok .null)
  | some .bool => .plain (.ok (.bool (d.flag.getD false)))
  | some .number => .plain (.ok (.double (d.number.getD Double.zero)))
  | some .text => .plain (.ok (.text (d.text.getD "")))
  | some .array => .array (d.items.map some)
  | some .object => .object d.entries
  | none => .plain (.error (.ofCause (.unknownDatum d.kind.toInt)))

theorem unmarshalValue_eq (depth : Int) (d : Option Datum) :
    unmarshalValue format depth d =
      (checkDepth depth >>= fun _ => (view d).read format (unmarshalValue format (depth + 1))) := by
  cases d with
  | none => rfl
  | some d =>
      obtain ⟨tag, flag, number, text, items, entries⟩ := d
      rw [unmarshalValue, unmarshal, unmarshalItems_eq_mapM, unmarshalEntries_eq_mapM, view]
      refine congrArg _ (funext fun _ => ?_)
      simp only [Option.getD_some, kind]
      cases DatumType.ofCode? (tag.getD 0) with
      | none => rfl
      | some type =>
          cases type with
          | array =>
              simp only [Passage.read]
              cases (items.map some).mapM (unmarshalValue format (depth + 1)) <;> rfl
          | _ => rfl

/-- Nothing that is plain in a datum brings the decoder down. -/
theorem decoder (format : TimeFormat) :
    Decoder format (unmarshalValue format) (fun _ => view) fun _ _ _ => False where
  eq := unmarshalValue_eq
  coded h := by
    unfold view at h
    dsimp only at h
    split at h <;> cases h
    any_goals exact coded_ok _
    exact coded_cause rfl
  isBytes h := by
    unfold view at h
    dsimp only at h
    split at h <;> cases h <;> rfl
  fault_iff h := by
    refine iff_false_intro fun hvalue => ?_
    unfold view at h
    dsimp only at h
    split at h <;> cases h <;> cases hvalue

/-- The first thing in the datum that cannot be read is a zone that strays. -/
def Strays (format : TimeFormat) (depth : Int) (d : Datum) (f : Fault) : Prop :=
  QueryDriver.Strays format (unmarshalValue format) (fun _ => view) (fun _ _ _ => False) depth
    (some d) f

variable {d : Datum} {f : Fault}

theorem Strays.isNative (h : d.Strays format depth f) : format = .native :=
  QueryDriver.Strays.isNative False.elim h

/-- A datum brings the decoder down exactly where a zone in it strays. -/
theorem unmarshal_eq_fault_iff :
    d.unmarshal format depth = .error (.fault f) ↔ d.Strays format depth f :=
  (decoder format).eq_fault_iff depth (some d)

theorem unmarshal_error {e : Failure} (h : d.unmarshal format depth = .error e) :
    e.IsUnmarshalable ∨ ∃ f, e = .fault f ∧ format = .native ∧ d.Strays format depth f := by
  obtain hcodec | ⟨f, rfl⟩ := (decoder format).coded_at depth (some d) e h
  · exact .inl hcodec
  · have hstrays := unmarshal_eq_fault_iff.1 h
    exact .inr ⟨f, rfl, hstrays.isNative, hstrays⟩

end Datum

/-! ### Terms -/

namespace Term

theorem unmarshalArgs_eq_mapM (args : List Term) :
    unmarshalArgs format depth args = (args.map some).mapM (unmarshalValue format depth) := by
  induction args with
  | nil => rfl
  | cons t ts ih => rw [unmarshalArgs, List.map_cons, List.mapM_cons, ← ih, unmarshalValue]

theorem unmarshalOptions_eq_mapM (options : List (Option String × Option Term)) :
    unmarshalOptions format depth options =
      options.mapM (Value.decodeEntry (unmarshalValue format depth)) := by
  induction options with
  | nil => rfl
  | cons e es ih =>
      obtain ⟨key, value⟩ := e
      rw [unmarshalOptions, List.mapM_cons, ih, Value.decodeEntry]
      cases unmarshalValue format depth value <;> rfl

/-- What there is to be read in a term. The datum of a term is read as a whole. -/
def view (format : TimeFormat) (depth : Int) (t : Option Term) : Passage (Option Term) :=
  let t := t.getD empty
  if t.kind = TermType.datum.code then .plain (Datum.unmarshalValue format depth t.datum)
  else if t.kind = TermType.makeArray.code then .array (t.args.map some)
  else if t.kind = TermType.makeObject.code then .object t.options
  else .plain (.error (.ofCause (.notAValue t.kind.toInt)))

theorem unmarshalValue_eq (depth : Int) (t : Option Term) :
    unmarshalValue format depth t = (checkDepth depth >>= fun _ =>
      (view format depth t).read format (unmarshalValue format (depth + 1))) := by
  cases t with
  | none => rfl
  | some t =>
      obtain ⟨tag, datum, args, options⟩ := t
      rw [unmarshalValue, unmarshal, unmarshalArgs_eq_mapM, unmarshalOptions_eq_mapM]
      refine congrArg _ (funext fun _ => ?_)
      have hview : view format depth (some ⟨tag, datum, args, options⟩) =
          if tag.getD 0 = TermType.datum.code then
            .plain (Datum.unmarshalValue format depth datum)
          else if tag.getD 0 = TermType.makeArray.code then .array (args.map some)
          else if tag.getD 0 = TermType.makeObject.code then .object options
          else .plain (.error (.ofCause (.notAValue (tag.getD 0).toInt))) := rfl
      rw [hview]
      dsimp only
      by_cases hdatum : tag.getD 0 = TermType.datum.code
      · rw [if_pos hdatum, if_pos hdatum, Passage.read]
      rw [if_neg hdatum, if_neg hdatum]
      by_cases harray : tag.getD 0 = TermType.makeArray.code
      · rw [if_pos harray, if_pos harray, Passage.read]
        cases (args.map some).mapM (unmarshalValue format (depth + 1)) <;> rfl
      rw [if_neg harray, if_neg harray]
      by_cases hobject : tag.getD 0 = TermType.makeObject.code
      · rw [if_pos hobject, if_pos hobject, Passage.read]
      · rw [if_neg hobject, if_neg hobject]
        rfl

/-- The term holds a datum in which a zone strays. -/
def StrayDatum (format : TimeFormat) (depth : Int) (t : Option Term) (f : Fault) : Prop :=
  ∃ s d, t = some s ∧ s.kind = TermType.datum.code ∧ s.datum = some d ∧ d.Strays format depth f

/-- What is plain in a term is a datum, or the term stands for no value. -/
theorem view_eq_plain {t : Option Term} {value : Except Failure Value}
    (h : view format depth t = .plain value) :
    (∃ s, t = some s ∧ s.kind = TermType.datum.code ∧
      value = Datum.unmarshalValue format depth s.datum) ∨
    (∀ s, t = some s → s.kind ≠ TermType.datum.code) ∧
      ∃ code, value = .error (.ofCause (.notAValue code)) := by
  cases t with
  | none =>
      cases h
      exact .inr ⟨nofun, _, rfl⟩
  | some s =>
      unfold view at h
      simp only [Option.getD_some] at h
      split_ifs at h with hdatum
      · cases h
        exact .inl ⟨s, rfl, hdatum, rfl⟩
      · cases h
        exact .inr ⟨fun s' hs => Option.some.inj hs ▸ hdatum, _, rfl⟩

theorem decoder (format : TimeFormat) :
    Decoder format (unmarshalValue format) (view format) (StrayDatum format) where
  eq := unmarshalValue_eq
  coded h := by
    obtain ⟨s, -, -, rfl⟩ | ⟨-, code, rfl⟩ := view_eq_plain h
    · exact (Datum.decoder format).coded_at _ _
    · exact coded_cause rfl
  isBytes h := by
    obtain ⟨s, -, -, h⟩ | ⟨-, code, h⟩ := view_eq_plain h
    · exact (Datum.decoder format).isBytes_at h.symm
    · cases h
  fault_iff h := by
    obtain ⟨s, rfl, hkind, rfl⟩ | ⟨hkind, code, rfl⟩ := view_eq_plain h
    · rw [(Datum.decoder format).eq_fault_iff]
      constructor
      · intro hstrays
        cases hdatum : s.datum with
        | none =>
            rw [hdatum] at hstrays
            cases hstrays with
            | plain _ _ h => cases h
            | item _ hview => cases hview
            | entry _ hview => cases hview
            | time _ hview => cases hview
        | some d =>
            rw [hdatum] at hstrays
            exact ⟨s, d, rfl, hkind, hdatum, hstrays⟩
      · rintro ⟨s', d, hs, -, hdatum, hd⟩
        cases hs
        rw [hdatum]
        exact hd
    · refine iff_of_false nofun ?_
      rintro ⟨s, -, hs, hs', -⟩
      exact hkind s hs hs'

/-- The first thing in the term that cannot be read is a zone that strays. -/
def Strays (format : TimeFormat) (depth : Int) (t : Term) (f : Fault) : Prop :=
  QueryDriver.Strays format (unmarshalValue format) (view format) (StrayDatum format) depth
    (some t) f

variable {t : Term} {f : Fault}

theorem Strays.isNative (h : t.Strays format depth f) : format = .native :=
  QueryDriver.Strays.isNative (fun ⟨_, _, _, _, _, hdatum⟩ => hdatum.isNative) h

/-- A term brings the decoder down exactly where a zone in it strays. -/
theorem unmarshal_eq_fault_iff :
    t.unmarshal format depth = .error (.fault f) ↔ t.Strays format depth f :=
  (decoder format).eq_fault_iff depth (some t)

theorem unmarshal_error {e : Failure} (h : t.unmarshal format depth = .error e) :
    e.IsUnmarshalable ∨ ∃ f, e = .fault f ∧ format = .native ∧ t.Strays format depth f := by
  obtain hcodec | ⟨f, rfl⟩ := (decoder format).coded_at depth (some t) e h
  · exact .inl hcodec
  · have hstrays := unmarshal_eq_fault_iff.1 h
    exact .inr ⟨f, rfl, hstrays.isNative, hstrays⟩

end Term

end Wire

end QueryDriver
