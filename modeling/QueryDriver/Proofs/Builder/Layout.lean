import Mathlib.Data.List.Forall2
import Mathlib.Data.List.Induction
import QueryDriver.Builder
import QueryDriver.Proofs.Effect

/-!
# How builders lay out the arguments of a node

The compiler reads the arguments of a node by position: an operation may need a receiver in
front, its last argument may be sent as an option, the number of arguments may tell whether
a database was left out, and a setting has exactly two. `Operator.Fits` says that the
arguments of a node are laid out as the compiler reads them.

Which builder lays out what is a matter of its row in the catalog alone. `Row.fits` checks
a row, `Row.fits_apply` is what the check is good for, and the catalog passes it.
-/

namespace QueryDriver

/-! ### What the compiler relies on -/

/-- A value that counts the parameters of a function. -/
def Value.IsInteger (v : Value) : Prop := (∃ n, v = .int n) ∨ ∃ b, v = .bool b

/-- The settings that are on or off. -/
def Setting.isSwitch : Setting → Bool
  | .useOutdated | .atomic | .upsert | .returnValues => true
  | .durability | .leftBound | .rightBound | .timeFormat => false

/-- What the builders set an option to: a switch to a Boolean, the others to a text. -/
def Setting.Admits (s : Setting) (v : Value) : Prop :=
  if s.isSwitch then ∃ b, v = .bool b else ∃ t, v = .text t

theorem Setting.Admits.bool_or_text {s : Setting} {v : Value} (h : s.Admits v) :
    (∃ b, v = .bool b) ∨ ∃ t, v = .text t := by
  unfold Setting.Admits at h
  split at h
  · exact .inl h
  · exact .inr h

/-- How many arguments stand in front of the one that is sent as an option; for all keys of a
table, how many at least. -/
def Verb.leading : Verb → Nat
  | .javascript => 1
  | .reduce | .getAll => 2
  | .eqJoin | .between => 3
  | .groupedMapReduce => 4
  | _ => 0

/-- The arguments of an operation are laid out as the compiler reads them. -/
structure Verb.Fits (v : Verb) (args : List Value) : Prop where
  ne_var : v ≠ .var
  receiver : v.needsTable = true → ∃ receiver rest, args = receiver :: rest ∧ receiver.isExpr = true
  trailing : v.trailing?.isSome = true → ∃ front last, args = front ++ [last] ∧
    (front.length = v.leading ∨ v = .getAll ∧ v.leading ≤ front.length)
  database (count : Nat) : v.afterDatabase? = some count →
    args.length = count ∨ args.length = count + 1
  spec : v = .tableCreate → ∃ front name p d c durability,
    args = front ++ [.tableSpec name p d c durability]

/-- The arguments of a node are laid out as the compiler reads them. -/
def Operator.Fits : Operator → List Value → Prop
  | .literal, args => ∃ v, args = [v]
  | .func, args => ∃ body hint, args = [body, hint] ∧ hint.IsInteger
  | .setting s, args => ∃ inner value, args = [inner, value] ∧ inner.isExpr = true ∧ s.Admits value
  | .verb v, args => v.Fits args

/-! ### Arguments that are matched with parameters -/

/-- What a call without an argument at its position gives a parameter. -/
def Parameter.valueIn (p : Parameter) (keywords : List (String × Value)) : Option Value :=
  ((keywords.find? fun k => k.1 == p.name).map (·.2)).or p.default

theorem fill_cons {p : Parameter} {ps : List Parameter} {positional values : List Value}
    {keywords : List (String × Value)} (h : fill (p :: ps) positional keywords = .ok values) :
    ∃ v vs, values = v :: vs ∧ (positional[0]?).or (p.valueIn keywords) = some v ∧
      fill ps positional.tail keywords = .ok vs := by
  cases positional with
  | cons v vs =>
      rw [fill] at h
      cases hrest : fill ps vs keywords <;> rw [hrest] at h <;> cases h
      exact ⟨v, _, rfl, rfl, hrest⟩
  | nil =>
      unfold fill at h
      unfold Parameter.valueIn
      split at h
      case h_1 v hkeyword =>
        cases hrest : fill ps [] keywords <;> rw [hrest] at h <;> cases h
        exact ⟨v, _, rfl, by rw [hkeyword]; rfl, hrest⟩
      case h_2 v hkeyword hdefault =>
        cases hrest : fill ps [] keywords <;> rw [hrest] at h <;> cases h
        exact ⟨v, _, rfl, by rw [hkeyword, hdefault]; rfl, hrest⟩
      case h_3 => split at h <;> cases h

theorem length_fill {params : List Parameter} {positional values : List Value}
    {keywords : List (String × Value)} (h : fill params positional keywords = .ok values) :
    values.length = params.length := by
  induction params generalizing positional values with
  | nil =>
      rw [fill] at h
      cases h
      rfl
  | cons p ps ih =>
      obtain ⟨v, vs, rfl, -, hrest⟩ := fill_cons h
      simp [ih hrest]

/-- The last parameter has the argument at its position, or else the one under its name, or
else its default. -/
theorem getLast?_fill {params : List Parameter} {p : Parameter} {positional values : List Value}
    {keywords : List (String × Value)}
    (h : fill (params ++ [p]) positional keywords = .ok values) :
    values.getLast? = (positional[params.length]?).or (p.valueIn keywords) := by
  induction params generalizing positional values with
  | nil =>
      obtain ⟨v, vs, rfl, hv, hrest⟩ := fill_cons h
      cases hrest
      rw [List.length_nil, hv]
      rfl
  | cons q params ih =>
      obtain ⟨v, vs, rfl, -, hrest⟩ := fill_cons h
      have hne : vs ≠ [] := by
        have hlength := length_fill hrest
        rintro rfl
        simp at hlength
      rw [List.getLast?_cons_of_ne_nil hne, ih hrest]
      simp

theorem bind_fill {callee : String} {receiver : Nat} {params : List Parameter} {takesAny : Bool}
    {keywordOnly : List Parameter} {args : Arguments} {b : Bound}
    (h : bind callee receiver params takesAny keywordOnly args = .ok b) :
    fill params args.positional args.keywords = .ok b.fixed ∧
      fill keywordOnly [] args.keywords = .ok b.keywordOnly ∧
      b.rest = args.positional.drop params.length ∧
      (takesAny = false → args.positional.length ≤ params.length) := by
  unfold bind at h
  obtain ⟨-, -, h⟩ := bind_ok h
  dsimp only at h
  by_cases htoo : (!takesAny) = true ∧ params.length < args.positional.length
  · rw [if_pos htoo] at h
    cases h
  · rw [if_neg htoo] at h
    cases hfixed : fill params args.positional args.keywords <;> rw [hfixed] at h <;> try cases h
    cases hkeyed : fill keywordOnly [] args.keywords <;> rw [hkeyed] at h <;> cases h
    refine ⟨rfl, rfl, rfl, fun hany => ?_⟩
    simpa [hany] using htoo

/-! ### Arguments that become arguments of the node -/

/-- An argument in this role becomes exactly one argument of the node. -/
def Role.isSingle : Role → Bool
  | .optionalFunction _ => false
  | _ => true

theorem Role.convert_single {role : Role} {v : Value} {ws : List Value}
    (hrole : role.isSingle = true) (h : role.convert v = .ok ws) : ∃ w, ws = [w] := by
  cases role with
  | optionalFunction => cases hrole
  | plain | flag | function | ordering =>
      cases h
      exact ⟨_, rfl⟩
  | name | choice | attributes | tableSpec | lifted =>
      obtain ⟨w, -, rfl⟩ := map_ok h
      exact ⟨w, rfl⟩

namespace Value

theorem checkName_ok {what : String} {v w : Value} (h : v.checkName what = .ok w) :
    ∃ s, w = .text s := by
  unfold checkName at h
  split at h
  · rename_i hname
    cases h
    unfold isName at hname
    split at hname
    · exact ⟨_, rfl⟩
    · cases hname
  · cases h

theorem checkChoice_ok {what : String} {choices : List String} {v w : Value}
    (h : v.checkChoice what choices = .ok w) : ∃ s ∈ choices, w = .text s := by
  unfold checkChoice at h
  split at h
  · rename_i hone
    cases h
    unfold isOneOf at hone
    split at hone
    · exact ⟨_, List.contains_iff_mem.1 hone, rfl⟩
    · cases hone
  · cases h

theorem tableSpecOf_ok {name p d c durability v : Value}
    (h : tableSpecOf name p d c durability = .ok v) :
    ∃ name durability, v = .tableSpec name p d c durability := by
  unfold tableSpecOf at h
  obtain ⟨-, -, h⟩ := bind_ok h
  dsimp only at h
  split at h
  · cases h
  · split at h
    · cases h
      exact ⟨_, _, rfl⟩
    · split at h
      · cases h
      · cases h
        exact ⟨_, _, rfl⟩
    · cases h

theorem asTableSpec_ok {v w : Value} (h : v.asTableSpec = .ok w) :
    ∃ name p d c durability, w = .tableSpec name p d c durability := by
  unfold asTableSpec at h
  split at h
  · cases h
    exact ⟨_, _, _, _, _, rfl⟩
  · obtain ⟨name, durability, rfl⟩ := tableSpecOf_ok h
    exact ⟨_, _, _, _, _, rfl⟩
  · cases h

theorem asAttributes_ok {v w : Value} (h : v.asAttributes = .ok w) :
    ∃ names, w = .list names ∧ ∀ n ∈ names, ∃ s, n = .text s := by
  have hitems (items : List Value) (h : (do
        let names ← items.mapM (checkName "group_by attribute")
        if names.isEmpty then throw (.fault (.tooFew "group_by" "at least one attribute"))
        return Value.list names) = (.ok w : Except Failure Value)) :
      ∃ names, w = .list names ∧ ∀ n ∈ names, ∃ s, n = .text s := by
    obtain ⟨names, hnames, h⟩ := bind_ok h
    dsimp only at h
    split at h
    · cases h
    · cases h
      refine ⟨names, rfl, fun n hn => ?_⟩
      obtain ⟨x, -, hx⟩ := exists_of_mapM_ok hnames n hn
      exact checkName_ok hx
  unfold asAttributes at h
  dsimp only at h
  split at h
  · exact hitems _ h
  · obtain ⟨items, -, h⟩ := bind_ok h
    exact hitems items h

end Value

/-- An argument in this role becomes a value of a setting. -/
def Role.isFor (s : Setting) : Role → Bool
  | .flag => s.isSwitch
  | .choice .. => !s.isSwitch
  | _ => false

theorem Role.convert_isFor {role : Role} {s : Setting} {v : Value} {ws : List Value}
    (hrole : role.isFor s = true) (h : role.convert v = .ok ws) : ∃ w, ws = [w] ∧ s.Admits w := by
  cases role with
  | flag =>
      cases h
      exact ⟨_, rfl, (if_pos hrole).mpr ⟨_, rfl⟩⟩
  | choice what choices =>
      obtain ⟨w, hw, rfl⟩ := map_ok h
      obtain ⟨text, -, rfl⟩ := Value.checkChoice_ok hw
      exact ⟨_, rfl, (if_neg (by simpa [isFor] using hrole)).mpr ⟨text, rfl⟩⟩
  | _ => cases hrole

namespace Row

theorem convert_ok {params : List Parameter} {values ws : List Value}
    (h : convert params values = .ok ws) :
    ∃ parts, List.Forall₂ (fun pv part => Role.convert pv.1.role pv.2 = .ok part)
      (params.zip values) parts ∧ ws = parts.flatten := by
  obtain ⟨parts, hparts, h⟩ := bind_ok h
  cases h
  exact ⟨parts, mapM_ok hparts, rfl⟩

/-- Parameters whose arguments become one argument each keep their places. -/
theorem convert_single {params : List Parameter} {values ws : List Value}
    (hsingle : ∀ p ∈ params, p.role.isSingle = true) (h : convert params values = .ok ws) :
    List.Forall₂ (fun pv w => Role.convert pv.1.role pv.2 = .ok [w]) (params.zip values) ws := by
  obtain ⟨parts, hparts, rfl⟩ := convert_ok h
  clear h
  have hzip : ∀ pv ∈ params.zip values, pv.1.role.isSingle = true :=
    fun pv hpv => hsingle pv.1 (List.of_mem_zip hpv).1
  generalize params.zip values = pvs at hparts hzip ⊢
  induction hparts with
  | nil => exact .nil
  | cons hpart _ ih =>
      obtain ⟨hhead, htail⟩ := List.forall_mem_cons.1 hzip
      obtain ⟨w, rfl⟩ := Role.convert_single hhead hpart
      exact .cons hpart (ih htail)

theorem forall₂_append_left {α β : Type} {R : α → β → Prop} {xs xs' : List α} {ys : List β}
    (h : List.Forall₂ R (xs ++ xs') ys) :
    ∃ zs zs', ys = zs ++ zs' ∧ List.Forall₂ R xs zs ∧ List.Forall₂ R xs' zs' := by
  induction xs generalizing ys with
  | nil => exact ⟨[], ys, rfl, .nil, h⟩
  | cons x xs ih =>
      cases h with
      | cons hx h =>
          obtain ⟨zs, zs', rfl, hzs, hzs'⟩ := ih h
          exact ⟨_ :: zs, zs', rfl, .cons hx hzs, hzs'⟩

theorem length_convert {params : List Parameter} {values ws : List Value}
    (hlength : values.length = params.length)
    (h : List.Forall₂ (fun pv w => Role.convert pv.1.role pv.2 = .ok [w]) (params.zip values) ws) :
    ws.length = params.length := by
  rw [← h.length_eq, List.length_zip, hlength, Nat.min_self]

/-! ### Rows that lay out their arguments -/

/-- How many receivers stand among the arguments. -/
def receivers (row : Row) : Nat := if row.place = .nowhere then 0 else 1

/-- What a call gives the parameter of a name. -/
def given (row : Row) (args : Arguments) (name : String) : Option Value :=
  match row.params.findIdx? fun p => p.name == name with
  | some i =>
    (args.positional[i]?).or ((row.params[i]?).bind fun p => p.valueIn args.keywords)
  | none => (row.keywordOnly.find? fun p => p.name == name).bind fun p => p.valueIn args.keywords

/-- The row takes nothing but its parameters, each of which becomes one argument. -/
def isFixed (row : Row) : Bool :=
  row.params.all (·.role.isSingle) && !row.rest.takesAny && row.keywordOnly.isEmpty
    && row.preset.isEmpty && row.place != .last

theorem keywordOnly_of_isFixed {row : Row} (h : row.isFixed = true) : row.keywordOnly = [] := by
  simp only [isFixed, Bool.and_eq_true, List.isEmpty_iff] at h
  exact h.1.1.2

theorem apply_ok {row : Row} {receiver : List Value} {args : Arguments} {v : Value}
    (h : row.apply receiver args = .ok v) :
    ∃ values keyed fixed rest named, fill row.params args.positional args.keywords = .ok values ∧
      fill row.keywordOnly [] args.keywords = .ok keyed ∧
      convert row.params values = .ok fixed ∧
      row.rest.convert row.callee (args.positional.drop row.params.length) = .ok rest ∧
      convert row.keywordOnly keyed = .ok named ∧
      (row.rest.takesAny = false → args.positional.length ≤ row.params.length) ∧
      v = .expr row.op (if row.place = .last then fixed ++ rest ++ named ++ row.preset ++ receiver
        else receiver ++ (fixed ++ rest ++ named ++ row.preset)) := by
  obtain ⟨b, hbound, h⟩ := bind_ok h
  obtain ⟨hfixed, hkeyed, hdrop, hmost⟩ := bind_fill hbound
  obtain ⟨rest, hrest, h⟩ := bind_ok h
  obtain ⟨fixed, hconverted, h⟩ := bind_ok h
  obtain ⟨named, hnamed, h⟩ := bind_ok h
  cases h
  rw [hdrop] at hrest
  exact ⟨_, _, _, _, _, hfixed, hkeyed, hconverted, hrest, hnamed, hmost, rfl⟩

/-- Such a row makes a node of the receiver and one argument for every parameter. -/
theorem apply_fixed {row : Row} (hrow : row.isFixed = true) {receiver : List Value}
    {args : Arguments} {v : Value} (h : row.apply receiver args = .ok v) :
    ∃ values ws, fill row.params args.positional args.keywords = .ok values ∧
      List.Forall₂ (fun pv w => Role.convert pv.1.role pv.2 = .ok [w]) (row.params.zip values) ws ∧
      args.positional.length ≤ row.params.length ∧ v = .expr row.op (receiver ++ ws) := by
  simp only [isFixed, Bool.and_eq_true, List.all_eq_true, Bool.not_eq_true', List.isEmpty_iff,
    bne_iff_ne] at hrow
  obtain ⟨⟨⟨⟨hsingle, hrest⟩, hkeyword⟩, hpreset⟩, hplace⟩ := hrow
  obtain ⟨values, keyed, fixed, rest, named, hvalues, hkeyed, hfixed, hconverted, hnamed, hmost,
    rfl⟩ := apply_ok h
  rw [hkeyword] at hkeyed hnamed
  cases hkeyed
  cases hnamed
  have hnone : row.rest = .none := by
    cases hr : row.rest <;> rw [hr] at hrest <;> first | rfl | cases hrest
  rw [hnone] at hconverted
  cases hconverted
  refine ⟨values, fixed, hvalues, convert_single hsingle hfixed, hmost hrest, ?_⟩
  rw [if_neg hplace, hpreset]
  simp

/-- The last argument of such a node is what its last parameter was given. -/
theorem apply_fixed_last {row : Row} (hrow : row.isFixed = true) {params : List Parameter}
    {p : Parameter} (hparams : row.params = params ++ [p]) {receiver : List Value}
    {args : Arguments} {v : Value} (h : row.apply receiver args = .ok v) :
    ∃ ws last w, v = .expr row.op (receiver ++ ws ++ [w]) ∧ ws.length = params.length ∧
      Role.convert p.role last = .ok [w] ∧
      (args.positional[params.length]?).or (p.valueIn args.keywords) = some last := by
  obtain ⟨values, ws, hvalues, hws, -, rfl⟩ := apply_fixed hrow h
  rw [hparams] at hvalues hws
  have hlength := length_fill hvalues
  have hlast := getLast?_fill hvalues
  cases values using List.reverseRecOn with
  | nil => simp at hlength
  | append_singleton values last =>
      have hlength : params.length = values.length := by simpa using hlength.symm
      rw [List.zip_append hlength] at hws
      obtain ⟨front, back, rfl, hfront, hback⟩ := forall₂_append_left hws
      obtain ⟨w, _, hw, hnil, rfl⟩ := List.forall₂_cons_left_iff.1 hback
      cases hnil
      refine ⟨front, last, w, by rw [List.append_assoc], length_convert hlength.symm hfront, hw, ?_⟩
      rw [← hlast, List.getLast?_concat]

theorem mapM_plain (values : List Value) :
    values.mapM Role.plain.convert = .ok (values.map ([·])) := by
  induction values with
  | nil => rfl
  | cons v vs ih =>
      rw [List.mapM_cons, ih]
      rfl

/-- A row that takes at least one argument as it is, and an option by its name behind them. -/
def takesKeys (row : Row) (name : String) : Bool :=
  row.params.isEmpty && row.preset.isEmpty && row.place = .first
    && (match row.rest with
      | .some .plain _ => true
      | _ => false)
    && match row.keywordOnly with
      | [p] => p.name == name && p.role = .plain
      | _ => false

/-- All arguments of such a node but the last are the receiver and what was given by
position. -/
theorem apply_keys {row : Row} {name : String} (hrow : row.takesKeys name = true)
    {receiver : List Value} {args : Arguments} {v : Value} (h : row.apply receiver args = .ok v) :
    ∃ last, v = .expr row.op (receiver ++ args.positional ++ [last]) ∧ args.positional ≠ [] ∧
      row.given args name = some last := by
  obtain ⟨rowName, callee, place, op, params, rest, keywordOnly, preset⟩ := row
  simp only [takesKeys, Bool.and_eq_true, List.isEmpty_iff, decide_eq_true_eq] at hrow
  obtain ⟨⟨⟨⟨rfl, rfl⟩, rfl⟩, hrest⟩, hkeyword⟩ := hrow
  split at hrest <;> cases hrest
  split at hkeyword <;> try cases hkeyword
  rename_i p
  simp only [Bool.and_eq_true, decide_eq_true_eq] at hkeyword
  obtain ⟨hname, hplain⟩ := hkeyword
  obtain ⟨values, keyed, fixed, rest, named, hvalues, hkeyed, hfixed, hconverted, hnamed, -, rfl⟩ :=
    apply_ok h
  cases hvalues
  cases hfixed
  have hrest : args.positional ≠ [] ∧ args.positional = rest := by
    simp only [Rest.convert, List.length_nil, List.drop_zero] at hconverted
    split at hconverted
    case isTrue => cases hconverted
    case isFalse hne =>
      rw [mapM_plain] at hconverted
      cases hconverted
      exact ⟨by simpa using hne, by simp [← List.flatMap_def]⟩
  obtain ⟨hne, rfl⟩ := hrest
  obtain ⟨last, vs, rfl, hlast, hvs⟩ := fill_cons hkeyed
  cases hvs
  have hnamed : named = [last] := by
    obtain ⟨parts, hparts, rfl⟩ := convert_ok hnamed
    cases hparts with
    | cons hpart hparts =>
        cases hparts
        simp only [hplain, Role.convert] at hpart
        cases hpart
        rfl
  subst hnamed
  refine ⟨last, by simp, hne, ?_⟩
  simpa [given, hname] using hlast

/-- A setting is made of the receiver and one value of its kind. -/
def fitsSetting (row : Row) (s : Setting) : Bool :=
  row.place = .first && !row.rest.takesAny && row.keywordOnly.isEmpty
    && match row.params, row.preset with
      | [p], [] => p.role.isFor s
      | [], [.bool _] => s.isSwitch
      | _, _ => false

theorem apply_setting {row : Row} {s : Setting} (hrow : row.fitsSetting s = true)
    {receiver : List Value} {args : Arguments} {v : Value} (h : row.apply receiver args = .ok v) :
    ∃ w, v = .expr row.op (receiver ++ [w]) ∧ s.Admits w := by
  obtain ⟨rowName, callee, place, op, params, rest, keywordOnly, preset⟩ := row
  simp only [fitsSetting, Bool.and_eq_true, List.isEmpty_iff, decide_eq_true_eq,
    Bool.not_eq_true'] at hrow
  obtain ⟨⟨⟨rfl, hrest⟩, rfl⟩, hshape⟩ := hrow
  obtain ⟨values, keyed, fixed, others, named, hvalues, hkeyed, hfixed, hconverted, hnamed, -,
    rfl⟩ := apply_ok h
  cases hkeyed
  cases hnamed
  have hnone : rest = .none := by
    cases rest <;> first | rfl | cases hrest
  subst hnone
  cases hconverted
  split at hshape
  · rename_i p
    obtain ⟨value, vs, rfl, -, hvs⟩ := fill_cons hvalues
    cases hvs
    obtain ⟨parts, hparts, rfl⟩ := convert_ok hfixed
    cases hparts with
    | cons hpart hparts =>
        cases hparts
        obtain ⟨w, rfl, hw⟩ := Role.convert_isFor hshape hpart
        exact ⟨w, by simp, hw⟩
  · rename_i b
    cases hvalues
    cases hfixed
    exact ⟨.bool b, by simp, (if_pos hshape).mpr ⟨b, rfl⟩⟩
  · cases hshape

/-- The last parameter is the option that an operation sends its last argument as. -/
def fitsTrailing (row : Row) (v : Verb) : Bool :=
  match v.trailing? with
  | none => true
  | some name =>
    (row.isFixed && row.receivers + row.params.length = v.leading + 1
        && row.params.findIdx? (fun p => p.name == name) = some (row.params.length - 1)
        && row.params.getLast?.any fun p => p.role = .plain)
      || (v = .getAll && row.takesKeys name)

/-- A row of an operation that may leave out its database has a parameter for every other
argument. -/
def fitsDatabase (row : Row) (v : Verb) : Bool :=
  match v.afterDatabase? with
  | none => true
  | some count => row.isFixed && row.params.length = count

/-- The last parameter of a row that creates tables are the options of the table. -/
def fitsSpec (row : Row) (v : Verb) : Bool :=
  v != .tableCreate || (row.isFixed && row.params.getLast?.any fun p => p.role = .tableSpec)

/-- The calls of the row lay out their arguments as the compiler reads them. -/
def fits (row : Row) : Bool :=
  match row.op with
  | .literal | .func => false
  | .setting s => row.fitsSetting s
  | .verb v =>
    v != .var && (!v.needsTable || row.place = .first) && row.fitsTrailing v && row.fitsDatabase v
      && row.fitsSpec v

/-- The arguments of the node that a call makes have the layout that the compiler reads. The
one that is sent as an option is what the call gave the parameter of that name, and every other
argument has a place of its own in front of it. -/
structure Lays (row : Row) (receiver : List Value) (args : Arguments) (nodeArgs : List Value) :
    Prop where
  fits : row.op.Fits nodeArgs
  trailing (v : Verb) (name : String) : row.op = .verb v → v.trailing? = some name →
    ∃ front last, nodeArgs = front ++ [last] ∧ row.given args name = some last ∧
      front.length + 1 = receiver.length + row.params.length
        + (args.positional.length - row.params.length) + row.keywordOnly.length
  database (v : Verb) (count : Nat) : row.op = .verb v → v.afterDatabase? = some count →
    nodeArgs.length = receiver.length + count

theorem given_last {row : Row} {args : Arguments} {name : String} {params : List Parameter}
    {p : Parameter} (hparams : row.params = params ++ [p])
    (hname : row.params.findIdx? (fun p => p.name == name) = some params.length) :
    row.given args name = (args.positional[params.length]?).or (p.valueIn args.keywords) := by
  unfold given
  rw [hname]
  simp [hparams]

theorem trailing_of_fits {row : Row} {v : Verb} {name : String} (hname : v.trailing? = some name)
    (hrow : row.fitsTrailing v = true) {receiver : List Value} {args : Arguments} {w : Value}
    (hreceiver : receiver.length = row.receivers) (h : row.apply receiver args = .ok w) :
    ∃ front last, w = .expr row.op (front ++ [last]) ∧ row.given args name = some last ∧
      front.length + 1 = receiver.length + row.params.length
        + (args.positional.length - row.params.length) + row.keywordOnly.length ∧
      (front.length = v.leading ∨ v = .getAll ∧ v.leading ≤ front.length) := by
  simp only [fitsTrailing, hname, Bool.or_eq_true, Bool.and_eq_true, decide_eq_true_eq,
    Option.any_eq_true] at hrow
  obtain ⟨⟨⟨hfixed, hleading⟩, hindex⟩, p, hlast, hplain⟩ | ⟨hv, hkeys⟩ := hrow
  · obtain ⟨params, hparams⟩ := List.getLast?_eq_some_iff.1 hlast
    obtain ⟨ws, last, w, rfl, hlength, hconvert, hgiven⟩ := apply_fixed_last hfixed hparams h
    obtain ⟨-, -, -, -, hmost, -⟩ := apply_fixed hfixed h
    rw [hplain] at hconvert
    cases hconvert
    have hcount : row.params.length = params.length + 1 := by simp [hparams]
    refine ⟨receiver ++ ws, last, rfl, ?_, ?_, .inl ?_⟩
    · rw [given_last hparams (by simpa [hcount] using hindex), hgiven]
    · simp [hlength, hcount, keywordOnly_of_isFixed hfixed]
      omega
    · simp [hlength]
      omega
  · obtain ⟨last, rfl, hne, hgiven⟩ := apply_keys hkeys h
    have hpositional := List.length_pos_iff.2 hne
    subst hv
    simp only [takesKeys, Bool.and_eq_true, List.isEmpty_iff, decide_eq_true_eq] at hkeys
    obtain ⟨⟨⟨⟨hparams, -⟩, hplace⟩, -⟩, hkeyword⟩ := hkeys
    have hone : receiver.length = 1 := by simp [hreceiver, receivers, hplace]
    refine ⟨receiver ++ args.positional, last, rfl, hgiven, ?_, .inr ⟨rfl, ?_⟩⟩
    · split at hkeyword
      · simp [*]
      · cases hkeyword
    · simp only [Verb.leading, List.length_append, hone]
      omega

theorem database_of_fits {row : Row} {v : Verb} {count : Nat}
    (hcount : v.afterDatabase? = some count) (hrow : row.fitsDatabase v = true)
    {receiver : List Value} {args : Arguments} {w : Value}
    (h : row.apply receiver args = .ok w) :
    ∃ nodeArgs, w = .expr row.op nodeArgs ∧ nodeArgs.length = receiver.length + count := by
  simp only [fitsDatabase, hcount, Bool.and_eq_true, decide_eq_true_eq] at hrow
  obtain ⟨hfixed, hparams⟩ := hrow
  obtain ⟨values, ws, hvalues, hws, -, rfl⟩ := apply_fixed hfixed h
  refine ⟨_, rfl, ?_⟩
  rw [List.length_append, length_convert (length_fill hvalues) hws, hparams]

theorem spec_of_fits {row : Row} (hrow : row.fitsSpec .tableCreate = true) {receiver : List Value}
    {args : Arguments} {w : Value} (h : row.apply receiver args = .ok w) :
    ∃ front name p d c durability,
      w = .expr row.op (front ++ [.tableSpec name p d c durability]) := by
  simp only [fitsSpec, bne_self_eq_false, Bool.false_or, Bool.and_eq_true, Option.any_eq_true,
    decide_eq_true_eq] at hrow
  obtain ⟨hfixed, p, hlast, hspec⟩ := hrow
  obtain ⟨params, hparams⟩ := List.getLast?_eq_some_iff.1 hlast
  obtain ⟨ws, last, w, rfl, -, hconvert, -⟩ := apply_fixed_last hfixed hparams h
  rw [hspec] at hconvert
  obtain ⟨spec, hmade, hw⟩ := map_ok hconvert
  cases hw
  obtain ⟨name, p, d, c, durability, rfl⟩ := Value.asTableSpec_ok hmade
  exact ⟨_, _, _, _, _, _, rfl⟩

theorem receiver_of_place {row : Row} (hplace : row.place = .first) {receiver : List Value}
    {args : Arguments} {w : Value} (hreceiver : receiver.length = row.receivers)
    (h : row.apply receiver args = .ok w) :
    ∃ v rest, receiver = [v] ∧ w = .expr row.op (v :: rest) := by
  obtain ⟨values, keyed, fixed, rest, named, -, -, -, -, -, -, rfl⟩ := apply_ok h
  rw [receivers, hplace] at hreceiver
  obtain ⟨v, rfl⟩ := List.length_eq_one_iff.1 hreceiver
  exact ⟨v, _, rfl, by rw [hplace]; rfl⟩

/-- A row for an operation of the server that passes its checks lays out the arguments as the
compiler reads them. -/
theorem verb_fits {row : Row} {v : Verb} {nodeArgs : List Value} (hvar : v ≠ .var)
    (htable : v.needsTable = false ∨ row.place = .first) (htrailing : row.fitsTrailing v = true)
    (hdatabase : row.fitsDatabase v = true) (hspec : row.fitsSpec v = true)
    {receiver : List Value} {args : Arguments} (hreceiver : receiver.length = row.receivers)
    (hexpr : ∀ x ∈ receiver, x.isExpr = true)
    (h : row.apply receiver args = .ok (.expr row.op nodeArgs)) : v.Fits nodeArgs := by
  refine ⟨hvar, fun hneeds => ?_, fun hsome => ?_, fun count hv => ?_, fun hv => ?_⟩
  · obtain ⟨x, rest, rfl, hw⟩ :=
      receiver_of_place (htable.resolve_left (by simp [hneeds])) hreceiver h
    cases hw
    exact ⟨x, rest, rfl, hexpr x List.mem_cons_self⟩
  · obtain ⟨name, hname⟩ := Option.isSome_iff_exists.1 hsome
    obtain ⟨front, last, hw, -, -, hleading⟩ := trailing_of_fits hname htrailing hreceiver h
    cases hw
    exact ⟨front, last, rfl, hleading⟩
  · obtain ⟨_, hw, hlength⟩ := database_of_fits hv hdatabase h
    cases hw
    have hshort : receiver.length ≤ 1 := by
      rw [hreceiver, receivers]
      split <;> omega
    omega
  · subst hv
    obtain ⟨front, name, p, d, c, durability, hw⟩ := spec_of_fits hspec h
    cases hw
    exact ⟨front, name, p, d, c, durability, rfl⟩

/-- What the check of a row is good for: whatever a call is given, the node that it makes is
laid out as the compiler reads it. -/
theorem lays_of_fits {row : Row} (hrow : row.fits = true) {receiver : List Value}
    {args : Arguments} {w : Value} (hreceiver : receiver.length = row.receivers)
    (hexpr : ∀ v ∈ receiver, v.isExpr = true) (h : row.apply receiver args = .ok w) :
    ∃ nodeArgs, w = .expr row.op nodeArgs ∧ row.Lays receiver args nodeArgs := by
  obtain ⟨nodeArgs, rfl⟩ : ∃ nodeArgs, w = .expr row.op nodeArgs := by
    obtain ⟨_, _, _, _, _, _, _, _, _, _, _, hw⟩ := apply_ok h
    exact ⟨_, hw⟩
  refine ⟨nodeArgs, rfl, ?_⟩
  unfold fits at hrow
  split at hrow
  -- No row makes a literal or a node for a function: those are made by functions of their own.
  case h_1 | h_2 => cases hrow
  case h_3 s hop =>
    obtain ⟨value, hw, hvalue⟩ := apply_setting hrow h
    cases hw
    refine ⟨?_, by simp [hop], by simp [hop]⟩
    rw [hop]
    obtain ⟨v, rest, rfl, -⟩ := receiver_of_place (by simp_all [fitsSetting]) hreceiver h
    exact ⟨v, value, rfl, hexpr v List.mem_cons_self, hvalue⟩
  case h_4 v hop =>
    simp only [Bool.and_eq_true, bne_iff_ne, Bool.or_eq_true, Bool.not_eq_true',
      decide_eq_true_eq] at hrow
    obtain ⟨⟨⟨⟨hvar, htable⟩, htrailing⟩, hdatabase⟩, hspec⟩ := hrow
    refine ⟨?_, fun v' name hv hname => ?_, fun v' count hv hcount => ?_⟩
    · rw [hop]
      exact verb_fits hvar htable htrailing hdatabase hspec hreceiver hexpr h
    · rw [hop] at hv
      cases hv
      obtain ⟨front, last, hw, hgiven, hlength, -⟩ := trailing_of_fits hname htrailing hreceiver h
      cases hw
      exact ⟨front, last, rfl, hgiven, hlength⟩
    · rw [hop] at hv
      cases hv
      obtain ⟨_, hw, hlength⟩ := database_of_fits hcount hdatabase h
      cases hw
      exact hlength

end Row

theorem Catalog.fits_methods : Catalog.methods.all Row.fits = true := by decide +kernel

theorem Catalog.fits_functions : Catalog.functions.all Row.fits = true := by decide +kernel

end QueryDriver
