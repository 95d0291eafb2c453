import QueryDriver.Proofs.Builder.Built
import QueryDriver.Proofs.Lowering.Hygiene

/-!
# What is bound to be compiled

A callable makes its result only when it is called, and what it makes may depend on the numbers
that it is handed. `v.Holds P` says that something with `P` is among what the value is made of,
whatever numbers its callables are handed. A value that is compiled is compiled throughout: no
operation that it is bound to make is left out (`Lowers.exists_of_holds`).
-/

namespace QueryDriver

/-! ### What a value is bound to make -/

namespace Value

/-- The value is an operation with arguments that satisfy `P`. -/
def Operates (P : Verb → List Value → Prop) (v : Value) : Prop :=
  ∃ op args, v = .expr (.verb op) args ∧ P op args

/-- Whatever numbers its callables are handed, the value is or has an operation with arguments that
satisfy `P`. -/
inductive Holds (P : Verb → List Value → Prop) : Value → Prop where
  | self {v : Value} (h : v.Operates P) : Holds P v
  | part {v w : Value} (hv : v.isCallable = false) (hw : IsPart w v) (h : Holds P w) : Holds P v
  | callable {face : Face} {run : List Nat → Except Failure Value}
      (h : ∀ params w, run params = .ok w → Holds P w) : Holds P (.func face run)

variable {P : Verb → List Value → Prop} {v w : Value}

/-- A value that is no operation and no callable holds only what one of its parts holds. -/
theorem Holds.exists_part (h : v.Holds P) (hv : v.isCallable = false)
    (hop : ∀ op args, v ≠ .expr (.verb op) args) : ∃ w, IsPart w v ∧ w.Holds P := by
  cases h with
  | self h =>
      obtain ⟨op, args, rfl, -⟩ := h
      exact absurd rfl (hop op args)
  | part _ hw h => exact ⟨_, hw, h⟩
  | callable => cases hv

theorem not_holds_leaf (hv : v.isLeaf = true) : ¬v.Holds P := by
  intro h
  obtain ⟨w, hw, -⟩ := h.exists_part (by cases v <;> first | rfl | cases hv)
    (by rintro op args rfl; cases hv)
  exact forall_isPart_leaf (P := fun _ => False) hv w hw

theorem Holds.truthy (h : v.Holds P) : v.truthy = true := by
  cases h with
  | self h =>
      obtain ⟨op, args, rfl, -⟩ := h
      rfl
  | part _ hw _ => cases hw <;> first | rfl | simp [Value.truthy, List.ne_nil_of_mem ‹_›]
  | callable => rfl

theorem Holds.isAbsent (h : v.Holds P) : v.isAbsent = false := by
  cases v <;> first | rfl | exact absurd h (not_holds_leaf rfl)

/-- What an option of a table holds is sent, since it is no option that counts as left out. -/
theorem Holds.exists_tableField {name durability : String} {p d c : Value}
    (h : (Value.tableSpec name p d c durability).Holds P) :
    ∃ e ∈ (Value.tableSpec name p d c durability).tableFields, e.2.Holds P := by
  obtain ⟨w, hw, hheld⟩ := h.exists_part rfl nofun
  have hsent (key : String) (hmem : (key, w) ∈ [("primary_key", p), ("datacenter", d),
      ("cache_size", c), ("durability", .text durability)]) :
      ∃ e ∈ (Value.tableSpec name p d c durability).tableFields, e.2.Holds P :=
    ⟨(key, w), List.mem_filter.2 ⟨hmem, hheld.truthy⟩, hheld⟩
  cases hw with
  | primaryKey => exact hsent "primary_key" (by simp)
  | datacenter => exact hsent "datacenter" (by simp)
  | cacheSize => exact hsent "cache_size" (by simp)

end Value

namespace Verb

variable {P : Verb → List Value → Prop} {v : Verb} {args positional : List Value}
  {named : List (String × Value)} {w : Value}

theorem exists_of_splitOption (h : v.splitOption args = .ok (positional, named)) (hw : w ∈ args)
    (hheld : w.Holds P) : w ∈ positional ∨ w ∈ named.map (·.2) := by
  unfold splitOption at h
  split at h
  · cases h
    exact .inl hw
  · split at h
    · cases h
    · rename_i last hlast
      cases h
      obtain ⟨front, rfl⟩ := List.getLast?_eq_some_iff.1 hlast
      rw [List.dropLast_concat]
      obtain hw | hw := List.mem_append.1 hw
      · exact .inl hw
      · obtain rfl := List.mem_singleton.1 hw
        simp [hheld.isAbsent]

theorem exists_of_splitSpec (h : v.splitSpec args = .ok (positional, named)) (hw : w ∈ args)
    (hheld : w.Holds P) : w ∈ positional ∨ ∃ e ∈ named, e.2.Holds P := by
  unfold splitSpec at h
  split at h
  · split at h
    · cases h
    · rename_i last hlast
      split at h <;> cases h
      obtain ⟨front, rfl⟩ := List.getLast?_eq_some_iff.1 hlast
      rw [List.dropLast_concat]
      obtain hw | hw := List.mem_append.1 hw
      · exact .inl (List.mem_append_left _ hw)
      · obtain rfl := List.mem_singleton.1 hw
        exact .inr hheld.exists_tableField
  · cases h
    exact .inl hw

/-- Arranging the arguments of an operation leaves nothing out that holds something. -/
theorem exists_of_arrange {a : Arrangement} (ha : v.arrange args = .ok a) (hw : w ∈ args)
    (hheld : w.Holds P) : ∃ x ∈ a.positional ++ a.named.map (·.2), x.Holds P := by
  obtain ⟨rest, trailing, positional, fields, htrailing, hfields, rfl⟩ := arrange_ok ha
  simp only [List.map_append, List.mem_append, List.mem_filter, Bool.not_eq_true']
  obtain hw | hw := exists_of_splitOption htrailing hw hheld
  · obtain hw | ⟨e, he, hheld⟩ := exists_of_splitSpec hfields hw hheld
    · exact ⟨w, .inl ⟨hw, hheld.isAbsent⟩, hheld⟩
    · exact ⟨e.2, .inr (.inr (List.mem_map_of_mem he)), hheld⟩
  · exact ⟨w, .inr (.inl hw), hheld⟩

end Verb

/-! ### It is compiled -/

/-- An operation with arguments that satisfy `P` has become an outline inside of `o`. -/
def Outline.Realizes (c : Scope) (P : Verb → List Value → Prop) (o : Outline) : Prop :=
  ∃ r op args m x m', P op args ∧ op.Fits args ∧ Lowers c r (.expr (.verb op) args) m x m' ∧
    Outline.Within x o

namespace Outline.Realizes

variable {c : Scope} {P : Verb → List Value → Prop} {o x : Outline}

theorem child (h : x.Realizes c P) (hx : x ∈ o.children) : o.Realizes c P := by
  obtain ⟨r, op, args, m, y, m', hP, hfits, hlowers, hwithin⟩ := h
  exact ⟨r, op, args, m, y, m', hP, hfits, hlowers, .child hwithin hx⟩

end Outline.Realizes

theorem Lowers.realizes_of_operates {c : Scope} {P : Verb → List Value → Prop} {r : Trail}
    {v : Value} {m m' : Mark} {o : Outline} (h : Lowers c r v m o m') (hlaid : v.LaidOut)
    (hv : v.Operates P) : o.Realizes c P := by
  obtain ⟨op, args, rfl, hP⟩ := hv
  exact ⟨r, op, args, m, o, m', hP, hlaid.self _ _ rfl, h, .refl o⟩

theorem LowersEach.length_eq {c : Scope} {r : Trail} {vs : List Value} {m m' : Mark}
    {os : List Outline} (h : LowersEach c r vs m os m') : os.length = vs.length := by
  induction vs generalizing m os with
  | nil =>
      cases h
      rfl
  | cons v vs ih =>
      cases h with
      | cons _ hs => rw [List.length_cons, List.length_cons, ih hs]

theorem LowersEach.zip_snd {c : Scope} {r : Trail} {vs : List Value} {m m' : Mark}
    {os : List Outline} (h : LowersEach c r vs m os m') {names : List String}
    (hnames : names.length = vs.length) : (names.zip os).map (·.2) = os :=
  List.map_snd_zip (by rw [h.length_eq, hnames])

theorem length_of_texts {entries : List (Value × Value)} {keys : List String}
    (h : entries.map (·.1) = keys.map .text) : keys.length = (entries.map (·.2)).length := by
  simpa using (congrArg List.length h).symm

namespace Value.Holds

variable {P : Verb → List Value → Prop}

/-- Of the arguments of a function, only the body can hold something. -/
theorem body {body hint : Value} {rest : List Value}
    (hv : (Value.expr .func (body :: hint :: rest)).LaidOut)
    (h : (Value.expr .func (body :: hint :: rest)).Holds P) : body.Holds P := by
  obtain ⟨_, _, hargs, hhint⟩ := hv.self _ _ rfl
  cases hargs
  obtain ⟨w, hw, hheld⟩ := h.exists_part rfl nofun
  cases hw with
  | argument hw =>
      simp only [List.mem_cons, List.not_mem_nil, or_false] at hw
      obtain rfl | rfl := hw
      · exact hheld
      · obtain ⟨n, rfl⟩ | ⟨b, rfl⟩ := hhint <;> exact absurd hheld (not_holds_leaf rfl)

/-- Of what a setting is made of, only what it is set on can hold something. -/
theorem inner {s : Setting} {inner value : Value}
    (hv : (Value.expr (.setting s) [inner, value]).LaidOut)
    (h : (Value.expr (.setting s) [inner, value]).Holds P) : inner.Holds P := by
  obtain ⟨_, _, hargs, -, hvalue⟩ := hv.self _ _ rfl
  cases hargs
  obtain ⟨w, hw, hheld⟩ := h.exists_part rfl nofun
  cases hw with
  | argument hw =>
      simp only [List.mem_cons, List.not_mem_nil, or_false] at hw
      obtain rfl | rfl := hw
      · exact hheld
      · obtain ⟨b, rfl⟩ | ⟨t, rfl⟩ := hvalue.bool_or_text <;>
          exact absurd hheld (not_holds_leaf rfl)

theorem literal {v : Value} {rest : List Value} (hv : (Value.expr .literal (v :: rest)).LaidOut)
    (h : (Value.expr .literal (v :: rest)).Holds P) : v.Holds P := by
  obtain ⟨_, hargs⟩ := hv.self _ _ rfl
  cases hargs
  obtain ⟨w, hw, hheld⟩ := h.exists_part rfl nofun
  cases hw with
  | argument hw =>
      obtain rfl := List.mem_singleton.1 hw
      exact hheld

theorem result {face : Face} {run : List Nat → Except Failure Value}
    (h : (Value.func face run).Holds P) {params : List Nat} {w : Value}
    (hw : run params = .ok w) : w.Holds P := by
  cases h with
  | self hop =>
      obtain ⟨_, _, hv, -⟩ := hop
      cases hv
  | part hv => cases hv
  | callable h => exact h _ _ hw

end Value.Holds

theorem isLeaf_of_scalar? {v : Value} {d : Wire.Datum} (h : v.scalar? = .ok (some d)) :
    v.isLeaf = true := by
  cases v <;> first | rfl | cases h

mutual

theorem Lowers.realizes {c : Scope} {P : Verb → List Value → Prop} {r : Trail} {v : Value}
    {m m' : Mark} {o : Outline} :
    Lowers c r v m o m' → v.LaidOut → v.Holds P → o.Realizes c P
  | .scalar h, _, hheld => absurd hheld (Value.not_holds_leaf (isLeaf_of_scalar? h))
  | .moment _, _, hheld | .row, _, hheld | .placeholder, _, hheld =>
      absurd hheld (Value.not_holds_leaf rfl)
  | .list h, hv, hheld => by
      obtain ⟨w, hw, hheld⟩ := hheld.exists_part rfl nofun
      cases hw with
      | item hw =>
          obtain ⟨x, hx, hreal⟩ := h.realizes hw (hv.part (.item hw)) hheld
          exact hreal.child hx
  | .tuple h, hv, hheld => by
      obtain ⟨w, hw, hheld⟩ := hheld.exists_part rfl nofun
      cases hw with
      | component hw =>
          obtain ⟨x, hx, hreal⟩ := h.realizes hw (hv.part (.component hw)) hheld
          exact hreal.child hx
  | .dict hkeys h, hv, hheld => by
      obtain ⟨w, hw, hheld⟩ := hheld.exists_part rfl nofun
      cases hw with
      | entry he =>
          obtain ⟨x, hx, hreal⟩ := h.realizes (List.mem_map_of_mem he) (hv.part (.entry he)) hheld
          refine hreal.child ?_
          rwa [Outline.children, h.zip_snd (length_of_texts hkeys)]
  | .mapping hkeys h, hv, hheld => by
      obtain ⟨w, hw, hheld⟩ := hheld.exists_part rfl nofun
      cases hw with
      | image he =>
          obtain ⟨x, hx, hreal⟩ := h.realizes (List.mem_map_of_mem he) (hv.part (.image he)) hheld
          refine hreal.child ?_
          rwa [Outline.children, h.zip_snd (length_of_texts hkeys)]
  | .callable h, hv, hheld => h.realizes hv hheld
  | .literal h, hv, hheld =>
      h.realizes (hv.part (.argument List.mem_cons_self)) (hheld.literal hv)
  | .applied h, hv, hheld =>
      h.realizes (hv.part (.argument List.mem_cons_self)) (hheld.body hv)
  | .constant _ h _, hv, hheld =>
      h.realizes (hv.part (.argument List.mem_cons_self)) (hheld.body hv)
  | .wrapped _ h _ _, hv, hheld =>
      (h.realizes (hv.part (.argument List.mem_cons_self)) (hheld.body hv)).child
        (List.mem_singleton.2 rfl)
  | .setting h, hv, hheld =>
      h.realizes (hv.part (.argument List.mem_cons_self)) (hheld.inner hv)
  | .verb ha hpositional hown hgiven, hv, hheld => by
      cases hheld with
      | self hop => exact (Lowers.verb ha hpositional hown hgiven).realizes_of_operates hv hop
      | part _ hw hheld =>
          cases hw with
          | argument hw =>
              have hlaid := Verb.forall_of_arrange ha (fun _ hw => hv.below hw)
                fun s => Value.LaidOut.leaf (v := .text s) rfl
              obtain ⟨x, hx, hheld⟩ := Verb.exists_of_arrange ha hw hheld
              have hx' := hlaid x hx
              obtain hx | hx := List.mem_append.1 hx
              · obtain ⟨y, hy, hreal⟩ :=
                  hpositional.realizes (List.mem_append_right _ hx) hx' hheld
                exact hreal.child (List.mem_append_left _ hy)
              · obtain ⟨y, hy, hreal⟩ := hown.realizes hx hx' hheld
                refine hreal.child (List.mem_append_right _ (List.mem_append_left _ ?_))
                rwa [hown.zip_snd (by simp)]

theorem LowersEach.realizes {c : Scope} {P : Verb → List Value → Prop} {r : Trail}
    {vs : List Value} {m m' : Mark} {os : List Outline} :
    LowersEach c r vs m os m' → ∀ {w}, w ∈ vs → w.LaidOut → w.Holds P → ∃ x ∈ os, x.Realizes c P
  | .nil, _, hw, _, _ => nomatch hw
  | .cons h hs, _, hw, hlaid, hheld => by
      obtain hfirst | hw := List.mem_cons.1 hw
      · exact ⟨_, List.mem_cons_self, h.realizes (hfirst ▸ hlaid) (hfirst ▸ hheld)⟩
      · obtain ⟨x, hx, hreal⟩ := hs.realizes hw hlaid hheld
        exact ⟨x, List.mem_cons_of_mem _ hx, hreal⟩

theorem LowersCall.realizes {c : Scope} {P : Verb → List Value → Prop} {r : Trail}
    {v hint : Value} {m m' : Mark} {o : Outline} :
    LowersCall c r v hint m o m' → v.LaidOut → v.Holds P → o.Realizes c P
  | .call _ _ _ hresult h, hv, hheld =>
      (h.realizes (hv.part (.result hresult)) (hheld.result hresult)).child
        (List.mem_singleton.2 rfl)

end

end QueryDriver
