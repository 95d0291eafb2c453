import QueryDriver.Proofs.Lowering.Hygiene
import QueryDriver.Proofs.Lowering.Refusal
import QueryDriver.Proofs.Value.Bare

/-!
# Where options come from

A place in an expression is reached from the root through arguments, options, items, entries
and what callables return. `root.Lies r v` says that `v` is at such a place, `r` being the
settings on the way, the nearest one first. The options of an operation that come from
settings are read off that way and the scope of the whole expression, and from nothing else.
-/

namespace QueryDriver

open Wire

/-! ### What an operation listens to -/

namespace Setting

/-- The name under which a setting is sent. -/
def key : Setting → String
  | .useOutdated => "use_outdated"
  | .durability => "durability"
  | .atomic => "non_atomic"
  | .upsert => "upsert"
  | .returnValues => "return_vals"
  | .leftBound => "left_bound"
  | .rightBound => "right_bound"
  | .timeFormat => "time_format"

theorem key_injective {s s' : Setting} (h : s.key = s'.key) : s = s' := by
  revert h
  cases s <;> cases s' <;> decide

/-- What a setting with a value makes an operation send: a switch that is on is sent as such,
atomicity only when it is off, a text unless it is empty, and a time format not at all. -/
def Sends (s : Setting) (v : Value) (t : Term) : Prop :=
  match s with
  | .useOutdated | .upsert | .returnValues =>
    v = .bool true ∧ t = Term.ofDatum (Datum.ofBool true)
  | .atomic => v = .bool false ∧ t = Term.ofDatum (Datum.ofBool true)
  | .durability | .leftBound | .rightBound =>
    ∃ text, text ≠ "" ∧ v = .text text ∧ t = Term.ofDatum (Datum.ofText text)
  | .timeFormat => False

end Setting

/-- The term of a value that a setting can have. -/
def Value.settingTerm : Value → Term
  | .bool b => Term.ofDatum (Datum.ofBool b)
  | .text s => Term.ofDatum (Datum.ofText s)
  | _ => Term.empty

namespace Setting

theorem key_of_mem_option {s : Setting} {v : Value} {e : String × Value} (h : e ∈ s.option v) :
    e.1 = s.key := by
  unfold option at h
  split at h
  case h_8 => cases h
  all_goals
    split at h
    · rw [List.mem_singleton.1 h]
      rfl
    · cases h

/-- Of a setting whose value is of its kind that option is sent which it stands for. -/
theorem mem_option_iff {s : Setting} {v : Value} (hv : s.Admits v) (t : Term) :
    (∃ e ∈ s.option v, t = e.2.settingTerm) ↔ s.Sends v t := by
  cases s
  case timeFormat => simp [option, Sends]
  case durability | leftBound | rightBound =>
    obtain ⟨text, rfl⟩ := hv
    by_cases h : text = ""
    · simp [option, Sends, Value.truthy, h]
    · simp [option, Sends, Value.truthy, h, Value.settingTerm]
  case atomic | useOutdated | upsert | returnValues =>
    obtain ⟨b, rfl⟩ := hv
    cases b <;> simp [option, Sends, Value.truthy, Value.settingTerm]

end Setting

/-- The options of an operation are all different, and for every setting that it listens to, and
for no other, the value of the setting is what is sent. The durability of a table that is to be
created is no setting. -/
structure Verb.Settled (v : Verb) (value : Setting → Value)
    (options : List (Option String × Option Term)) : Prop where
  nodup : (options.map (·.1)).Nodup
  sent (s : Setting) (t : Option Term) : v ≠ .tableCreate ∨ s ≠ .durability →
    ((some s.key, t) ∈ options ↔ s ∈ v.settings ∧ ∃ u, t = some u ∧ s.Sends (value s) u)

namespace Verb

/-- The names of options that arguments are sent as. -/
def HasOption (v : Verb) (name : String) : Prop :=
  v.trailing? = some name ∨
    v = .tableCreate ∧ name ∈ ["primary_key", "datacenter", "cache_size", "durability"]

theorem hasOption_of_arrange {v : Verb} {args : List Value} {a : Arrangement}
    (ha : v.arrange args = .ok a) {name : String} (h : name ∈ a.named.map (·.1)) :
    v.HasOption name := by
  obtain ⟨rest, trailing, positional, fields, htrailing, hfields, rfl⟩ := arrange_ok ha
  rw [List.map_append, List.mem_append] at h
  obtain h | h := h
  · left
    unfold splitOption at htrailing
    split at htrailing
    · cases htrailing
      cases h
    · rename_i hname
      split at htrailing <;> cases htrailing
      split at h
      · cases h
      · rw [List.mem_singleton.1 h]
        exact hname
  · right
    unfold splitSpec at hfields
    split at hfields
    · rename_i hv
      split at hfields
      · cases hfields
      · split at hfields <;> cases hfields
        refine ⟨hv, ?_⟩
        obtain ⟨e, he, rfl⟩ := List.mem_map.1 h
        obtain ⟨he, -⟩ := List.mem_filter.1 he
        simp only [List.mem_cons, List.not_mem_nil, or_false] at he
        obtain rfl | rfl | rfl | rfl := he <;> simp
    · cases hfields
      cases h

theorem nodup_of_arrange {v : Verb} {args : List Value} {a : Arrangement}
    (ha : v.arrange args = .ok a) : (a.named.map (·.1)).Nodup := by
  obtain ⟨rest, trailing, positional, fields, htrailing, hfields, rfl⟩ := arrange_ok ha
  unfold splitSpec at hfields
  split at hfields
  case isFalse =>
    cases hfields
    unfold splitOption at htrailing
    split at htrailing
    · cases htrailing
      exact .nil
    · split at htrailing <;> cases htrailing
      split <;> simp
  case isTrue hv =>
    subst hv
    cases htrailing
    split at hfields
    · cases hfields
    · split at hfields <;> cases hfields
      rw [List.nil_append]
      refine List.Nodup.sublist (List.filter_sublist.map _) ?_
      change ["primary_key", "datacenter", "cache_size", "durability"].Nodup
      decide

theorem nodup_sent (v : Verb) (value : Setting → Value) : ((v.sent value).map (·.1)).Nodup := by
  have hsub (settings : List Setting) :
      ((settings.flatMap fun s => s.option (value s)).map (·.1)).Sublist
        (settings.map Setting.key) := by
    induction settings with
    | nil => exact .refl _
    | cons s settings ih =>
        rw [List.flatMap_cons, List.map_append, List.map_cons]
        have hone : ((s.option (value s)).map (·.1)).Sublist [s.key] := by
          unfold Setting.option
          split
          case h_8 => exact List.nil_sublist _
          all_goals
            split
            · exact .refl _
            · exact List.nil_sublist _
        exact hone.append ih
  refine List.Nodup.sublist (hsub v.settings) (List.Nodup.map (fun _ _ => Setting.key_injective) ?_)
  cases v <;> decide

theorem key_ne_of_hasOption {v : Verb} {s : Setting} {name : String}
    (hs : v ≠ .tableCreate ∨ s ≠ .durability) (h : v.HasOption name) : s.key ≠ name := by
  obtain h | ⟨hv, h⟩ := h
  · have hname : name ∈ ["base", "index", "timeout"] := by
      cases v <;> cases h <;> simp
    rintro rfl
    revert hname
    cases s <;> decide
  · obtain hs | hs := hs
    · exact absurd hv hs
    · rintro rfl
      revert h hs
      cases s <;> decide

theorem zip_fst_sublist {α β : Type} (xs : List α) (ys : List β) :
    ((xs.zip ys).map (·.1)).Sublist xs := by
  induction xs generalizing ys with
  | nil => simp
  | cons x xs ih =>
      cases ys with
      | nil => simp
      | cons y ys => simpa using ih ys

/-- What an operation sends for its settings settles its options, whatever it sends beside. -/
theorem settled_of_sent {v : Verb} {value : Setting → Value} {names : List String}
    {own : List Outline} (hvalue : ∀ s : Setting, s.Admits (value s))
    (hnames : ∀ name ∈ names, v.HasOption name) (hnodup : names.Nodup) :
    v.Settled value (Outline.options (names.zip own) ++
      (v.sent value).map fun e => (some e.1, some e.2.settingTerm)) := by
  refine ⟨?_, fun s t hs => ?_⟩
  · have hsplit : ((Outline.options (names.zip own) ++
        (v.sent value).map fun e => (some e.1, some e.2.settingTerm)).map (·.1)) =
        (((names.zip own).map (·.1)) ++ (v.sent value).map (·.1)).map some := by
      simp only [Outline.options_eq_map, List.map_append, List.map_map]
      rfl
    rw [hsplit]
    refine List.Nodup.map (Option.some_injective _) (List.Nodup.append ?_ (nodup_sent v value) ?_)
    · exact hnodup.sublist (zip_fst_sublist names own)
    · intro name hname hsent
      obtain ⟨e, he, rfl⟩ := List.mem_map.1 hsent
      obtain ⟨s, hs, he⟩ := List.mem_flatMap.1 he
      have hlistens : v ≠ .tableCreate := by
        rintro rfl
        cases hs
      have hname : v.HasOption e.1 := hnames _ ((zip_fst_sublist names own).subset hname)
      exact key_ne_of_hasOption (.inl hlistens) hname (Setting.key_of_mem_option he).symm
  have hown : (some s.key, t) ∉ Outline.options (names.zip own) := by
    rw [Outline.options_eq_map]
    intro h
    obtain ⟨e, he, hkey⟩ := List.mem_map.1 h
    obtain ⟨hname, -⟩ := Prod.mk.inj hkey
    exact key_ne_of_hasOption hs (hnames e.1 (List.of_mem_zip he).1) (Option.some.inj hname.symm)
  rw [List.mem_append, or_iff_right hown]
  constructor
  · intro h
    obtain ⟨e, he, hkey⟩ := List.mem_map.1 h
    obtain ⟨s', hs', he⟩ := List.mem_flatMap.1 he
    obtain ⟨hname, rfl⟩ := Prod.mk.inj hkey
    rw [Setting.key_of_mem_option he] at hname
    obtain rfl := Setting.key_injective (Option.some.inj hname)
    exact ⟨hs', _, rfl, (Setting.mem_option_iff (hvalue _) _).1 ⟨e, he, rfl⟩⟩
  · rintro ⟨hlistens, u, rfl, hsends⟩
    obtain ⟨e, he, rfl⟩ := (Setting.mem_option_iff (hvalue s) u).2 hsends
    rw [← Setting.key_of_mem_option he]
    exact List.mem_map_of_mem (List.mem_flatMap.2 ⟨s, hlistens, he⟩)

end Verb

/-- The values that settings have are sent as they are. -/
theorem Lowers.settingTerm {c : Scope} {r : Trail} {s : Setting} {v : Value} {m m' : Mark}
    {o : Outline} (hv : s.Admits v) (h : Lowers c r v m o m') : o.term = v.settingTerm := by
  obtain ⟨b, rfl⟩ | ⟨text, rfl⟩ := hv.bool_or_text <;> cases h with
  | scalar h =>
      cases h
      rfl
  | callable h => cases h

theorem LowersEach.settingTerms {c : Scope} {r : Trail} {es : List (String × Value)} {m m' : Mark}
    {os : List Outline} (hes : ∀ e ∈ es, ∃ s : Setting, s.Admits e.2)
    (h : LowersEach c r (es.map (·.2)) m os m') :
    Outline.options ((es.map (·.1)).zip os) = es.map fun e => (some e.1, some e.2.settingTerm) := by
  induction es generalizing m os with
  | nil => simp [Outline.options]
  | cons e es ih =>
      obtain ⟨⟨s, hs⟩, hes⟩ := List.forall_mem_cons.1 hes
      cases h with
      | cons h hrest => simp [Outline.options, h.settingTerm hs, ih hes hrest]

/-! ### Places -/

namespace Value

/-- `root.Lies r v`: the value lies in the root, below the settings `r`. -/
inductive Lies (root : Value) : Trail → Value → Prop where
  | root : Lies root [] root
  | part {r : Trail} {v w : Value} (h : Lies root r v) (hv : v.isSetting = false)
      (hw : IsPart w v) : Lies root r w
  | setting {r : Trail} {s : Setting} {inner value : Value}
      (h : Lies root r (.expr (.setting s) [inner, value])) : Lies root ((s, value) :: r) inner

theorem Lies.laidOut {root : Value} (hroot : root.LaidOut) {r : Trail} {v : Value}
    (h : root.Lies r v) : v.LaidOut := by
  induction h with
  | root => exact hroot
  | part _ _ hw ih => exact ih.part hw
  | setting _ ih => exact ih.part (.argument List.mem_cons_self)

end Value

/-- Where a value that is compiled comes from: it lies in the whole value, or the scope adds
it. -/
inductive Origin (c : Scope) (root : Value) : Trail → Value → Prop where
  | place {r : Trail} {v : Value} (h : root.Lies r v) : Origin c root r v
  | database {r : Trail} : Origin c root r c.receiver
  | carried {r : Trail} {s : Setting} {v : Value} (h : s.Admits v) : Origin c root r v

theorem Setting.Admits.not_isPart {s : Setting} {v w : Value} (h : s.Admits v) :
    ¬Value.IsPart w v := by
  intro hw
  obtain ⟨b, rfl⟩ | ⟨t, rfl⟩ := h.bool_or_text <;> cases hw

namespace Origin

variable {c : Scope} {root v w : Value} {r : Trail}

theorem part (hc : c.Typed) (h : Origin c root r v) (hv : v.isSetting = false)
    (hw : Value.IsPart w v) : Origin c root r w := by
  cases h with
  | place h => exact .place (h.part hv hw)
  | database =>
      cases hw with
      | argument hw =>
          rw [List.mem_singleton.1 hw]
          exact .carried (s := .durability) hc.database
  | carried h => exact absurd hw h.not_isPart

theorem lies_of_setting {s : Setting} {args : List Value}
    (h : Origin c root r (.expr (.setting s) args)) : root.Lies r (.expr (.setting s) args) := by
  generalize hv : Value.expr (.setting s) args = v at h
  cases h with
  | place h => exact h
  | database => cases hv
  | carried h =>
      obtain ⟨b, rfl⟩ | ⟨t, rfl⟩ := h.bool_or_text <;> cases hv

theorem setting {s : Setting} {inner value : Value}
    (h : Origin c root r (.expr (.setting s) [inner, value])) :
    Origin c root ((s, value) :: r) inner :=
  .place (.setting h.lies_of_setting)

theorem admits {s : Setting} {inner value : Value} (hroot : root.LaidOut)
    (h : Origin c root r (.expr (.setting s) [inner, value])) : s.Admits value := by
  obtain ⟨_, _, hargs, -, hvalue⟩ := (h.lies_of_setting.laidOut hroot).self _ _ rfl
  cases hargs
  exact hvalue

/-- An operation lies in the whole value, unless it is the database that a node leaves out. -/
theorem operation {op : Verb} {args : List Value} (h : Origin c root r v)
    (hv : v.node? = some (.verb op, args)) : root.Lies r v ∨ v = c.receiver := by
  cases h with
  | place h => exact .inl h
  | database => exact .inr rfl
  | carried h =>
      obtain ⟨b, rfl⟩ | ⟨t, rfl⟩ := h.bool_or_text <;> cases hv

theorem arranged {op : Verb} {args : List Value} {a : Arrangement} (hc : c.Typed)
    (h : Origin c root r (.expr (.verb op) args)) (ha : op.arrange args = .ok a) :
    ∀ w ∈ a.positional ++ a.named.map (·.2), Origin c root r w := by
  intro w hw
  obtain hw | ⟨x, hx, e, he, rfl⟩ | ⟨s, rfl⟩ := Verb.mem_of_arrange ha w hw
  · exact h.part hc rfl (.argument hw)
  · obtain hpart | ⟨s, hs⟩ := Value.mem_tableFields he
    · refine (h.part hc rfl (.argument hx)).part hc ?_ hpart
      cases x <;> first | rfl | cases he
    · rw [hs]
      exact .carried (s := .durability) ⟨s, rfl⟩
  · exact .carried (s := .durability) ⟨s, rfl⟩

end Origin

/-- The settings on a way have values of their kinds. -/
def Trail.Typed (r : Trail) : Prop := ∀ e ∈ r, e.1.Admits e.2

theorem Trail.Typed.value {c : Scope} (hc : c.Typed) {r : Trail} (hr : r.Typed) (s : Setting) :
    s.Admits (r.value c s) := by
  unfold Trail.value
  split
  · rename_i e he
    have hs : e.1 = s := by simpa using List.find?_some he
    rw [← hs]
    exact hr e (List.mem_of_find?_eq_some he)
  · exact hc.setting s

theorem Trail.Typed.sent {c : Scope} (hc : c.Typed) {r : Trail} (hr : r.Typed) (v : Verb) :
    ∀ e ∈ v.sent (r.value c), ∃ s : Setting, s.Admits e.2 := by
  intro e he
  obtain ⟨s, -, he⟩ := List.mem_flatMap.1 he
  obtain he | he := Setting.mem_option he
  · rw [he]
    exact ⟨.useOutdated, true, rfl⟩
  · rw [he]
    exact ⟨s, hr.value hc s⟩

/-- The options of an operation are settled by the settings that its options were compiled
from. -/
theorem LowersEach.settled {c : Scope} {r : Trail} {v : Verb} {m m' : Mark}
    {positional own given : List Outline} {args : List Value} {a : Arrangement}
    (h : LowersEach c r ((v.sent (r.value c)).map (·.2)) m given m') (hc : c.Typed)
    (ha : v.arrange args = .ok a) (hr : r.Typed) :
    v.Settled (r.value c) (Outline.node v r positional ((a.named.map (·.1)).zip own)
      (((v.sent (r.value c)).map (·.1)).zip given)).term.options := by
  rw [Outline.term, h.settingTerms (hr.sent hc v)]
  exact Verb.settled_of_sent (hr.value hc) (fun name hname => Verb.hasOption_of_arrange ha hname)
    (Verb.nodup_of_arrange ha)

namespace Outline

/-- Every operation in the outline is what a node became that lies in the root below the
settings `r`, or the database that a node leaves out, and its options are settled by `r`. -/
def Scoped (c : Scope) (root : Value) (o : Outline) : Prop :=
  ∀ v r args own given, Within (.node v r args own given) o →
    (∃ w nodeArgs m m', (root.Lies r w ∨ w = c.receiver) ∧ w.node? = some (.verb v, nodeArgs) ∧
      Lowers c r w m (.node v r args own given) m') ∧
    v.Settled (r.value c) (node v r args own given).term.options

def isNode : Outline → Bool
  | .node .. => true
  | _ => false

variable {c : Scope} {root : Value}

theorem scoped_of_children {o : Outline} (ho : o.isNode = false)
    (h : ∀ x ∈ o.children, x.Scoped c root) : o.Scoped c root := by
  intro v r args own given hwithin
  cases hwithin with
  | refl => cases ho
  | child hwithin hy => exact h _ hy v r args own given hwithin

theorem scoped_data {d : Datum} : (data d).Scoped c root := scoped_of_children rfl nofun

theorem scoped_node {v : Verb} {r : Trail} {args : List Outline}
    {own given : List (String × Outline)}
    {w : Value} {nodeArgs : List Value} {m m' : Mark} (hplace : Origin c root r w)
    (hw : w.node? = some (.verb v, nodeArgs))
    (hlowers : Lowers c r w m (.node v r args own given) m')
    (hsettled : v.Settled (r.value c) (node v r args own given).term.options)
    (h : ∀ x ∈ (node v r args own given).children, x.Scoped c root) :
    (node v r args own given).Scoped c root := by
  intro v' r' args' own' given' hwithin
  cases hwithin with
  | refl => exact ⟨⟨w, nodeArgs, m, m', hplace.operation hw, hw, hlowers⟩, hsettled⟩
  | child hwithin hy => exact h _ hy v' r' args' own' given' hwithin

end Outline

-- The settings on the way grow in one rule only, the one for settings. Everywhere else the parts
-- are at the same place, or the scope adds them.
mutual

theorem Lowers.scoped {c : Scope} (hc : c.Typed) {root : Value} (hroot : root.LaidOut) {r : Trail}
    {v : Value} {m m' : Mark} {o : Outline} :
    Lowers c r v m o m' → Origin c root r v → r.Typed → o.Scoped c root
  | .scalar _, _, _ => Outline.scoped_data
  | .moment _, _, _ =>
      Outline.scoped_of_children rfl (Outline.forall_children_data fun _ => Outline.scoped_data)
  | .placeholder, _, _ => Outline.scoped_of_children rfl nofun
  | .row, hv, hr => Outline.scoped_node (m := m) hv rfl .row
      (@Verb.settled_of_sent .implicitVar _ [] [] (hr.value hc) nofun .nil) nofun
  | .list h, hv, hr => Outline.scoped_of_children rfl
      (h.scoped hc hroot (fun _ hw => hv.part hc rfl (.item hw)) hr)
  | .tuple h, hv, hr => Outline.scoped_of_children rfl
      (h.scoped hc hroot (fun _ hw => hv.part hc rfl (.component hw)) hr)
  | .dict _ h, hv, hr => Outline.scoped_of_children rfl (Outline.forall_children_object
      (h.scoped hc hroot (List.forall_mem_map.2 fun _ he => hv.part hc rfl (.entry he)) hr))
  | .mapping _ h, hv, hr => Outline.scoped_of_children rfl (Outline.forall_children_object
      (h.scoped hc hroot (List.forall_mem_map.2 fun _ he => hv.part hc rfl (.image he)) hr))
  | .callable h, hv, hr => h.scoped hc hroot hv hr
  | .literal h, hv, hr => h.scoped hc hroot (hv.part hc rfl (.argument List.mem_cons_self)) hr
  | .applied h, hv, hr => h.scoped hc hroot (hv.part hc rfl (.argument List.mem_cons_self)) hr
  | .constant _ h _, hv, hr =>
      h.scoped hc hroot (hv.part hc rfl (.argument List.mem_cons_self)) hr
  | .wrapped _ h _ _, hv, hr => Outline.scoped_of_children rfl (List.forall_mem_singleton.2
      (h.scoped hc hroot (hv.part hc rfl (.argument List.mem_cons_self)) hr))
  | .setting h, hv, hr =>
      h.scoped hc hroot hv.setting (List.forall_mem_cons.2 ⟨hv.admits hroot, hr⟩)
  | .verb ha hpositional hown hgiven, hv, hr =>
      Outline.scoped_node hv rfl (.verb ha hpositional hown hgiven) (hgiven.settled hc ha hr)
        (Outline.forall_children_node
          (hpositional.scoped hc hroot (Arrangement.forall_positional .database fun w hw =>
            hv.arranged hc ha w (List.mem_append_left _ hw)) hr)
          (hown.scoped hc hroot
            (fun w hw => hv.arranged hc ha w (List.mem_append_right _ hw)) hr)
          (hgiven.scoped hc hroot (List.forall_mem_map.2 fun e he =>
            (hr.sent hc _ e he).elim fun _ h => .carried h) hr))

theorem LowersEach.scoped {c : Scope} (hc : c.Typed) {root : Value} (hroot : root.LaidOut)
    {r : Trail} {vs : List Value} {m m' : Mark} {os : List Outline} :
    LowersEach c r vs m os m' → (∀ v ∈ vs, Origin c root r v) → r.Typed →
      ∀ x ∈ os, x.Scoped c root
  | .nil, _, _ => nofun
  | .cons h hs, hvs, hr => List.forall_mem_cons.2
      ⟨h.scoped hc hroot (hvs _ List.mem_cons_self) hr,
        hs.scoped hc hroot (fun v hv => hvs v (List.mem_cons_of_mem _ hv)) hr⟩

theorem LowersCall.scoped {c : Scope} (hc : c.Typed) {root : Value} (hroot : root.LaidOut)
    {r : Trail} {v hint : Value} {m m' : Mark} {o : Outline} :
    LowersCall c r v hint m o m' → Origin c root r v → r.Typed → o.Scoped c root
  | .call _ _ _ hresult h, hv, hr => Outline.scoped_of_children rfl (List.forall_mem_singleton.2
      (h.scoped hc hroot (hv.part hc rfl (.result hresult)) hr))

end

end QueryDriver
