import QueryDriver.Proofs.Compilation.Boundary
import QueryDriver.Proofs.Lowering.Determined

/-!
# The time formats that a compilation meets

`Meets c r v m formats` says which time formats are set in `v`, in the order in which the
compilation of `v` comes by them: a setting in front of what it is set on, arguments from
left to right, then options, items and entries in order, and what a callable returns where
the callable is called. A value that is set in two places is met twice. The rules hand
compilations on from one part to the next only because a callable sees the numbers of its
variables; there is one list for every value that can be compiled.

Of all these the compiler keeps the first one. It does so by keeping the latest for as long as that
counts as false, which is `firstMet`.
-/

namespace QueryDriver

mutual

/-- The time formats that are met in a value, in order. -/
inductive Meets (c : Scope) : Trail → Value → Mark → List Value → Prop where
  | scalar {r : Trail} {v : Value} {m : Mark} {d : Wire.Datum} (h : v.scalar? = .ok (some d)) :
      Meets c r v m []
  | moment {r : Trail} {t : Moment} {m : Mark} : Meets c r (.moment t) m []
  | list {r : Trail} {items : List Value} {m : Mark} {formats : List Value}
      (h : MeetsEach c r items m formats) : Meets c r (.list items) m formats
  | tuple {r : Trail} {items : List Value} {m : Mark} {formats : List Value}
      (h : MeetsEach c r items m formats) : Meets c r (.tuple items) m formats
  | dict {r : Trail} {entries : List (Value × Value)} {m : Mark} {formats : List Value}
      (h : MeetsEach c r (entries.map (·.2)) m formats) : Meets c r (.dict entries) m formats
  | mapping {r : Trail} {entries : List (Value × Value)} {m : Mark} {formats : List Value}
      (h : MeetsEach c r (entries.map (·.2)) m formats) : Meets c r (.mapping entries) m formats
  | row {r : Trail} {m : Mark} : Meets c r .row m []
  | placeholder {r : Trail} {n : Nat} {m : Mark} : Meets c r (.placeholder n) m []
  | callable {r : Trail} {v : Value} {m : Mark} {formats : List Value}
      (h : MeetsCall c r v (.int (-1)) m formats) : Meets c r v m formats
  | literal {r : Trail} {v : Value} {rest : List Value} {m : Mark} {formats : List Value}
      (h : Meets c r v m formats) : Meets c r (.expr .literal (v :: rest)) m formats
  | applied {r : Trail} {body hint : Value} {rest : List Value} {m : Mark} {formats : List Value}
      (h : MeetsCall c r body hint m formats) :
      Meets c r (.expr .func (body :: hint :: rest)) m formats
  | body {r : Trail} {body hint : Value} {rest : List Value} {m : Mark} {formats : List Value}
      (happlied : body.isApplied = false) (h : Meets c r body m formats) :
      Meets c r (.expr .func (body :: hint :: rest)) m formats
  | format {r : Trail} {inner value : Value} {m : Mark} {formats : List Value}
      (h : Meets c ((.timeFormat, value) :: r) inner (m.note .timeFormat value) formats) :
      Meets c r (.expr (.setting .timeFormat) [inner, value]) m (value :: formats)
  | setting {r : Trail} {s : Setting} {inner value : Value} {m : Mark} {formats : List Value}
      (hs : s ≠ .timeFormat) (h : Meets c ((s, value) :: r) inner m formats) :
      Meets c r (.expr (.setting s) [inner, value]) m formats
  | verb {r : Trail} {v : Verb} {args : List Value} {a : Arrangement} {m : Mark}
      {formats : List Value} (ha : v.arrange args = .ok a)
      (h : MeetsEach c r ((a.receiver c ++ a.positional) ++ (a.named.map (·.2) ++
        (v.sent (r.value c)).map (·.2))) m formats) :
      Meets c r (.expr (.verb v) args) m formats

/-- The time formats that are met in values that are compiled one after the other. -/
inductive MeetsEach (c : Scope) : Trail → List Value → Mark → List Value → Prop where
  | nil {r : Trail} {m : Mark} : MeetsEach c r [] m []
  | cons {r : Trail} {v : Value} {vs : List Value} {m m₁ : Mark} {o : Outline}
      {formats later : List Value} (h : Meets c r v m formats) (ho : Lowers c r v m o m₁)
      (hs : MeetsEach c r vs m₁ later) : MeetsEach c r (v :: vs) m (formats ++ later)

/-- The time formats that are met in what a callable returns. -/
inductive MeetsCall (c : Scope) : Trail → Value → Value → Mark → List Value → Prop where
  | call {r : Trail} {face : Face} {run : List Nat → Except Failure Value} {hint result : Value}
      {m : Mark} {count : Nat} {formats : List Value} (htype : face.isType = false)
      (hcount : parametersOf face hint = .ok count)
      (hresult : run (List.range' m.next count) = .ok result)
      (h : Meets c r result (m.skip count) formats) : MeetsCall c r (.func face run) hint m formats

end

/-! ### There is one list at most -/

mutual

theorem Meets.determined {c : Scope} {r : Trail} {v : Value} {m : Mark} {fs gs : List Value} :
    Meets c r v m fs → Meets c r v m gs → fs = gs
  | .scalar h, h' => by
      cases h' with
      | callable h' => cases h' with | call => cases h
      | scalar | moment | row | placeholder => rfl
      | _ => cases h
  | .moment, h' => by
      cases h' with
      | callable h' => cases h'
      | _ => rfl
  | .list h, h' => by
      cases h' with
      | scalar h' => cases h'
      | callable h' => cases h'
      | list h' => exact h.determined h'
  | .tuple h, h' => by
      cases h' with
      | scalar h' => cases h'
      | callable h' => cases h'
      | tuple h' => exact h.determined h'
  | .dict h, h' => by
      cases h' with
      | scalar h' => cases h'
      | callable h' => cases h'
      | dict h' => exact h.determined h'
  | .mapping h, h' => by
      cases h' with
      | scalar h' => cases h'
      | callable h' => cases h'
      | mapping h' => exact h.determined h'
  | .row, h' => by
      cases h' with
      | callable h' => cases h'
      | _ => rfl
  | .placeholder, h' => by
      cases h' with
      | callable h' => cases h'
      | _ => rfl
  | .callable h, h' => by
      cases h' with
      | callable h' => exact h.determined h'
      | scalar h' => cases h with | call => cases h'
      | _ => cases h
  | .literal h, h' => by
      cases h' with
      | scalar h' => cases h'
      | callable h' => cases h'
      | literal h' => exact h.determined h'
  | .applied h, h' => by
      cases h' with
      | scalar h' => cases h'
      | callable h' => cases h'
      | applied h' => exact h.determined h'
      | body happlied h' =>
          cases h with
          | call htype => simp [Value.isApplied, htype] at happlied
  | .body happlied h, h' => by
      cases h' with
      | scalar h' => cases h'
      | callable h' => cases h'
      | applied h' =>
          cases h' with
          | call htype => simp [Value.isApplied, htype] at happlied
      | body happlied' h' => exact h.determined h'
  | .format h, h' => by
      cases h' with
      | scalar h' => cases h'
      | callable h' => cases h'
      | format h' => rw [h.determined h']
      | setting hs h' => exact absurd rfl hs
  | .setting hs h, h' => by
      cases h' with
      | scalar h' => cases h'
      | callable h' => cases h'
      | format h' => exact absurd rfl hs
      | setting hs' h' => exact h.determined h'
  | .verb ha h, h' => by
      cases h' with
      | scalar h' => cases h'
      | callable h' => cases h'
      | verb ha' h' =>
          cases ha.symm.trans ha'
          exact h.determined h'

theorem MeetsEach.determined {c : Scope} {r : Trail} {vs : List Value} {m : Mark}
    {fs gs : List Value} : MeetsEach c r vs m fs → MeetsEach c r vs m gs → fs = gs
  | .nil, .nil => rfl
  | .cons h ho hs, .cons h' ho' hs' => by
      obtain ⟨-, rfl⟩ := ho.determined ho'
      rw [h.determined h', hs.determined hs']

theorem MeetsCall.determined {c : Scope} {r : Trail} {v hint : Value} {m : Mark}
    {fs gs : List Value} : MeetsCall c r v hint m fs → MeetsCall c r v hint m gs → fs = gs
  | .call _ hcount hresult h, h' => by
      cases h' with
      | call htype' hcount' hresult' h' =>
          cases hcount.symm.trans hcount'
          cases hresult.symm.trans hresult'
          exact h.determined h'

end

/-! ### The one that is kept -/

/-- What is kept of time formats that are met after another one. -/
def firstMet (format : Value) (formats : List Value) : Value :=
  formats.foldl (fun kept format => if kept.truthy then kept else format) format

theorem firstMet_append (format : Value) (fs gs : List Value) :
    firstMet format (fs ++ gs) = firstMet (firstMet format fs) gs :=
  List.foldl_append

theorem firstMet_of_truthy {format : Value} (h : format.truthy = true) (formats : List Value) :
    firstMet format formats = format := by
  induction formats with
  | nil => rfl
  | cons f fs ih => rw [firstMet, List.foldl_cons, if_pos h, ← firstMet, ih]

/-- When all that is met counts as true, the first one is kept. -/
theorem firstMet_eq_headD {format : Value} (h : format.truthy = false) {formats : List Value}
    (hformats : ∀ f ∈ formats, f.truthy = true) :
    firstMet format formats = formats.headD format := by
  cases formats with
  | nil => rfl
  | cons f fs =>
      have hf : f.truthy = true := hformats f List.mem_cons_self
      rw [firstMet, List.foldl_cons, if_neg (by rw [h]; exact Bool.false_ne_true), ← firstMet,
        firstMet_of_truthy hf, List.headD_cons]

theorem Mark.format_note (m : Mark) (v : Value) :
    (m.note .timeFormat v).format = firstMet m.format [v] := by
  cases h : m.format.truthy <;> simp [note, firstMet, h]

theorem Mark.note_of_ne {s : Setting} (hs : s ≠ .timeFormat) (m : Mark) (v : Value) :
    m.note s v = m :=
  if_neg fun h => hs h.1

/-- Values that are compiled one after the other are compiled in two parts. -/
theorem MeetsEach.append {c : Scope} {r : Trail} {vs ws : List Value} {m m' : Mark}
    {os : List Outline} {fs gs : List Value} (h : MeetsEach c r vs m fs)
    (ho : LowersEach c r vs m os m') (h' : MeetsEach c r ws m' gs) :
    MeetsEach c r (vs ++ ws) m (fs ++ gs) := by
  induction vs generalizing m os fs with
  | nil =>
      cases h
      cases ho
      exact h'
  | cons v vs ih =>
      cases h with
      | cons hv hlowers hs =>
          cases ho with
          | cons hlowers' hos =>
              obtain ⟨-, rfl⟩ := hlowers.determined hlowers'
              rw [List.append_assoc]
              exact .cons hv hlowers (ih hs hos)

mutual

/-- What can be compiled meets some time formats, and the first of them is kept. -/
theorem Lowers.meets {c : Scope} {r : Trail} {v : Value} {m m' : Mark} {o : Outline} :
    Lowers c r v m o m' → ∃ fs, Meets c r v m fs ∧ m'.format = firstMet m.format fs
  | .scalar h => ⟨[], .scalar h, rfl⟩
  | .moment _ => ⟨[], .moment, rfl⟩
  | .row => ⟨[], .row, rfl⟩
  | .placeholder => ⟨[], .placeholder, rfl⟩
  | .list h => by
      obtain ⟨fs, hfs, hformat⟩ := h.meets
      exact ⟨fs, .list hfs, hformat⟩
  | .tuple h => by
      obtain ⟨fs, hfs, hformat⟩ := h.meets
      exact ⟨fs, .tuple hfs, hformat⟩
  | .dict _ h => by
      obtain ⟨fs, hfs, hformat⟩ := h.meets
      exact ⟨fs, .dict hfs, hformat⟩
  | .mapping _ h => by
      obtain ⟨fs, hfs, hformat⟩ := h.meets
      exact ⟨fs, .mapping hfs, hformat⟩
  | .callable h => by
      obtain ⟨fs, hfs, hformat⟩ := h.meets
      exact ⟨fs, .callable hfs, hformat⟩
  | .literal h => by
      obtain ⟨fs, hfs, hformat⟩ := h.meets
      exact ⟨fs, .literal hfs, hformat⟩
  | .applied h => by
      obtain ⟨fs, hfs, hformat⟩ := h.meets
      exact ⟨fs, .applied hfs, hformat⟩
  | .constant happlied h _ => by
      obtain ⟨fs, hfs, hformat⟩ := h.meets
      exact ⟨fs, .body happlied hfs, hformat⟩
  | .wrapped happlied h _ _ => by
      obtain ⟨fs, hfs, hformat⟩ := h.meets
      exact ⟨fs, .body happlied hfs, hformat⟩
  | @Lowers.setting _ _ s _ value _ _ _ h => by
      obtain ⟨fs, hfs, hformat⟩ := h.meets
      by_cases hs : s = .timeFormat
      · subst hs
        refine ⟨value :: fs, .format hfs, ?_⟩
        rw [hformat, Mark.format_note, ← firstMet_append, List.singleton_append]
      · rw [Mark.note_of_ne hs] at hfs hformat
        exact ⟨fs, .setting hs hfs, hformat⟩
  | .verb ha hpositional hown hgiven => by
      obtain ⟨fs, hfs, hformat⟩ := hpositional.meets
      obtain ⟨gs, hgs, hformat₁⟩ := hown.meets
      obtain ⟨hs, hhs, hformat₂⟩ := hgiven.meets
      refine ⟨fs ++ (gs ++ hs), .verb ha (hfs.append hpositional (hgs.append hown hhs)), ?_⟩
      rw [firstMet_append, firstMet_append, ← hformat, ← hformat₁, hformat₂]

theorem LowersEach.meets {c : Scope} {r : Trail} {vs : List Value} {m m' : Mark}
    {os : List Outline} :
    LowersEach c r vs m os m' → ∃ fs, MeetsEach c r vs m fs ∧ m'.format = firstMet m.format fs
  | .nil => ⟨[], .nil, rfl⟩
  | .cons h hs => by
      obtain ⟨fs, hfs, hformat⟩ := h.meets
      obtain ⟨gs, hgs, hformat'⟩ := hs.meets
      exact ⟨fs ++ gs, .cons hfs h hgs, by rw [firstMet_append, ← hformat, hformat']⟩

theorem LowersCall.meets {c : Scope} {r : Trail} {v hint : Value} {m m' : Mark} {o : Outline} :
    LowersCall c r v hint m o m' →
      ∃ fs, MeetsCall c r v hint m fs ∧ m'.format = firstMet m.format fs
  | .call htype hcount _ hresult h => by
      obtain ⟨fs, hfs, hformat⟩ := h.meets
      exact ⟨fs, .call htype hcount hresult hfs, hformat⟩

end

/-! ### What is met is set somewhere -/

section

variable {P : Value → Prop} {c : Scope}

mutual

theorem Meets.forall (hc : c.Formats P) {r : Trail} {v : Value} {m : Mark} {fs : List Value} :
    Meets c r v m fs → v.Formats P → (∀ e ∈ r, e.2.Formats P) → ∀ f ∈ fs, P f
  | .scalar _, _, _ | .moment, _, _ | .row, _, _ | .placeholder, _, _ => nofun
  | .list h, hv, hr => h.forall hc (fun _ hw => hv.part (.item hw)) hr
  | .tuple h, hv, hr => h.forall hc (fun _ hw => hv.part (.component hw)) hr
  | .dict h, hv, hr => h.forall hc (List.forall_mem_map.2 fun _ he => hv.part (.entry he)) hr
  | .mapping h, hv, hr => h.forall hc (List.forall_mem_map.2 fun _ he => hv.part (.image he)) hr
  | .callable h, hv, hr => h.forall hc hv hr
  | .literal h, hv, hr => h.forall hc (hv.part (.argument List.mem_cons_self)) hr
  | .applied h, hv, hr => h.forall hc (hv.part (.argument List.mem_cons_self)) hr
  | .body _ h, hv, hr => h.forall hc (hv.part (.argument List.mem_cons_self)) hr
  | .format h, hv, hr =>
      List.forall_mem_cons.2 ⟨Value.format_of_setting hv rfl,
        h.forall hc (hv.part (.argument List.mem_cons_self)) (List.forall_mem_cons.2
          ⟨hv.part (.argument (List.mem_cons_of_mem _ List.mem_cons_self)), hr⟩)⟩
  | .setting _ h, hv, hr =>
      h.forall hc (hv.part (.argument List.mem_cons_self)) (List.forall_mem_cons.2
        ⟨hv.part (.argument (List.mem_cons_of_mem _ List.mem_cons_self)), hr⟩)
  | .verb ha h, hv, hr => by
      have harranged := Value.formats_arranged hv ha
      refine h.forall hc ?_ hr
      refine List.forall_mem_append.2 ⟨?_, List.forall_mem_append.2 ⟨?_, ?_⟩⟩
      · exact Arrangement.forall_positional hc.receiver
          fun w hw => harranged w (List.mem_append_left _ hw)
      · exact fun w hw => harranged w (List.mem_append_right _ hw)
      · exact Verb.forall_sent _ (Value.formats_bool true) (Trail.formats_value hc hr)

theorem MeetsEach.forall (hc : c.Formats P) {r : Trail} {vs : List Value} {m : Mark}
    {fs : List Value} : MeetsEach c r vs m fs → (∀ v ∈ vs, v.Formats P) →
      (∀ e ∈ r, e.2.Formats P) → ∀ f ∈ fs, P f
  | .nil, _, _ => nofun
  | .cons h _ hs, hvs, hr => by
      obtain ⟨hv, hvs⟩ := List.forall_mem_cons.1 hvs
      exact List.forall_mem_append.2 ⟨h.forall hc hv hr, hs.forall hc hvs hr⟩

theorem MeetsCall.forall (hc : c.Formats P) {r : Trail} {v hint : Value} {m : Mark}
    {fs : List Value} : MeetsCall c r v hint m fs → v.Formats P → (∀ e ∈ r, e.2.Formats P) →
      ∀ f ∈ fs, P f
  | .call _ _ hresult h, hv, hr => h.forall hc (hv.part (.result hresult)) hr

end

end

end QueryDriver
