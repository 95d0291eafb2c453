import QueryDriver.Proofs.Compilation.Agreement
import QueryDriver.Proofs.Lowering.Meeting
import QueryDriver.Proofs.Lowering.Oblivious

/-!
# The time format of a query

A query has one time format at most. It is the first one that the compilation of its value meets,
and it stands among the options of the query; without one the native format is meant. The
builders let only two formats pass, both of which count as true, so the first one that is met is
never given up for a later one. The time format of the scope has no part in this.
-/

namespace QueryDriver

open Wire

/-- One of the two formats of times. -/
def Value.IsTimeFormat (v : Value) : Prop := v = .text "native" ∨ v = .text "raw"

theorem Value.IsTimeFormat.truthy {v : Value} (h : v.IsTimeFormat) : v.truthy = true := by
  obtain rfl | rfl := h <;> rfl

/-! ### What the builders let pass -/

theorem Value.isTimeFormat_of_checkChoice {what : String} {v w : Value}
    (h : v.checkChoice what ["native", "raw"] = .ok w) : w.IsTimeFormat := by
  obtain ⟨s, hs, rfl⟩ := checkChoice_ok h
  simpa [IsTimeFormat] using hs

/-- The role of an argument that is one of the two formats. -/
def Role.offersFormats : Role → Bool
  | .choice _ choices => choices == ["native", "raw"]
  | _ => false

/-- If the row sets a time format, it takes one of the two formats and nothing else. -/
def Row.offersFormats (row : Row) : Bool :=
  row.op != .setting .timeFormat ||
    (row.isFixed && match row.params with
      | [p] => p.role.offersFormats
      | _ => false)

theorem Catalog.offersFormats_rows : (methods ++ functions).all Row.offersFormats = true := by
  decide +kernel

theorem Role.isTimeFormat_of_convert {role : Role} {v w : Value} (hrole : role.offersFormats = true)
    (h : role.convert v = .ok [w]) : w.IsTimeFormat := by
  cases role with
  | choice what choices =>
      obtain rfl : choices = ["native", "raw"] := by simpa [offersFormats] using hrole
      obtain ⟨x, hx, hw⟩ := map_ok h
      cases hw
      exact Value.isTimeFormat_of_checkChoice hx
  | _ => cases hrole

theorem Row.formatIs_apply {row : Row} (hrow : row.offersFormats = true) {receiver : List Value}
    {args : Arguments} {v : Value} (h : row.apply receiver args = .ok v) :
    v.FormatIs Value.IsTimeFormat := by
  unfold Value.FormatIs
  split
  · rename_i inner format
    obtain ⟨_, _, _, _, _, -, -, -, -, -, -, hv⟩ := apply_ok h
    obtain ⟨hop, -⟩ := Value.expr.inj hv
    simp only [offersFormats, ← hop, bne_self_eq_false, Bool.false_or, Bool.and_eq_true] at hrow
    obtain ⟨hfixed, hformat⟩ := hrow
    split at hformat
    · rename_i p hparams
      obtain ⟨ws, last, w, hv, -, hconvert, -⟩ :=
        apply_fixed_last hfixed (show row.params = [] ++ [p] from hparams) h
      obtain ⟨-, hargs⟩ := Value.expr.inj hv
      have hlast : format = w := by simpa using congrArg List.getLast? hargs
      rw [hlast]
      exact Role.isTimeFormat_of_convert hformat hconvert
    · cases hformat
  · trivial

theorem Value.formatIs_upheld : Upheld (FormatIs IsTimeFormat) where
  bare h := by
    unfold FormatIs
    split
    · exact absurd rfl (h _ _)
    · trivial
  literal v := trivial
  func h body := trivial
  free h args := trivial
  made hrow _ _ h := Row.formatIs_apply (List.all_eq_true.1 Catalog.offersFormats_rows _ hrow) h

/-- Every time format that is set in a built value is one of the two. -/
theorem Value.Built.formats {v : Value} (h : v.Built) : v.Formats IsTimeFormat :=
  h.throughout formatIs_upheld

/-! ### The option of the query -/

/-- The query asks for the first of the formats, if there is one, and for nothing else. -/
structure Wire.Query.AsksFor (q : Query) (formats : List Value) : Prop where
  options : q.options =
    (formats.head?.map fun f => (some "time_format", some f.settingTerm)).toList
  timeFormat : timeFormatOf q = .ok (formats.headD (.text "native"))

theorem asksFor_of_queryOptions {formats : List Value} (h : ∀ f ∈ formats, f.IsTimeFormat)
    {options : List (Option String × Option Term)}
    (hoptions : queryOptions (formats.headD (.text "")) = .ok options) (root : Term)
    (token : Int64) : (startQuery root token options).AsksFor formats := by
  cases formats with
  | nil =>
      cases hoptions
      exact ⟨rfl, rfl⟩
  | cons f fs =>
      obtain rfl | rfl := h f List.mem_cons_self <;> cases hoptions <;> exact ⟨rfl, rfl⟩

/-- The time format of the scope has no influence on what a value is compiled to. -/
theorem compile_set_timeFormat (v : Value) (c : Scope) (f : Value) (token : Int64) :
    compile v (c.set .timeFormat f) token = compile v c token := by
  unfold compile lowerShared
  rw [lower_set_timeFormat]

/-- A query asks for the first time format that its compilation meets. -/
theorem asksFor_of_compile {v : Value} (hv : v.Built) {c : Scope} (hc : c.Typed) {token : Int64}
    {j j' : Journal} {q : Query} (h : (compile v c token).run j = (.ok q, j')) :
    ∃ formats, Meets c [] v j.progress.mark formats ∧ (∀ f ∈ formats, f.IsTimeFormat) ∧
      q.AsksFor formats := by
  obtain ⟨root, p, hlower, -, -⟩ := compile_eq_ok h
  rw [compile_of_ok hlower] at h
  obtain ⟨options, hoptions, rfl⟩ := map_ok (congrArg Prod.fst h)
  obtain ⟨o, ho, -⟩ := lower_becomes (r := []) v hlower
  obtain ⟨formats, hmeets, hformat⟩ := ho.meets
  have hall := hmeets.forall hc.formats hv.formats nofun
  have hfirst : p.timeFormat = formats.headD (.text "") :=
    hformat.trans (firstMet_eq_headD rfl fun f hf => (hall f hf).truthy)
  rw [hfirst] at hoptions
  exact ⟨formats, hmeets, hall, asksFor_of_queryOptions hall hoptions root token⟩

/-- The compilation of a built value has no failure that is no error of the driver. -/
theorem compile_error_driver {v : Value} (hv : v.Built) {c : Scope} (hc : c.Typed) {token : Int64}
    {j j' : Journal} {f : Failure} (h : (compile v c token).run j = (.error f, j')) :
    ∃ e, f = .driver e := by
  rcases hlower : (v.lower c).run j.progress with ⟨g | root, p⟩
  · have hfailed := compile_of_error hlower token
    rw [h] at hfailed
    exact ⟨_, Except.error.inj hfailed⟩
  · obtain ⟨options, hoptions⟩ := queryOptions_of_lower hv.laidOut hc hlower
    rw [compile_of_ok hlower, hoptions] at h
    cases h

end QueryDriver
