import Mathlib.Algebra.Ring.Int.Defs
import QueryDriver.Compilation
import QueryDriver.Proofs.Lowering.Derivation

/-!
# What leaves the compiler

`compile_run` is what a compilation does in full: lower the value, report what went wrong,
or put the query together. Everything that goes wrong while the value is lowered comes out
as a driver error about that value. The time format of the query is sent in a step of its
own, behind the boundary: what goes wrong there comes out as it is.
-/

namespace QueryDriver

open Wire

namespace Journal

/-- Where a compilation starts. -/
def progress (j : Journal) : Progress := ⟨j.next, j.calls, .text ""⟩

/-- The journal after a value was lowered. -/
def resume (j : Journal) (p : Progress) : Journal := { j with next := p.next, calls := p.calls }

@[simp] theorem describe_fst (j : Journal) (v : Value) : (j.describe v).1 = v.describe.1 := by
  unfold describe
  dsimp only
  split <;> simp_all

end Journal

/-- The driver error that a failure of lowering is reported as. -/
def Failure.report (v : Value) : Failure → DriverError
  | .driver e => e.withQuery v.describe.1
  | .fault f => { DriverError.ofCause (.escaped f.kind.word f.shown) with query := v.describe.1 }

/-- The query that starts a term. -/
def startQuery (root : Term) (token : Int64) (options : List (Option String × Option Term)) :
    Query :=
  { Query.empty with
    tag := some QueryType.start.code
    term := some root
    token := some token
    options := options }

theorem run_lowerShared {v : Value} {c : Scope} {j : Journal} {o : Except Failure Term}
    {p : Progress} (h : (v.lower c).run j.progress = (o, p)) :
    (lowerShared v c).run j = (o.map fun t => (t, p.timeFormat), j.resume p) := by
  have hrun : (lowerShared v c).run j =
      (((v.lower c).run j.progress).1.map fun t => (t, ((v.lower c).run j.progress).2.timeFormat),
        j.resume ((v.lower c).run j.progress).2) := rfl
  rw [hrun, h]

theorem run_describing (v : Value) (j : Journal) :
    (describing v).run j = (.ok v.describe.1, (j.describe v).2) := by
  have hrun : (describing v).run j = (.ok (j.describe v).1, (j.describe v).2) := rfl
  rw [hrun, Journal.describe_fst]

theorem run_reported (v : Value) (f : Failure) (j : Journal) :
    ∃ j', (reported v f).run j = (.ok (f.report v), j') := by
  cases f with
  | driver e =>
      have hrun : (reported v (.driver e)).run j = (pure (e.withQuery v.describe.1) :
          Compiling DriverError).run (j.describe v).2 := run_bind_of_ok (run_describing v j)
      exact ⟨_, hrun⟩
  | fault f =>
      have hrecord : (modify (·.record .compileFault) : Compiling Unit).run j =
          (.ok (), j.record .compileFault) := rfl
      have hrun : (reported v (.fault f)).run j = (pure (Failure.report v (.fault f)) :
          Compiling DriverError).run ((j.record .compileFault).describe v).2 :=
        (run_bind_of_ok hrecord).trans (run_bind_of_ok (run_describing v _))
      exact ⟨_, hrun⟩

/-- A value that was lowered is put in a query, unless the time format cannot be sent. -/
theorem compile_of_ok {v : Value} {c : Scope} {j : Journal} {root : Term} {p : Progress}
    (h : (v.lower c).run j.progress = (.ok root, p)) (token : Int64) :
    (compile v c token).run j =
      ((queryOptions p.timeFormat).map (startQuery root token), j.resume p) := by
  have htry :
      (tryCatch (lowerShared v c) fun f => reported v f >>= fun e => throw (.driver e)).run j =
      (.ok (root, p.timeFormat), j.resume p) := by
    rw [run_tryCatch, run_lowerShared h]
    rfl
  unfold compile
  rw [run_bind_of_ok htry]
  dsimp only
  cases queryOptions p.timeFormat <;> rfl

/-- A failure of lowering is reported. -/
theorem compile_of_error {v : Value} {c : Scope} {j : Journal} {f : Failure} {p : Progress}
    (h : (v.lower c).run j.progress = (.error f, p)) (token : Int64) :
    ((compile v c token).run j).1 = .error (.driver (f.report v)) := by
  obtain ⟨j', hreported⟩ := run_reported v f (j.resume p)
  have htry :
      (tryCatch (lowerShared v c) fun f => reported v f >>= fun e => throw (.driver e)).run j =
      (.error (.driver (f.report v)), j') := by
    rw [run_tryCatch, run_lowerShared h]
    exact (run_bind_of_ok hreported).trans rfl
  unfold compile
  rw [run_bind_of_error htry]

theorem compile_eq_ok {v : Value} {c : Scope} {token : Int64} {j j' : Journal} {q : Query}
    (h : (compile v c token).run j = (.ok q, j')) :
    ∃ root p, (v.lower c).run j.progress = (.ok root, p) ∧ q.term = some root ∧
      j' = j.resume p := by
  rcases hlower : (v.lower c).run j.progress with ⟨f | root, p⟩
  · have hfailed := compile_of_error hlower token
    rw [h] at hfailed
    cases hfailed
  · rw [compile_of_ok hlower] at h
    obtain ⟨hq, rfl⟩ := Prod.mk.inj h
    cases hoptions : queryOptions p.timeFormat <;> rw [hoptions] at hq <;> cases hq
    exact ⟨root, p, rfl, rfl, rfl⟩

/-! ### The time format of a query -/

/-- A time format that is set right here satisfies `P`. -/
def Value.FormatIs (P : Value → Prop) : Value → Prop
  | .expr (.setting .timeFormat) [_, format] => P format
  | _ => True

/-- Every time format that is set somewhere in the value satisfies `P`. -/
abbrev Value.Formats (P : Value → Prop) : Value → Prop := Value.Throughout (Value.FormatIs P)

/-- Every time format that is set in a value which the scope carries satisfies `P`. -/
structure Scope.Formats (P : Value → Prop) (c : Scope) : Prop where
  database : c.database.Formats P
  setting (s : Setting) : (c.get s).Formats P

section Formats

variable {P : Value → Prop}

theorem Value.formats_text (s : String) : (Value.text s).Formats P :=
  .of_parts trivial (Value.forall_isPart_leaf rfl)

theorem Value.formats_bool (b : Bool) : (Value.bool b).Formats P :=
  .of_parts trivial (Value.forall_isPart_leaf rfl)

/-- An operation of the server sets no time format, only its arguments may. -/
theorem Value.formats_verb {v : Verb} {args : List Value} (h : ∀ w ∈ args, w.Formats P) :
    (Value.expr (.verb v) args).Formats P := by
  refine .of_parts trivial fun w hw => ?_
  cases hw with
  | argument hw => exact h w hw

theorem Value.formats_arranged {v : Verb} {args : List Value} {a : Arrangement}
    (h : (Value.expr (.verb v) args).Formats P) (ha : v.arrange args = .ok a) :
    ∀ w ∈ a.positional ++ a.named.map (·.2), w.Formats P :=
  Verb.forall_of_arrange ha (fun _ hw => h.below hw) Value.formats_text

theorem Value.format_of_setting {s : Setting} {inner format : Value}
    (h : (Value.expr (.setting s) [inner, format]).Formats P) (hs : s = .timeFormat) :
    P format := by
  subst hs
  exact h.self

theorem Scope.Formats.receiver {c : Scope} (hc : c.Formats P) : c.receiver.Formats P :=
  Value.formats_verb (List.forall_mem_singleton.2 hc.database)

theorem Trail.formats_value {c : Scope} {r : Trail} (hc : c.Formats P)
    (hr : ∀ e ∈ r, e.2.Formats P) (s : Setting) : (r.value c s).Formats P := by
  unfold Trail.value
  split
  · exact hr _ (List.mem_of_find?_eq_some ‹_›)
  · exact hc.setting s

theorem Mark.note_format {m : Mark} {s : Setting} {v : Value} (hv : s = .timeFormat → P v)
    (h : P m.format) : P (m.note s v).format := by
  unfold note
  split
  · exact hv (And.left ‹_›)
  · exact h

mutual

/-- The time format of a query is one that is set somewhere in it. -/
theorem Lowers.format {c : Scope} (hc : c.Formats P) {r : Trail} {v : Value} {m m' : Mark}
    {o : Outline} :
    Lowers c r v m o m' → v.Formats P → (∀ e ∈ r, e.2.Formats P) → P m.format → P m'.format
  | .scalar _, _, _, hm | .moment _, _, _, hm | .row, _, _, hm | .placeholder, _, _, hm => hm
  | .list h, hv, hr, hm => h.format hc (fun _ hw => hv.part (.item hw)) hr hm
  | .tuple h, hv, hr, hm => h.format hc (fun _ hw => hv.part (.component hw)) hr hm
  | .dict _ h, hv, hr, hm =>
      h.format hc (List.forall_mem_map.2 fun _ he => hv.part (.entry he)) hr hm
  | .mapping _ h, hv, hr, hm =>
      h.format hc (List.forall_mem_map.2 fun _ he => hv.part (.image he)) hr hm
  | .callable h, hv, hr, hm => h.format hc hv hr hm
  | .literal h, hv, hr, hm => h.format hc (hv.part (.argument List.mem_cons_self)) hr hm
  | .applied h, hv, hr, hm => h.format hc (hv.part (.argument List.mem_cons_self)) hr hm
  | .constant _ h _, hv, hr, hm => h.format hc (hv.part (.argument List.mem_cons_self)) hr hm
  | .wrapped _ h _ _, hv, hr, hm => h.format hc (hv.part (.argument List.mem_cons_self)) hr hm
  | .setting h, hv, hr, hm =>
      h.format hc (hv.part (.argument List.mem_cons_self))
        (List.forall_mem_cons.2
          ⟨hv.part (.argument (List.mem_cons_of_mem _ List.mem_cons_self)), hr⟩)
        (Mark.note_format (Value.format_of_setting hv) hm)
  | .verb ha hpositional hown hgiven, hv, hr, hm =>
      hgiven.format hc (Verb.forall_sent _ (Value.formats_bool true) (Trail.formats_value hc hr)) hr
        (hown.format hc (fun w hw => Value.formats_arranged hv ha w (List.mem_append_right _ hw)) hr
          (hpositional.format hc (Arrangement.forall_positional hc.receiver
            fun w hw => Value.formats_arranged hv ha w (List.mem_append_left _ hw)) hr hm))

theorem LowersEach.format {c : Scope} (hc : c.Formats P) {r : Trail} {vs : List Value}
    {m m' : Mark} {os : List Outline} :
    LowersEach c r vs m os m' → (∀ v ∈ vs, v.Formats P) → (∀ e ∈ r, e.2.Formats P) →
      P m.format → P m'.format
  | .nil, _, _, hm => hm
  | .cons h hs, hvs, hr, hm =>
      hs.format hc (fun v hv => hvs v (List.mem_cons_of_mem _ hv)) hr
        (h.format hc (hvs _ List.mem_cons_self) hr hm)

theorem LowersCall.format {c : Scope} (hc : c.Formats P) {r : Trail} {v hint : Value}
    {m m' : Mark} {o : Outline} :
    LowersCall c r v hint m o m' → v.Formats P → (∀ e ∈ r, e.2.Formats P) →
      P m.format → P m'.format
  | .call _ _ _ hresult h, hv, hr, hm => h.format hc (hv.part (.result hresult)) hr hm

end

end Formats

/-! ### The boundary -/

theorem report_driver (v : Value) (e : DriverError) :
    Failure.report v (.driver e) = { e with query := e.query.or v.describe.1 } := by
  obtain ⟨cause, code, query, trace, response⟩ := e
  cases query <;> rfl

/-- What a compilation may come to, given what lowering the value came to: a query that
starts it, the same driver error with the text of the value for its query unless it had
one, or an internal error with that text which wraps what was no driver error. -/
inductive Recovered (v : Value) (token : Int64) :
    Except Failure Term → Except Failure Query → Prop where
  | started {root : Term} {q : Query} (htag : q.tag = some QueryType.start.code)
      (hterm : q.term = some root) (htoken : q.token = some token) :
      Recovered v token (.ok root) (.ok q)
  | own {e : DriverError} :
      Recovered v token (.error (.driver e))
        (.error (.driver { e with query := e.query.or v.describe.1 }))
  | wrapped {f : Fault} {e : DriverError} (hcategory : e.category = .internal)
      (hcause : e.cause = .escaped f.kind.word f.shown) (hquery : e.query = v.describe.1) :
      Recovered v token (.error (.fault f)) (.error (.driver e))

/-- A value that counts as false or can be sent. -/
def Value.Sendable (v : Value) : Prop := v.truthy = false ∨ ∃ t, v.marshal 0 = .ok t

theorem queryOptions_ok {v : Value} (h : v.Sendable) : ∃ options, queryOptions v = .ok options := by
  unfold queryOptions
  cases htruthy : v.truthy with
  | false => exact ⟨_, rfl⟩
  | true =>
      obtain hfalse | ⟨t, ht⟩ := h
      · rw [htruthy] at hfalse
        cases hfalse
      · simp only [if_true, ht]
        exact ⟨_, rfl⟩

/-- What goes wrong in a compilation is recovered, with one exception: where lowering went
well and met a time format that cannot be sent, that failure comes out as it is. It cannot
where all time formats that are set in the value and in the scope can be sent. -/
theorem compile_recovered (v : Value) (c : Scope) (token : Int64) (j : Journal) :
    (Recovered v token ((v.lower c).run j.progress).1 ((compile v c token).run j).1 ∨
      ∃ root p f, (v.lower c).run j.progress = (.ok root, p) ∧ p.timeFormat.truthy = true ∧
        p.timeFormat.marshal 0 = .error f ∧ ((compile v c token).run j).1 = .error f) ∧
    (v.Formats Value.Sendable → c.Formats Value.Sendable →
      Recovered v token ((v.lower c).run j.progress).1 ((compile v c token).run j).1) := by
  rcases hlower : (v.lower c).run j.progress with ⟨f | root, p⟩
  · have hrecovered : Recovered v token (.error f) ((compile v c token).run j).1 := by
      rw [compile_of_error hlower]
      cases f with
      | driver e =>
          rw [report_driver]
          exact .own
      | fault f => exact .wrapped rfl rfl rfl
    exact ⟨.inl hrecovered, fun _ _ => hrecovered⟩
  · have hstarted {options : List (Option String × Option Term)}
        (hoptions : queryOptions p.timeFormat = .ok options) :
        Recovered v token (.ok root) ((compile v c token).run j).1 := by
      rw [compile_of_ok hlower, hoptions]
      exact .started rfl rfl rfl
    constructor
    · cases hoptions : queryOptions p.timeFormat with
      | ok options => exact .inl (hstarted hoptions)
      | error f =>
          have hmarshal : p.timeFormat.truthy = true ∧ p.timeFormat.marshal 0 = .error f := by
            unfold queryOptions at hoptions
            split at hoptions
            case isTrue htruthy =>
              refine ⟨htruthy, ?_⟩
              cases hterm : p.timeFormat.marshal 0 <;> rw [hterm] at hoptions <;> cases hoptions
              rfl
            case isFalse => cases hoptions
          refine .inr ⟨root, p, f, rfl, hmarshal.1, hmarshal.2, ?_⟩
          rw [compile_of_ok hlower, hoptions]
          rfl
    · intro hv hc
      obtain ⟨o, ho, -⟩ := lower_becomes (r := []) v hlower
      obtain ⟨options, hoptions⟩ := queryOptions_ok (ho.format hc hv nofun (.inl rfl))
      exact hstarted hoptions

/-- A table whose times are asked for in a format. -/
def tableWithFormat (format : Value) : Value :=
  .expr (.setting .timeFormat) [.expr (.verb .table) [.text "t"], format]

theorem lower_tableWithFormat (format : Value) : ∃ root,
    ((tableWithFormat format).lower .initial).run Journal.fresh.progress =
      (.ok root, ⟨1, 0, format⟩) := ⟨_, rfl⟩

theorem marshal_int_of_tooLarge {n : Int} (h : Double.ofInt? n = none) :
    (Value.int n).marshal 0 = .error (.fault .integerTooLarge) := by
  have hscalar : (Value.int n).scalar? = .error (.fault .integerTooLarge) := by
    simp only [Value.scalar?, Value.toDouble?, h]
  change (Value.scalar? (.int n) >>= _) = _
  rw [hscalar]
  rfl

/-- A format that is a text is sent. An integer that no double can hold lets the fault of its
conversion out. -/
theorem compile_tableWithFormat :
    Recovered (tableWithFormat (.text "raw")) 1
      (((tableWithFormat (.text "raw")).lower .initial).run Journal.fresh.progress).1
      ((compile (tableWithFormat (.text "raw")) .initial 1).run .fresh).1 ∧
    ((compile (tableWithFormat (.int (2 ^ 1024))) .initial 1).run .fresh).1 =
      .error (.fault .integerTooLarge) := by
  constructor
  · refine (compile_recovered _ _ _ _).2 (.of_parts (.inr ⟨_, rfl⟩) fun w hw => ?_)
      ⟨Value.formats_text _, fun s => ?_⟩
    · cases hw with
      | argument hw =>
          simp only [List.mem_cons, List.not_mem_nil, or_false] at hw
          obtain rfl | rfl := hw
          · exact Value.formats_verb (List.forall_mem_singleton.2 (Value.formats_text _))
          · exact Value.formats_text _
    · cases s <;> first | exact Value.formats_text _ | exact Value.formats_bool _
  · obtain ⟨root, hroot⟩ := lower_tableWithFormat (.int (2 ^ 1024))
    have htruthy : (Value.int (2 ^ 1024)).truthy = true := by decide +kernel
    have hlarge : Double.ofInt? (2 ^ 1024) = none := by decide +kernel
    rw [compile_of_ok hroot, queryOptions, if_pos htruthy, marshal_int_of_tooLarge hlarge]
    rfl

end QueryDriver
