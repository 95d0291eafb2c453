import QueryDriver.Proofs.Compilation.Boundary
import QueryDriver.Proofs.Lowering.Refusal

/-!
# Builders and compiler agree

The compiler takes it for granted how the arguments of a node are laid out: it pops the last
one, unpacks two, looks at the first, counts them. The builders lay them out that way, so
what they build either becomes a query or is refused as a mistake of the client. An internal
error would mean that one of those steps had failed.
-/

namespace QueryDriver

/-- A format of times that is set by a builder is a text. -/
theorem Value.LaidOut.formats {v : Value} (h : v.LaidOut) :
    v.Formats fun format => ∃ s, format = .text s := by
  refine h.mono fun w hw => ?_
  unfold Value.FormatIs
  split
  · obtain ⟨inner, value, hargs, -, hvalue⟩ := hw _ _ rfl
    cases hargs
    exact hvalue
  · trivial

/-- A scope carries no value in which a time format is set. -/
theorem Scope.Typed.formats {P : Value → Prop} {c : Scope} (hc : c.Typed) : c.Formats P := by
  constructor
  · obtain ⟨s, hs⟩ := hc.database
    rw [hs]
    exact Value.formats_text s
  · intro s
    obtain ⟨b, hb⟩ | ⟨t, ht⟩ := (hc.setting s).bool_or_text
    · rw [hb]
      exact Value.formats_bool b
    · rw [ht]
      exact Value.formats_text t

theorem Failure.report_isRefusal {v : Value} {f : Failure} (h : f.IsRefused) :
    (f.report v).IsRefusal := by
  obtain ⟨e, rfl, he⟩ := h
  rw [report_driver]
  exact he

/-- The time format of what was compiled can be sent. -/
theorem queryOptions_of_lower {v : Value} (hv : v.LaidOut) {c : Scope} (hc : c.Typed) {j : Journal}
    {root : Wire.Term} {p : Progress} (h : (v.lower c).run j.progress = (.ok root, p)) :
    ∃ options, queryOptions p.timeFormat = .ok options := by
  obtain ⟨o, ho, -⟩ := lower_becomes (r := []) v h
  obtain ⟨s, hs⟩ : ∃ s, p.timeFormat = .text s :=
    ho.format hc.formats hv.formats nofun ⟨"", rfl⟩
  exact queryOptions_ok (.inr ⟨_, by rw [hs]; rfl⟩)

/-- A value that is laid out and behaves becomes a query, or it is refused. -/
theorem compile_of_laidOut {v : Value} (hv : v.LaidOut) (h : v.Behaves Value.anyCount) {c : Scope}
    (hc : c.Typed) (token : Int64) (j : Journal) :
    (∃ q, ((compile v c token).run j).1 = .ok q) ∨
      ∃ e, ((compile v c token).run j).1 = .error (.driver e) ∧ e.IsRefusal := by
  rcases hlower : (v.lower c).run j.progress with ⟨f | root, p⟩
  · refine .inr ⟨_, compile_of_error hlower token, ?_⟩
    exact Failure.report_isRefusal (tame_lower hv h hc j.progress f (by rw [hlower]))
  · obtain ⟨options, hoptions⟩ := queryOptions_of_lower hv hc hlower
    rw [compile_of_ok hlower, hoptions]
    exact .inl ⟨_, rfl⟩

/-- A callable with two parameters, written in place. -/
def Face.binary : Face := .function Face.anonymous ⟨["x", "y"], [], false, []⟩

/-- The sum of two placeholders. -/
def addition : Value :=
  .func .binary fun
    | [x, y] => (Value.placeholder x).method "add" ⟨[.placeholder y], []⟩
    | _ => .ok .null

/-- A table whose rows are added up. -/
def total : Value :=
  .expr (.verb .reduce) [.expr (.verb .table) [.text "t"], .expr .func [addition, .int 2], .absent]

theorem method_total : (Value.expr (.verb .table) [.text "t"]).method "reduce" ⟨[addition], []⟩ =
    .ok total := rfl

theorem fitsDouble_int {n : Int} (h : (Double.ofInt? n).isSome = true) :
    (Value.int n).FitsDouble := by
  obtain ⟨x, hx⟩ := Option.isSome_iff_exists.1 h
  intro f hf
  simp only [Value.toDouble?, hx] at hf
  cases hf

theorem add_placeholders (x y : Nat) : (Value.placeholder x).method "add" ⟨[.placeholder y], []⟩ =
    .ok (.expr (.verb .add) [.placeholder x, .placeholder y]) := rfl

theorem addition_cases {params : List Nat} {w : Value}
    (h : (match params with
      | [x, y] => (Value.placeholder x).method "add" ⟨[.placeholder y], []⟩
      | _ => .ok .null) = .ok w) :
    (∃ x y, (Value.placeholder x).method "add" ⟨[.placeholder y], []⟩ = .ok w) ∨ w = .null := by
  split at h
  · exact .inl ⟨_, _, h⟩
  · cases h
    exact .inr rfl

theorem built_total : total.Built := by
  have htable : Query.call "table" ⟨[.text "t"], []⟩ = .ok (.expr (.verb .table) [.text "t"]) := rfl
  refine .method (.call (by decide) ?_ (List.forall_mem_nil _) htable) ?_ (List.forall_mem_nil _)
    method_total
  · exact List.forall_mem_singleton.2 (.leaf rfl)
  · refine List.forall_mem_singleton.2 (.callable fun params w h => ?_)
    obtain ⟨x, y, h⟩ | rfl := addition_cases h
    · exact .method (.leaf rfl) (List.forall_mem_singleton.2 (.leaf rfl)) (List.forall_mem_nil _) h
    · exact .leaf rfl

theorem behaves_total : total.Behaves Value.anyCount := by
  have hcount {count : Nat} (h : Face.binary.IsCalledWith (.int 2) count) : count = 2 := by
    have htwo : parametersOf .binary (.int 2) = .ok 2 := rfl
    obtain ⟨-, h⟩ := h
    rw [htwo] at h
    exact (Except.ok.inj h).symm
  have haddition : addition.Behaves (.int 2) := by
    refine .callable (fun count h => ?_) (fun params h => ?_) fun params w h hw => ?_
    · rw [hcount h]
      rfl
    · obtain ⟨x, y, rfl⟩ := List.length_eq_two.1 (hcount h)
      exact ⟨_, add_placeholders x y⟩
    · obtain ⟨x, y, rfl⟩ := List.length_eq_two.1 (hcount h)
      obtain rfl := Except.ok.inj ((add_placeholders x y).symm.trans hw)
      have hplaceholder (n : Nat) : (Value.placeholder n).Behaves Value.anyCount :=
        .leaf rfl (Value.fitsDouble_of_none rfl)
      exact .node rfl (List.forall_mem_cons.2
        ⟨hplaceholder x, List.forall_mem_singleton.2 (hplaceholder y)⟩)
  have htable : (Value.expr (.verb .table) [.text "t"]).Behaves Value.anyCount :=
    .node rfl (List.forall_mem_singleton.2 (.text _))
  have hfunction : (Value.expr .func [addition, .int 2]).Behaves Value.anyCount :=
    .function (fitsDouble_int (by decide +kernel)) haddition
  have habsent : Value.absent.Behaves Value.anyCount := .leaf rfl (Value.fitsDouble_of_none rfl)
  exact .node rfl (List.forall_mem_cons.2
    ⟨htable, List.forall_mem_cons.2 ⟨hfunction, List.forall_mem_singleton.2 habsent⟩⟩)

end QueryDriver
