import QueryDriver.Proofs.Compilation.Variables
import QueryDriver.Proofs.Lowering.Spelled
import QueryDriver.Proofs.Rendering.Telling

/-!
# What the text of an expression says about its query

Expressions that are written alike are compiled alike, as long as all that matters is written: the
text of a legible expression is that of one phrase, and no phrase is written like another one, so
two legible expressions of one text are spelled by one phrase.

A node for a function is what a text does not show. It is written as the function itself, so a
method of it is written like a method of what the function returns.
-/

namespace QueryDriver

open Wire Lowering

namespace Value

variable {v w : Value}

/-- The text of a legible value is the text of a phrase that spells it. -/
theorem Legible.format_eq (h : Legible .value v) (huniform : v.Uniform) (hlaid : v.LaidOut) :
    ∃ φ, Spells .value (fun _ _ => False) v φ ∧ v.format.1 = .ok φ.text := by
  obtain ⟨φ, next, -, hφ, hwrites⟩ := h.tells huniform hlaid 1 fun _ _ => False.elim
  obtain ⟨calls, hrun⟩ := hwrites 0
  have hformat : v.format.1 = (v.sketch.text.run ⟨1, 0⟩).1 := rfl
  exact ⟨φ, hφ, by rw [hformat, hrun]⟩

/-- Switches and texts are compiled alike wherever they are carried. -/
theorem level_carried (fuel : Nat) (v : Value) (hv : (∃ b, v = .bool b) ∨ ∃ s, v = .text s)
    (c : Scope) : Parallel Progress.Level Eq ((operandWithin fuel v).term c)
      ((operandWithin fuel v).term c) := by
  cases fuel with
  | zero => exact parallel_throw _
  | succ fuel =>
      obtain ⟨b, rfl⟩ | ⟨s, rfl⟩ := hv <;>
        exact (parallel_checkLiteralDepth 0).bind fun _ _ _ =>
          parallel_liftM (simulation_level.marshal rfl)

/-- Legible values of one text are compiled alike. -/
theorem level_of_format_eq (hv : Legible .value v) (hw : Legible .value w) (hvu : v.Uniform)
    (hwu : w.Uniform) (hvl : v.LaidOut) (hwl : w.LaidOut) (hformat : v.format.1 = w.format.1)
    {c : Scope} (hc : c.Typed) : Parallel Progress.Level Eq (v.lower c) (w.lower c) := by
  obtain ⟨φ, hφ, hvφ⟩ := hv.format_eq hvu hvl
  obtain ⟨ψ, hψ, hwψ⟩ := hw.format_eq hwu hwl
  obtain rfl : φ = ψ := by
    rw [hvφ, hwψ] at hformat
    exact Phrase.text_injective (Except.ok.inj hformat)
  exact hφ.agree (level_carried optionNesting) hψ (fun _ _ _ h => h.elim) hvl hwl c hc 0

end Value

open Value

/-- Two expressions that can be built, whose text shows all that matters, and whose texts are the
same, compile alike in every scope: from the same number they come to the same term, or fail alike,
and hand out as many numbers; and the query that starts the one is the query that starts the other,
or both are refused with the same error. -/
theorem compile_eq_of_format_eq {a b : Value} (ha : a.Built) (hb : b.Built) (hau : a.Uniform)
    (hbu : b.Uniform) (hal : Legible .value a) (hbl : Legible .value b)
    (hformat : a.format.1 = b.format.1) {c : Scope} (hc : c.Typed) :
    (∀ p q : Progress, p.Level q → ((a.lower c).run p).1 = ((b.lower c).run q).1 ∧
      ((a.lower c).run p).2.Level ((b.lower c).run q).2) ∧
    ∀ token (j j' : Journal), j.next = j'.next →
      ((compile a c token).run j).1 = ((compile b c token).run j').1 := by
  have hlevel := level_of_format_eq hal hbl hau hbu ha.laidOut hb.laidOut hformat hc
  have hlower (p q : Progress) (hpq : p.Level q) := hlevel p q hpq
  refine ⟨fun p q hpq => ⟨corresponds_eq_iff.1 (hlower p q hpq).1, (hlower p q hpq).2⟩,
    fun token j j' hj => ?_⟩
  have hstart : j.progress.Level j'.progress := ⟨hj, rfl⟩
  obtain ⟨houtcome, hend⟩ := hlower _ _ hstart
  rcases hrun : (a.lower c).run j.progress with ⟨o, p⟩
  rcases hrun' : (b.lower c).run j'.progress with ⟨o', q⟩
  rw [hrun, hrun'] at houtcome hend
  dsimp only at houtcome hend
  cases houtcome with
  | error f =>
      have hdescribe : a.describe.1 = b.describe.1 := congrArg Except.toOption hformat
      have hreport : f.report a = f.report b := by
        unfold Failure.report
        rw [hdescribe]
      rw [compile_of_error hrun, compile_of_error hrun', hreport]
  | ok h =>
      rw [compile_of_ok hrun, compile_of_ok hrun', h, hend.timeFormat]

/-- A function that returns its argument. -/
def sameBack : Value := .func .unary fun
  | [n] => .ok (.placeholder n)
  | _ => .ok .null

/-- A function that adds one to its argument. -/
def successor : Value := .func .unary fun
  | [n] => .ok (.expr (.verb .add) [.placeholder n, .int 1])
  | _ => .ok .null

/-- The successors of the rows of a table, the function being taken under a hint. -/
def successors (hint : Int) : Value :=
  .expr (.verb .map) [.expr (.verb .table) [.text "t"], .expr .func [successor, .int hint]]

theorem built_successor : successor.Built := by
  have hadd (n : Nat) : (Value.placeholder n).method "add" ⟨[.int 1], []⟩ =
      .ok (.expr (.verb .add) [.placeholder n, .int 1]) := rfl
  refine .callable fun ns v hv => ?_
  split at hv <;> cases hv
  · exact .method (.leaf rfl) (List.forall_mem_singleton.2 (.leaf rfl)) (List.forall_mem_nil _)
      (hadd _)
  · exact .leaf rfl

theorem built_successors_one : (successors 1).Built := by
  have htable : Query.call "table" ⟨[.text "t"], []⟩ = .ok (.expr (.verb .table) [.text "t"]) := rfl
  exact .method
    (.call (by decide) (List.forall_mem_singleton.2 (.leaf rfl)) (List.forall_mem_nil _) htable)
    (List.forall_mem_singleton.2 built_successor) (List.forall_mem_nil _)
    (show Value.method _ "map" ⟨[_], []⟩ = .ok (successors 1) from rfl)

theorem built_successors_any : (successors (-1)).Built := by
  have htable : Query.call "table" ⟨[.text "t"], []⟩ = .ok (.expr (.verb .table) [.text "t"]) := rfl
  have hexpr : Query.call "expr" ⟨[successor], []⟩ = .ok (.expr .func [successor, .int (-1)]) := rfl
  exact .method
    (.call (by decide) (List.forall_mem_singleton.2 (.leaf rfl)) (List.forall_mem_nil _) htable)
    (List.forall_mem_singleton.2 (.call (by decide) (List.forall_mem_singleton.2 built_successor)
      (List.forall_mem_nil _) hexpr)) (List.forall_mem_nil _)
    (show Value.method _ "map" ⟨[_], []⟩ = .ok (successors (-1)) from rfl)

theorem uniform_successor : successor.Uniform := by
  refine .func (fun a b count f _ => ?_) fun a b count v w _ hv hw => ?_
  · rcases count with - | - | count <;> constructor <;> intro h <;> cases h
  rcases count with - | - | count <;> cases hv <;> cases hw
  · exact .atom rfl
  · refine .expr (by decide) (fun h => by cases h) rfl ?_
    simp only [List.zip_cons_cons, List.zip_nil_right, List.forall_mem_cons]
    exact ⟨.placeholder (.inl List.mem_cons_self), .atom rfl, List.forall_mem_nil _⟩
  · exact .atom rfl

theorem uniform_successors (hint : Int) : (successors hint).Uniform := by
  have htable : (Value.expr (.verb .table) [.text "t"]).Uniform := by
    refine .expr (by decide) (fun h => by cases h) rfl ?_
    simp only [List.zip_cons_cons, List.zip_nil_right, List.forall_mem_cons]
    exact ⟨.atom rfl, List.forall_mem_nil _⟩
  refine .expr (by decide) (fun h => by cases h) rfl ?_
  simp only [List.zip_cons_cons, List.zip_nil_right, List.forall_mem_cons]
  exact ⟨htable, Renamed.function uniform_successor hint, List.forall_mem_nil _⟩

theorem legible_successors {hint : Int} (hhint : hint = 1 ∨ hint = -1) :
    Legible .value (successors hint) := by
  have htable : Legible .value (.expr (.verb .table) [.text "t"]) := by
    refine .whole rfl (fun _ w hw hexpr => by cases hw; cases hexpr) ?_
    exact forall_getElem?_cons (.basic rfl) fun i w hw => by cases hw
  have hadd (n : Nat) : Legible .value (.expr (.verb .add) [.placeholder n, .int 1]) := by
    refine .whole rfl (fun _ w hw _ => by cases hw; rfl) ?_
    exact forall_getElem?_cons (.placeholder n)
      (forall_getElem?_cons (.basic rfl) fun i w hw => by cases hw)
  have hcount : Face.unary.placeholders (.int hint) = .ok 1 := by
    obtain rfl | rfl := hhint <;> rfl
  have hfunction : Legible (.function 1) (.expr .func [successor, .int hint]) := by
    have htakes : Takes 1 hint 1 := .inr ⟨.inr rfl, hhint.symm⟩
    refine .applied (by omega) htakes rfl hcount rfl (fun first => ⟨_, rfl⟩) fun first v hv => ?_
    cases hv
    exact hadd first
  refine .whole rfl (fun _ w hw _ => by cases hw; rfl) ?_
  exact forall_getElem?_cons htable (forall_getElem?_cons hfunction fun i w hw => by cases hw)

/-- A function that is made an expression first, and so may have any number of parameters, is
written and compiled as one that is not. -/
theorem compile_successors :
    successors 1 ≠ successors (-1) ∧
    (successors 1).format.1 = .ok "r.table('t').map(lambda var_1: var_1.add(1))" ∧
    (∃ q, ((compile (successors 1) .initial 1).run .fresh).1 = .ok q) ∧
    ((compile (successors 1) .initial 1).run .fresh).1 =
      ((compile (successors (-1)) .initial 1).run .fresh).1 := by
  have hformat : (successors 1).format.1 = (successors (-1)).format.1 := rfl
  have hne : successors 1 ≠ successors (-1) := by
    intro h
    cases h
  refine ⟨hne, rfl, ⟨_, rfl⟩, ?_⟩
  exact (compile_eq_of_format_eq built_successors_one built_successors_any (uniform_successors 1)
    (uniform_successors (-1)) (legible_successors (.inl rfl)) (legible_successors (.inr rfl)) hformat
    Scope.initial_typed).2 1 .fresh .fresh rfl

/-- One is added to a function, or a function adds one: both are written alike. The first is not
legible, as it has a function where a text shows what the function returns. -/
theorem format_function_receiver :
    (Value.expr (.verb .add) [.expr .func [sameBack, .int (-1)], .int 1]).format.1 =
      (Value.expr .func [successor, .int (-1)]).format.1 ∧
    (((Value.expr (.verb .add) [.expr .func [sameBack, .int (-1)], .int 1]).lower .initial).run
      ⟨1, 0, .text ""⟩).1.map Term.kind = .ok Verb.add.code ∧
    (((Value.expr .func [successor, .int (-1)]).lower .initial).run
      ⟨1, 0, .text ""⟩).1.map Term.kind = .ok TermType.func.code :=
  ⟨rfl, rfl, rfl⟩

end QueryDriver
