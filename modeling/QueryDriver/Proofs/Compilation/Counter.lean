import QueryDriver.Proofs.Lowering.Renumbering

/-!
# What the counter has to do with a query

Nothing, up to the numbers of variables. Compiling from any two numbers fails alike or comes to
the same term up to the numbers of its variables, hands out as many of them, and records the same
time format.
-/

namespace QueryDriver

open Wire

/-- What two compilations of one value have in common that begin in `p` and in `q` and end as `a`
and as `b`. -/
structure Renumbers (p q : Progress) (a b : Except Failure Term × Progress) : Prop where
  /-- The same failure, or terms that are the same up to the numbers of variables. -/
  outcome : Corresponds (Term.Renumbered p.next q.next) a.1 b.1
  /-- As many variables. -/
  count : ∃ k, a.2.next = p.next + k ∧ b.2.next = q.next + k
  timeFormat : Value.Renamed (Shifted p.next q.next) a.2.timeFormat b.2.timeFormat
  /-- A time format without parts has no number in it. -/
  same : a.2.timeFormat.isAtom = true → a.2.timeFormat = b.2.timeFormat
  sent : queryOptions a.2.timeFormat = queryOptions b.2.timeFormat

/-- A scope that uses numbers of variables for nothing but the placeholders of parameters. -/
abbrev Scope.Uniform (c : Scope) : Prop := c.Renamed (fun _ _ => False) c

theorem Scope.Typed.uniform {c : Scope} (hc : c.Typed) : c.Uniform := by
  constructor
  · obtain ⟨s, hs⟩ := hc.database
    rw [hs]
    exact .atom rfl
  · intro s
    obtain ⟨b, hb⟩ | ⟨t, ht⟩ := (hc.setting s).bool_or_text
    · rw [hb]
      exact .atom rfl
    · rw [ht]
      exact .atom rfl

theorem Scope.Renamed.mono {ρ ρ' : Nat → Nat → Prop} {c c' : Scope} (h : c.Renamed ρ c')
    (hρ : ∀ x y, ρ x y → ρ' x y) : c.Renamed ρ' c' :=
  ⟨h.database.mono hρ, fun s => (h.setting s).mono hρ⟩

theorem queryOptions_eq {ρ : Nat → Nat → Prop} {v w : Value} (h : Value.Renamed ρ v w) :
    queryOptions v = queryOptions w := by
  rw [queryOptions, queryOptions, h.truthy_eq, h.marshal_eq]

theorem uniform_nestedPair : nestedPair.Uniform := by
  have hnext {a b count : Nat} {ρ : Nat → Nat → Prop} : Value.Beside a b (count + 1) ρ a b :=
    .inl List.mem_cons_self
  refine .func (fun a b count f _ => ?_) fun a b count v w _ hv hw => ?_
  · rcases count with - | - | count <;> constructor <;> intro h <;> cases h
  rcases count with - | - | count <;> cases hv <;> cases hw
  · exact .atom rfl
  · refine .func (fun a' b' count f _ => ?_) fun a' b' count v w _ hv hw => ?_
    · rcases count with - | - | count <;> constructor <;> intro h <;> cases h
    rcases count with - | - | count <;> cases hv <;> cases hw
    · exact .atom rfl
    · refine .list rfl ?_
      simp only [List.zip_cons_cons, List.zip_nil_right, List.forall_mem_cons]
      exact ⟨.placeholder (.inr hnext), .placeholder hnext, List.forall_mem_nil _⟩
    · exact .atom rfl
  · exact .atom rfl

end QueryDriver
