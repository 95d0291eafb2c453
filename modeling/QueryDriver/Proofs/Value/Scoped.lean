import QueryDriver.Proofs.Lowering.Arrangement

/-!
# Values whose placeholders are in scope

A placeholder can be used anywhere, also where the callable that it was handed to is long
gone. `v.ScopedBy env` says that this does not happen in `v`: a placeholder has a number of
`env`, and what a callable returns for some parameters uses those parameters and `env`. A
node for a variable that was made by hand has no place in such a value.
-/

namespace QueryDriver

namespace Value

/-- A value that neither is a placeholder nor calls for some. -/
def isTransparent : Value → Bool
  | .placeholder _ | .func .. | .expr (.verb .var) _ => false
  | _ => true

inductive ScopedBy : List Nat → Value → Prop where
  | placeholder {env : List Nat} {n : Nat} (h : n ∈ env) : ScopedBy env (.placeholder n)
  | func {env : List Nat} {face : Face} {run : List Nat → Except Failure Value}
      (h : ∀ params w, face.admits params.length = .ok () → run params = .ok w →
        ScopedBy (params ++ env) w) : ScopedBy env (.func face run)
  | parts {env : List Nat} {v : Value} (hv : v.isTransparent = true)
      (h : ∀ w, IsPart w v → ScopedBy env w) : ScopedBy env v

namespace ScopedBy

variable {env env' : List Nat} {v : Value}

theorem mono (h : v.ScopedBy env) (henv : env ⊆ env') : v.ScopedBy env' := by
  induction h generalizing env' with
  | placeholder h => exact .placeholder (henv h)
  | func _ ih =>
      apply ScopedBy.func
      intro params w hadmits hw
      apply ih params w hadmits hw
      exact List.append_subset.2
        ⟨List.subset_append_left _ _, fun n hn => List.mem_append_right _ (henv hn)⟩
  | parts hv _ ih => exact .parts hv fun w hw => ih w hw henv

theorem text (s : String) : (Value.text s).ScopedBy env :=
  .parts rfl (forall_isPart_leaf rfl)

theorem bool (b : Bool) : (Value.bool b).ScopedBy env :=
  .parts rfl (forall_isPart_leaf rfl)

theorem part {w : Value} (h : v.ScopedBy env) (hv : v.isTransparent = true) (hw : IsPart w v) :
    w.ScopedBy env := by
  cases h with
  | placeholder => cases hv
  | func => cases hv
  | parts _ h => exact h w hw

theorem placeholder_mem {n : Nat} (h : (Value.placeholder n).ScopedBy env) : n ∈ env := by
  cases h with
  | placeholder h => exact h
  | parts hv => cases hv

theorem result {face : Face} {run : List Nat → Except Failure Value} {params : List Nat}
    {w : Value} (h : (Value.func face run).ScopedBy env)
    (hadmits : face.admits params.length = .ok ()) (hw : run params = .ok w) :
    w.ScopedBy (params ++ env) := by
  cases h with
  | func h => exact h params w hadmits hw
  | parts hv => cases hv

/-- No node for a variable was made by hand. -/
theorem transparent {op : Operator} {args : List Value} (h : (Value.expr op args).ScopedBy env) :
    (Value.expr op args).isTransparent = true := by
  cases h with
  | parts hv => exact hv

theorem argument {op : Operator} {args : List Value} {w : Value}
    (h : (Value.expr op args).ScopedBy env) (hw : w ∈ args) : w.ScopedBy env :=
  h.part h.transparent (.argument hw)

theorem tableField {e : String × Value} (h : v.ScopedBy env) (he : e ∈ v.tableFields) :
    e.2.ScopedBy env := by
  obtain hpart | ⟨s, hs⟩ := mem_tableFields he
  · cases v with
    | tableSpec => exact h.part rfl hpart
    | _ => cases he
  · rw [hs]
    exact text s

theorem arranged {verb : Verb} {args : List Value} {a : Arrangement}
    (h : (Value.expr (.verb verb) args).ScopedBy env) (ha : verb.arrange args = .ok a) :
    ∀ w ∈ a.positional ++ a.named.map (·.2), w.ScopedBy env := by
  intro w hw
  obtain hw | ⟨x, hx, e, he, rfl⟩ | ⟨s, rfl⟩ := Verb.mem_of_arrange ha w hw
  · exact h.argument hw
  · exact (h.argument hx).tableField he
  · exact text s

end ScopedBy

end Value

/-- The values that a scope carries use no placeholders. -/
structure Scope.Closed (c : Scope) : Prop where
  database : c.database.ScopedBy []
  setting (s : Setting) : (c.get s).ScopedBy []

end QueryDriver
