import QueryDriver.Failure
import Mathlib.Data.List.Forall2
import Mathlib.Tactic.Common

/-!
# How actions run

The actions on the network, on a client and on a cursor are one kind of effect: a state
and a failure. Running `a` from `s` gives an outcome and a state, `a.run s = (o, s')`, and
every later statement about an action is a statement about such an equation. A sequence
is taken apart by `run_bind_cases`: either the first part has failed and the second was
never begun, or the second part ran from where the first one ended.

A refusal is the one fault that the network brings about: a line that would not be armed.
-/

namespace QueryDriver

variable {S α β : Type}

/-- The fault of a line that would not be armed. -/
def Fault.IsRefusal (f : Fault) : Prop := ∃ text, f = .socket text

/-- The failure is a refusal. -/
def Failure.IsRefusal : Failure → Prop
  | .driver _ => False
  | .fault f => f.IsRefusal

/-- The outcome is a failure by a refusal. -/
def Refused (o : Except Failure α) : Prop := ∃ e, o = .error e ∧ e.IsRefusal

@[simp] theorem not_refused_ok (x : α) : ¬ Refused (.ok x : Except Failure α) := by
  rintro ⟨e, he, -⟩
  cases he

@[simp] theorem refused_error (e : Failure) :
    Refused (.error e : Except Failure α) ↔ e.IsRefusal := by
  constructor
  · rintro ⟨e', he, hrefusal⟩
    cases he
    exact hrefusal
  · exact fun hrefusal => ⟨e, rfl, hrefusal⟩

/-- What a line said that would not be armed. -/
def Fault.refusal? : Fault → Option String
  | .socket text => some text
  | _ => none

theorem Fault.isSome_refusal? (f : Fault) : f.refusal?.isSome ↔ f.IsRefusal := by
  cases f <;> simp [refusal?, IsRefusal]

instance (f : Fault) : Decidable f.IsRefusal := decidable_of_iff _ f.isSome_refusal?

instance : (e : Failure) → Decidable e.IsRefusal
  | .driver _ => inferInstanceAs (Decidable False)
  | .fault f => inferInstanceAs (Decidable f.IsRefusal)

instance : (o : Except Failure α) → Decidable (Refused o)
  | .ok x => .isFalse (not_refused_ok x)
  | .error e => decidable_of_iff _ (refused_error e).symm

/-- A sequence of outcomes that is no failure has no failure in its parts. -/
theorem bind_ok {ε : Type} {o : Except ε α} {f : α → Except ε β} {y : β}
    (h : o >>= f = .ok y) : ∃ x, o = .ok x ∧ f x = .ok y := by
  cases o with
  | error e => cases h
  | ok x => exact ⟨x, rfl, h⟩

theorem map_ok {ε : Type} {o : Except ε α} {f : α → β} {y : β} (h : o.map f = .ok y) :
    ∃ x, o = .ok x ∧ f x = y := by
  cases o with
  | error e => cases h
  | ok x =>
      cases h
      exact ⟨x, rfl, rfl⟩

theorem bind_eq_ok_iff {ε : Type} {o : Except ε α} {f : α → Except ε β} {y : β} :
    o >>= f = .ok y ↔ ∃ x, o = .ok x ∧ f x = .ok y := by
  constructor
  · exact bind_ok
  · rintro ⟨x, rfl, h⟩
    exact h

theorem map_eq_ok_iff {ε : Type} {o : Except ε α} {f : α → β} {y : β} :
    o.map f = .ok y ↔ ∃ x, o = .ok x ∧ f x = y := by
  constructor
  · exact map_ok
  · rintro ⟨x, rfl, rfl⟩
    rfl

/-- What the items of a list come to, when none of them fails. -/
theorem mapM_ok {f : α → Except Failure β} {xs : List α} {ys : List β}
    (h : xs.mapM f = .ok ys) : List.Forall₂ (fun x y => f x = .ok y) xs ys := by
  induction xs generalizing ys with
  | nil =>
      rw [List.mapM_nil] at h
      cases h
      exact .nil
  | cons x xs ih =>
      rw [List.mapM_cons] at h
      obtain ⟨y, hy, h⟩ := bind_ok h
      obtain ⟨rest, hrest, h⟩ := bind_ok h
      cases h
      exact .cons hy (ih hrest)

/-- What the items of a list come to. -/
theorem mapM_eq_ok_iff {f : α → Except Failure β} {xs : List α} {ys : List β} :
    xs.mapM f = .ok ys ↔ List.Forall₂ (fun x y => f x = .ok y) xs ys := by
  refine ⟨mapM_ok, fun h => ?_⟩
  induction h with
  | nil => exact List.mapM_nil
  | cons hx _ ih =>
      rw [List.mapM_cons, hx, ih]
      rfl

theorem exists_of_mapM_ok {f : α → Except Failure β} {xs : List α} {ys : List β}
    (h : xs.mapM f = .ok ys) : ∀ y ∈ ys, ∃ x ∈ xs, f x = .ok y := by
  have hitems := mapM_ok h
  clear h
  induction hitems with
  | nil => exact nofun
  | cons hx _ ih =>
      intro y hy
      obtain rfl | hy := List.mem_cons.1 hy
      · exact ⟨_, List.mem_cons_self, hx⟩
      · obtain ⟨x, hmem, hx⟩ := ih y hy
        exact ⟨x, List.mem_cons_of_mem _ hmem, hx⟩

theorem exists_mem_of_mapM_ok {f : α → Except Failure β} {xs : List α} {ys : List β}
    (h : xs.mapM f = .ok ys) : ∀ x ∈ xs, ∃ y ∈ ys, f x = .ok y := by
  have hitems := mapM_ok h
  clear h
  induction hitems with
  | nil => exact List.forall_mem_nil _
  | cons hx _ ih =>
      refine List.forall_mem_cons.2 ⟨⟨_, List.mem_cons_self, hx⟩, fun x hmem => ?_⟩
      obtain ⟨y, hy, hx⟩ := ih x hmem
      exact ⟨y, List.mem_cons_of_mem _ hy, hx⟩

/-- Items that all come to something come to a list. -/
theorem exists_mapM_eq_ok {f : α → Except Failure β} {xs : List α}
    (h : ∀ x ∈ xs, ∃ y, f x = .ok y) : ∃ ys, xs.mapM f = .ok ys := by
  induction xs with
  | nil => exact ⟨[], List.mapM_nil⟩
  | cons x xs ih =>
      obtain ⟨⟨y, hy⟩, hxs⟩ := List.forall_mem_cons.1 h
      obtain ⟨ys, hys⟩ := ih hxs
      exact ⟨y :: ys, mapM_eq_ok_iff.2 (.cons hy (mapM_ok hys))⟩

/-- What an action comes to on the items of a list for which another one comes to something that
is related. -/
theorem exists_mapM_of_mapM {γ : Type} {f : α → Except Failure β} {g : α → Except Failure γ}
    {R : γ → β → Prop} (h : ∀ x y, f x = .ok y → ∃ z, g x = .ok z ∧ R z y) {xs : List α}
    {ys : List β} (hys : xs.mapM f = .ok ys) :
    ∃ zs, xs.mapM g = .ok zs ∧ List.Forall₂ R zs ys := by
  simp only [mapM_eq_ok_iff] at hys ⊢
  induction hys with
  | nil => exact ⟨[], .nil, .nil⟩
  | cons hy _ ih =>
      obtain ⟨z, hz, hzy⟩ := h _ _ hy
      obtain ⟨zs, hzs, hrest⟩ := ih
      exact ⟨z :: zs, .cons hz hzs, .cons hzy hrest⟩

theorem bind_eq_error_iff {ε : Type} {o : Except ε α} {f : α → Except ε β} {e : ε} :
    o >>= f = .error e ↔ o = .error e ∨ ∃ x, o = .ok x ∧ f x = .error e := by
  cases o with
  | error e' =>
      refine ⟨fun h => .inl ?_, ?_⟩
      · cases h
        rfl
      · rintro (h | ⟨x, h, -⟩) <;> cases h
        rfl
  | ok x =>
      refine ⟨fun h => .inr ⟨x, rfl, h⟩, ?_⟩
      rintro (h | ⟨y, hy, h⟩)
      · cases h
      · cases hy
        exact h

theorem map_eq_error_iff {ε : Type} {o : Except ε α} {f : α → β} {e : ε} :
    o.map f = .error e ↔ o = .error e := by
  cases o with
  | error e' =>
      refine ⟨fun h => ?_, fun h => ?_⟩ <;> cases h <;> rfl
  | ok x => refine ⟨fun h => ?_, fun h => ?_⟩ <;> cases h

/-- A list of outcomes fails as the first of them that fails. -/
theorem mapM_eq_error_iff {f : α → Except Failure β} {xs : List α} {e : Failure} :
    xs.mapM f = .error e ↔ ∃ before x after, xs = before ++ x :: after ∧
      (∀ y ∈ before, ∃ z, f y = .ok z) ∧ f x = .error e := by
  induction xs with
  | nil =>
      rw [List.mapM_nil]
      refine ⟨fun h => (by cases h), ?_⟩
      rintro ⟨before, x, after, h, -⟩
      cases before <;> cases h
  | cons x xs ih =>
      rw [List.mapM_cons, bind_eq_error_iff]
      constructor
      · rintro (hx | ⟨z, hz, h⟩)
        · exact ⟨[], x, xs, rfl, List.forall_mem_nil _, hx⟩
        · obtain h | ⟨zs, -, h⟩ := bind_eq_error_iff.1 h
          · obtain ⟨before, y, after, rfl, hbefore, hy⟩ := ih.1 h
            exact ⟨x :: before, y, after, rfl, List.forall_mem_cons.2 ⟨⟨z, hz⟩, hbefore⟩, hy⟩
          · cases h
      · rintro ⟨_ | ⟨z, before⟩, y, after, h, hbefore, hy⟩
        · cases h
          exact .inl hy
        · cases h
          obtain ⟨⟨w, hw⟩, hbefore⟩ := List.forall_mem_cons.1 hbefore
          exact .inr ⟨w, hw, bind_eq_error_iff.2 (.inl (ih.2 ⟨before, y, after, rfl, hbefore, hy⟩))⟩

theorem run_bind (a : ExceptT Failure (StateM S) α) (f : α → ExceptT Failure (StateM S) β)
    (s : S) :
    (a >>= f).run s = match a.run s with
      | (.ok x, s) => (f x).run s
      | (.error e, s) => (.error e, s) := by
  change (ExceptT.bind a f).run s = _
  rcases h : a.run s with ⟨o, s'⟩
  have hrun : a s = (o, s') := h
  simp only [ExceptT.bind, ExceptT.run, ExceptT.mk, bind, StateT.bind, hrun, ExceptT.bindCont]
  cases o <;> rfl

theorem run_tryCatch (a : ExceptT Failure (StateM S) α) (f : Failure → ExceptT Failure (StateM S) α)
    (s : S) :
    (tryCatch a f).run s = match a.run s with
      | (.ok x, s) => (.ok x, s)
      | (.error e, s) => (f e).run s := by
  change (ExceptT.tryCatch a f).run s = _
  rcases h : a.run s with ⟨o, s'⟩
  have hrun : a s = (o, s') := h
  simp only [ExceptT.tryCatch, ExceptT.run, ExceptT.mk, bind, StateT.bind, hrun]
  cases o <;> rfl

theorem run_bind_of_ok {a : ExceptT Failure (StateM S) α}
    {f : α → ExceptT Failure (StateM S) β} {s s₁ : S} {x : α} (h : a.run s = (.ok x, s₁)) :
    (a >>= f).run s = (f x).run s₁ := by
  rw [run_bind, h]

theorem run_bind_of_error {a : ExceptT Failure (StateM S) α}
    {f : α → ExceptT Failure (StateM S) β} {s s₁ : S} {e : Failure}
    (h : a.run s = (.error e, s₁)) : (a >>= f).run s = (.error e, s₁) := by
  rw [run_bind, h]

/-- What a sequence has done: it went on after its first part, or it failed there. -/
theorem run_bind_cases {a : ExceptT Failure (StateM S) α}
    {f : α → ExceptT Failure (StateM S) β} {s s' : S} {o : Except Failure β}
    (h : (a >>= f).run s = (o, s')) :
    (∃ x s₁, a.run s = (.ok x, s₁) ∧ (f x).run s₁ = (o, s')) ∨
      ∃ e, a.run s = (.error e, s') ∧ o = .error e := by
  rw [run_bind] at h
  rcases ha : a.run s with ⟨x | e, s₁⟩ <;> rw [ha] at h
  · cases h
    exact .inr ⟨_, rfl, rfl⟩
  · exact .inl ⟨_, _, rfl, h⟩

/-- A sequence that did not fail went through both of its parts. -/
theorem run_bind_ok {a : ExceptT Failure (StateM S) α} {f : α → ExceptT Failure (StateM S) β}
    {s s' : S} {y : β} (h : (a >>= f).run s = (.ok y, s')) :
    ∃ x s₁, a.run s = (.ok x, s₁) ∧ (f x).run s₁ = (.ok y, s') := by
  obtain h | ⟨e, -, he⟩ := run_bind_cases h
  · exact h
  · cases he

theorem run_bind_pure {a : ExceptT Failure (StateM S) α} {f : α → β} {s s' : S}
    {o : Except Failure β} (h : (a >>= fun x => pure (f x)).run s = (o, s')) :
    ∃ oa : Except Failure α, a.run s = (oa, s') ∧ o = oa.map f := by
  obtain ⟨x, s₁, ha, h⟩ | ⟨e, ha, rfl⟩ := run_bind_cases h
  · cases h
    exact ⟨_, ha, rfl⟩
  · exact ⟨_, ha, rfl⟩

section Lift

variable (f : α → ExceptT Failure (StateM S) β) (s : S)

/-- An outcome as an action leaves the state alone. -/
theorem run_liftM (o : Except Failure α) :
    (liftM o : ExceptT Failure (StateM S) α).run s = (o, s) := rfl

theorem liftM_ok_bind (x : α) :
    (liftM (.ok x : Except Failure α) : ExceptT Failure (StateM S) α) >>= f = f x := rfl

end Lift

/-- A sequence of outcomes is one outcome. -/
theorem liftM_bind_liftM (o : Except Failure α) (f : α → Except Failure β) :
    (liftM o >>= fun x => liftM (f x) : ExceptT Failure (StateM S) β) = liftM (o >>= f) := by
  cases o <;> rfl

theorem liftM_bind_pure (o : Except Failure α) (f : α → β) :
    (liftM o >>= fun x => pure (f x) : ExceptT Failure (StateM S) β) = liftM (o.map f) := by
  cases o <;> rfl

/-- A sequence that begins with an outcome and did not fail. -/
theorem run_liftM_bind_ok {o : Except Failure α} {f : α → ExceptT Failure (StateM S) β} {s s' : S}
    {y : β} (h : (liftM o >>= f : ExceptT Failure (StateM S) β).run s = (.ok y, s')) :
    ∃ x, o = .ok x ∧ (f x).run s = (.ok y, s') := by
  cases o with
  | error e => cases h
  | ok x => exact ⟨x, rfl, h⟩

end QueryDriver
