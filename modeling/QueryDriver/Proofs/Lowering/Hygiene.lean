import Mathlib.Data.List.Nodup
import QueryDriver.Proofs.Lowering.Derivation
import QueryDriver.Proofs.Value.Scoped

/-!
# Hygiene of variables

Variables are numbered by a counter, before the body of a function where a callable is
called, and after it where the body uses no parameters. Either way every part of an
expression takes its numbers from an interval of its own (`Lowers.numbered`), so all the
parameters of a query differ. And a variable can only come from a placeholder, which is in
scope, so its function encloses it (`Lowers.bound`).
-/

namespace QueryDriver

open Wire

/-! ### Numbers from an interval -/

/-- Numbers that are all different and were handed out between two states of the counter. -/
structure Numbered (n n' : Nat) (ns : List Nat) : Prop where
  le : n ≤ n'
  nodup : ns.Nodup
  within : ∀ m ∈ ns, n ≤ m ∧ m < n'

namespace Numbered

variable {n n₁ n' : Nat} {ms ns : List Nat}

theorem nil (n : Nat) : Numbered n n [] := ⟨le_rfl, .nil, nofun⟩

theorem range (n count : Nat) : Numbered n (n + count) (List.range' n count) := by
  constructor
  · omega
  · exact List.nodup_range'
  · intro m hm
    rw [List.mem_range'_1] at hm
    exact hm

theorem append (h : Numbered n n₁ ms) (h' : Numbered n₁ n' ns) : Numbered n n' (ms ++ ns) := by
  constructor
  · exact h.le.trans h'.le
  · apply List.Nodup.append h.nodup h'.nodup
    intro m hm hn
    have := (h.within m hm).2
    have := (h'.within m hn).1
    omega
  · intro m hm
    have hle := h.le
    have hle' := h'.le
    obtain hm | hm := List.mem_append.1 hm
    · have := h.within m hm
      omega
    · have := h'.within m hm
      omega

theorem perm (h : Numbered n n' ms) (hperm : ms.Perm ns) : Numbered n n' ns :=
  ⟨h.le, hperm.nodup h.nodup, fun m hm => h.within m (hperm.mem_iff.2 hm)⟩

theorem sublist (h : Numbered n n' ms) (hsub : ns.Sublist ms) : Numbered n n' ns :=
  ⟨h.le, h.nodup.sublist hsub, fun m hm => h.within m (hsub.subset hm)⟩

end Numbered

namespace Outline

/-! ### Parameters and variables of an outline -/

mutual

/-- The parameters of all functions of an outline. -/
def binders : Outline → List Nat
  | .data _ | .reference _ => []
  | .array items => bindersEach items
  | .object entries => bindersOf entries
  | .function _ params body => params ++ binders body
  | .node _ _ args own given => bindersEach args ++ (bindersOf own ++ bindersOf given)

def bindersEach : List Outline → List Nat
  | [] => []
  | o :: os => binders o ++ bindersEach os

def bindersOf : List (String × Outline) → List Nat
  | [] => []
  | (_, o) :: os => binders o ++ bindersOf os

end

theorem bindersOf_zip_sublist (names : List String) (os : List Outline) :
    (bindersOf (names.zip os)).Sublist (bindersEach os) := by
  induction os generalizing names with
  | nil => simp [bindersOf, bindersEach]
  | cons o os ih =>
      cases names with
      | nil => simp [bindersOf]
      | cons name names =>
          simp only [List.zip_cons_cons, bindersOf, bindersEach]
          exact (ih names).append_left _

theorem bindersOf_data (entries : List (String × Datum)) :
    bindersOf (entries.map fun e => (e.1, .data e.2)) = [] := by
  induction entries with
  | nil => rfl
  | cons e entries ih => simp [bindersOf, binders, ih]

/-- What an outline is directly made of. -/
def children : Outline → List Outline
  | .data _ | .reference _ => []
  | .array items => items
  | .object entries => entries.map (·.2)
  | .function _ _ body => [body]
  | .node _ _ args own given => args ++ (own.map (·.2) ++ given.map (·.2))

section Children

variable {P : Outline → Prop}

theorem forall_children_object {keys : List String} {os : List Outline} (h : ∀ x ∈ os, P x) :
    ∀ x ∈ (object (keys.zip os)).children, P x := by
  intro x hx
  obtain ⟨e, he, rfl⟩ := List.mem_map.1 hx
  exact h _ (List.of_mem_zip he).2

theorem forall_children_node {v : Verb} {r : Trail} {args own given : List Outline}
    {names sent : List String} (hargs : ∀ x ∈ args, P x) (hown : ∀ x ∈ own, P x)
    (hgiven : ∀ x ∈ given, P x) :
    ∀ x ∈ (node v r args (names.zip own) (sent.zip given)).children, P x := by
  intro x hx
  rw [children, List.mem_append, List.mem_append] at hx
  obtain hx | hx | hx := hx
  · exact hargs x hx
  · exact forall_children_object hown x hx
  · exact forall_children_object hgiven x hx

theorem forall_children_data {entries : List (String × Datum)} (h : ∀ d, P (.data d)) :
    ∀ x ∈ (object (entries.map fun e => (e.1, .data e.2))).children, P x := by
  intro x hx
  simp only [children, List.map_map, List.mem_map] at hx
  obtain ⟨e, -, rfl⟩ := hx
  exact h e.2

end Children

/-- `Within x o` says that `x` is `o` or inside of it. -/
inductive Within : Outline → Outline → Prop where
  | refl (o : Outline) : Within o o
  | child {x y o : Outline} (h : Within x y) (hy : y ∈ o.children) : Within x o

def isFunction : Outline → Bool
  | .function .. => true
  | _ => false

/-- An outline that neither uses nor binds variables itself. -/
def isPlain : Outline → Bool
  | .reference _ | .function .. | .node .var .. => false
  | _ => true

/-- Every variable is in the body of the function whose callable was handed it. -/
inductive Bound : List Nat → Outline → Prop where
  | reference {env : List Nat} {n : Nat} (h : n ∈ env) : Bound env (.reference n)
  | function {env : List Nat} {source : Value} {params : List Nat} {body : Outline}
      (h : Bound (if source.isApplied then params ++ env else env) body) :
      Bound env (.function source params body)
  | plain {env : List Nat} {o : Outline} (ho : o.isPlain = true)
      (h : ∀ x ∈ o.children, Bound env x) : Bound env o

/-- Every function that was made of a callable has the outline of what the callable returned
for the parameters of the function as its body. -/
def Traced (c : Scope) (o : Outline) : Prop :=
  ∀ source params body, Within (.function source params body) o → source.isApplied = true →
    ∃ face run result, source = .func face run ∧ run params = .ok result ∧
      ∃ r m m', Lowers c r result m body m'

theorem traced_of_children {c : Scope} {o : Outline} (ho : o.isFunction = false)
    (h : ∀ x ∈ o.children, x.Traced c) : o.Traced c := by
  intro source params body hwithin happlied
  cases hwithin with
  | refl => cases ho
  | child hwithin hy => exact h _ hy source params body hwithin happlied

theorem traced_data {c : Scope} {d : Datum} : (data d).Traced c :=
  traced_of_children rfl nofun

theorem isPlain_node {v : Verb} {args : List Value} {r : Trail} {os : List Outline}
    {own given : List (String × Outline)}
    (h : (Value.expr (.verb v) args).isTransparent = true) :
    (node v r os own given).isPlain = true := by
  unfold Value.isTransparent at h
  unfold isPlain
  split <;> simp_all

theorem bound_data {env : List Nat} {d : Datum} : Bound env (.data d) := .plain rfl nofun

theorem traced_function {c : Scope} {source : Value} {params : List Nat} {body : Outline}
    (hsource : source.isApplied = true → ∃ face run result, source = .func face run ∧
      run params = .ok result ∧ ∃ r m m', Lowers c r result m body m')
    (hbody : body.Traced c) : (function source params body).Traced c := by
  intro source' params' body' hwithin happlied
  cases hwithin with
  | refl => exact hsource happlied
  | child hwithin hy =>
      rw [List.mem_singleton.1 hy] at hwithin
      exact hbody source' params' body' hwithin happlied

end Outline

/-! ### What the rules do with numbers and variables -/

mutual

theorem Lowers.numbered {c : Scope} {r : Trail} {v : Value} {m m' : Mark} {o : Outline} :
    Lowers c r v m o m' → Numbered m.next m'.next o.binders
  | .scalar _ | .row | .placeholder => .nil _
  | .moment _ => by
      rw [Outline.binders, Outline.bindersOf_data]
      exact .nil _
  | .list h | .tuple h => h.numbered
  | .dict _ h | .mapping _ h => h.numbered.sublist (Outline.bindersOf_zip_sublist _ _)
  | .callable h | .applied h => h.numbered
  | .literal h | .constant _ h _ => h.numbered
  | .setting h => by
      have hnumbered := h.numbered
      rwa [Mark.note_next] at hnumbered
  | .wrapped _ h _ _ => (h.numbered.append (.range _ _)).perm List.perm_append_comm
  | .verb _ hpositional hown hgiven =>
      hpositional.numbered.append
        ((hown.numbered.sublist (Outline.bindersOf_zip_sublist _ _)).append
          (hgiven.numbered.sublist (Outline.bindersOf_zip_sublist _ _)))

theorem LowersEach.numbered {c : Scope} {r : Trail} {vs : List Value} {m m' : Mark}
    {os : List Outline} :
    LowersEach c r vs m os m' → Numbered m.next m'.next (Outline.bindersEach os)
  | .nil => .nil _
  | .cons h hs => h.numbered.append hs.numbered

theorem LowersCall.numbered {c : Scope} {r : Trail} {v hint : Value} {m m' : Mark} {o : Outline} :
    LowersCall c r v hint m o m' → Numbered m.next m'.next o.binders
  | .call _ _ _ _ h => (Numbered.range _ _).append h.numbered

end

mutual

theorem Lowers.traced {c : Scope} {r : Trail} {v : Value} {m m' : Mark} {o : Outline} :
    Lowers c r v m o m' → o.Traced c
  | .scalar _ => Outline.traced_data
  | .moment _ => Outline.traced_of_children rfl
      (Outline.forall_children_data fun _ => Outline.traced_data)
  | .row | .placeholder => Outline.traced_of_children rfl nofun
  | .list h | .tuple h => Outline.traced_of_children rfl h.traced
  | .dict _ h | .mapping _ h =>
      Outline.traced_of_children rfl (Outline.forall_children_object h.traced)
  | .callable h | .applied h => h.traced
  | .literal h | .constant _ h _ | .setting h => h.traced
  | .wrapped hbody h _ _ =>
      Outline.traced_function (fun happlied => by rw [hbody] at happlied; cases happlied) h.traced
  | .verb _ hpositional hown hgiven =>
      Outline.traced_of_children rfl
        (Outline.forall_children_node hpositional.traced hown.traced hgiven.traced)

theorem LowersEach.traced {c : Scope} {r : Trail} {vs : List Value} {m m' : Mark}
    {os : List Outline} : LowersEach c r vs m os m' → ∀ x ∈ os, x.Traced c
  | .nil => nofun
  | .cons h hs => List.forall_mem_cons.2 ⟨h.traced, hs.traced⟩

theorem LowersCall.traced {c : Scope} {r : Trail} {v hint : Value} {m m' : Mark} {o : Outline} :
    LowersCall c r v hint m o m' → o.Traced c
  | .call _ _ _ hresult h =>
      Outline.traced_function (fun _ => ⟨_, _, _, rfl, hresult, _, _, _, h⟩) h.traced

end

/-- Settings above a place say nothing that is out of scope there. -/
def Trail.ScopedBy (env : List Nat) (r : Trail) : Prop := ∀ e ∈ r, e.2.ScopedBy env

theorem Trail.scopedBy_value {c : Scope} {r : Trail} {env : List Nat} (hc : c.Closed)
    (hr : r.ScopedBy env) (s : Setting) : (r.value c s).ScopedBy env := by
  unfold Trail.value
  split
  · exact hr _ (List.mem_of_find?_eq_some ‹_›)
  · exact (hc.setting s).mono (List.nil_subset _)

theorem Scope.Closed.receiver {c : Scope} (hc : c.Closed) (env : List Nat) :
    c.receiver.ScopedBy env := by
  refine .parts rfl fun w hw => ?_
  cases hw with
  | argument hw =>
      rw [List.mem_singleton.1 hw]
      exact hc.database.mono (List.nil_subset _)

mutual

theorem Lowers.bound {c : Scope} (hc : c.Closed) {env : List Nat} {r : Trail} {v : Value}
    {m m' : Mark} {o : Outline} :
    Lowers c r v m o m' → v.ScopedBy env → r.ScopedBy env → o.Bound env
  | .scalar _, _, _ => Outline.bound_data
  | .moment _, _, _ => .plain rfl (Outline.forall_children_data fun _ => Outline.bound_data)
  | .placeholder, hv, _ => .reference hv.placeholder_mem
  | .row, _, _ => .plain rfl nofun
  | .list h, hv, hr => .plain rfl (h.bound hc (fun w hw => hv.part rfl (.item hw)) hr)
  | .tuple h, hv, hr => .plain rfl (h.bound hc (fun w hw => hv.part rfl (.component hw)) hr)
  | .dict _ h, hv, hr => .plain rfl (Outline.forall_children_object (h.bound hc
      (List.forall_mem_map.2 fun e he => hv.part rfl (.entry he)) hr))
  | .mapping _ h, hv, hr => .plain rfl (Outline.forall_children_object (h.bound hc
      (List.forall_mem_map.2 fun e he => hv.part rfl (.image he)) hr))
  | .callable h, hv, hr => h.bound hc hv hr
  | .applied h, hv, hr => h.bound hc (hv.argument List.mem_cons_self) hr
  | .literal h, hv, hr => h.bound hc (hv.argument List.mem_cons_self) hr
  | .constant _ h _, hv, hr => h.bound hc (hv.argument List.mem_cons_self) hr
  | .setting h, hv, hr => h.bound hc (hv.argument List.mem_cons_self)
      (List.forall_mem_cons.2 ⟨hv.argument (List.mem_cons_of_mem _ List.mem_cons_self), hr⟩)
  | .wrapped hbody h _ _, hv, hr => .function (by
      rw [hbody]
      exact h.bound hc (hv.argument List.mem_cons_self) hr)
  | .verb ha hpositional hown hgiven, hv, hr =>
      .plain (Outline.isPlain_node hv.transparent) (Outline.forall_children_node
      (hpositional.bound hc (Arrangement.forall_positional (hc.receiver env)
        fun w hw => hv.arranged ha w (List.mem_append_left _ hw)) hr)
      (hown.bound hc (fun w hw => hv.arranged ha w (List.mem_append_right _ hw)) hr)
      (hgiven.bound hc (Verb.forall_sent _ (.bool true) (Trail.scopedBy_value hc hr)) hr))

theorem LowersEach.bound {c : Scope} (hc : c.Closed) {env : List Nat} {r : Trail}
    {vs : List Value} {m m' : Mark} {os : List Outline} :
    LowersEach c r vs m os m' → (∀ v ∈ vs, v.ScopedBy env) → r.ScopedBy env →
      ∀ x ∈ os, x.Bound env
  | .nil, _, _ => nofun
  | .cons h hs, hvs, hr => List.forall_mem_cons.2
      ⟨h.bound hc (hvs _ List.mem_cons_self) hr,
        hs.bound hc (fun v hv => hvs v (List.mem_cons_of_mem _ hv)) hr⟩

theorem LowersCall.bound {c : Scope} (hc : c.Closed) {env : List Nat} {r : Trail}
    {v hint : Value} {m m' : Mark} {o : Outline} :
    LowersCall c r v hint m o m' → v.ScopedBy env → r.ScopedBy env → o.Bound env
  | .call htype _ hadmits hresult h, hv, hr => .function (by
      simp only [Value.isApplied, htype, Bool.not_false, if_true]
      refine h.bound hc (hv.result (by rwa [List.length_range']) hresult) fun e he => ?_
      exact (hr e he).mono (List.subset_append_right _ _))

end

end QueryDriver
