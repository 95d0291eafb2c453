import QueryDriver.Proofs.Lowering.Scoping

/-!
# Terms without what settings add

`Term.stripped` takes the options away that settings give the operations of a term. Two
terms that are the same up to such options mention the row in the same places, so either
both can stand for themselves where a function is expected, or neither can.
-/

namespace QueryDriver

open Wire

/-- The operation with a code. -/
def Verb.ofCode? (n : Int32) : Option Verb := Verb.all.find? fun v => v.code == n

theorem Verb.ofCode?_code (v : Verb) : Verb.ofCode? v.code = some v := by
  cases v <;> decide +kernel

theorem Verb.code_injective {v v' : Verb} (h : v.code = v'.code) : v = v' := by
  rw [← Option.some_inj, ← Verb.ofCode?_code v, h, Verb.ofCode?_code]

namespace Wire.Term

/-- Settings give an operation with the tag an option of that name. -/
def isGiven (tag : Option Int32) (name : Option String) : Bool :=
  match tag.bind Verb.ofCode? with
  | none => false
  | some v => v.settings.any fun s => some s.key == name

mutual

/-- The term without the options that settings give its operations. -/
def stripped : Term → Term
  | ⟨tag, datum, args, options⟩ => ⟨tag, datum, strippedEach args, strippedOptions tag options⟩

def strippedEach : List Term → List Term
  | [] => []
  | t :: ts => stripped t :: strippedEach ts

def strippedOptions (tag : Option Int32) :
    List (Option String × Option Term) → List (Option String × Option Term)
  | [] => []
  | (name, value) :: os =>
    if isGiven tag name then strippedOptions tag os
    else (name, strippedValue value) :: strippedOptions tag os

def strippedValue : Option Term → Option Term
  | none => none
  | some t => some (stripped t)

end

theorem isGiven_code (v : Verb) (name : String) :
    isGiven (some v.code) (some name) = v.settings.any fun s => s.key == name := by
  simp [isGiven, Verb.ofCode?_code]

theorem strippedOptions_append (tag : Option Int32) (os qs : List (Option String × Option Term)) :
    strippedOptions tag (os ++ qs) = strippedOptions tag os ++ strippedOptions tag qs := by
  induction os with
  | nil => rfl
  | cons o os ih =>
      obtain ⟨name, value⟩ := o
      rw [List.cons_append, strippedOptions, strippedOptions, ih]
      split <;> rfl

theorem anyOptionMentionsRow_append (os qs : List (Option String × Option Term)) :
    anyOptionMentionsRow (os ++ qs) = (anyOptionMentionsRow os || anyOptionMentionsRow qs) := by
  induction os with
  | nil => rfl
  | cons o os ih =>
      obtain ⟨name, value⟩ := o
      rw [List.cons_append, anyOptionMentionsRow, anyOptionMentionsRow, ih, Bool.or_assoc]

/-! ### Terms that are the same up to what settings add -/

/-- The terms are the same up to what settings add. -/
structure Same (t u : Term) : Prop where
  stripped : t.stripped = u.stripped
  mentionsRow : t.mentionsRow = u.mentionsRow

/-- Options of operations with one tag are the same up to what settings add. -/
structure SameOptions (tag : Option Int32) (os qs : List (Option String × Option Term)) : Prop where
  stripped : strippedOptions tag os = strippedOptions tag qs
  mentionsRow : anyOptionMentionsRow os = anyOptionMentionsRow qs

theorem Same.refl (t : Term) : Same t t := ⟨rfl, rfl⟩

theorem same_of_parts {tag : Option Int32} {datum : Option Datum} {ts us : List Term}
    {os qs : List (Option String × Option Term)} (hargs : List.Forall₂ Same ts us)
    (hoptions : SameOptions tag os qs) : Same ⟨tag, datum, ts, os⟩ ⟨tag, datum, us, qs⟩ := by
  have heach : strippedEach ts = strippedEach us ∧ anyMentionsRow ts = anyMentionsRow us := by
    induction hargs with
    | nil => exact ⟨rfl, rfl⟩
    | cons h _ ih => simp [strippedEach, anyMentionsRow, h.stripped, h.mentionsRow, ih]
  constructor
  · rw [Term.stripped, Term.stripped, heach.1, hoptions.stripped]
  · rw [Term.mentionsRow, Term.mentionsRow, heach.2, hoptions.mentionsRow]

namespace SameOptions

variable {tag : Option Int32} {os os' qs qs' : List (Option String × Option Term)}

theorem append (h : SameOptions tag os qs) (h' : SameOptions tag os' qs') :
    SameOptions tag (os ++ os') (qs ++ qs') := by
  constructor
  · rw [strippedOptions_append, strippedOptions_append, h.stripped, h'.stripped]
  · rw [anyOptionMentionsRow_append, anyOptionMentionsRow_append, h.mentionsRow, h'.mentionsRow]

/-- Options with the same names and the same terms. -/
theorem of_forall₂ (h : List.Forall₂ (fun o q => o.1 = q.1 ∧ ∃ t u, o.2 = some t ∧ q.2 = some u ∧
    Same t u) os qs) : SameOptions tag os qs := by
  induction h with
  | nil => exact ⟨rfl, rfl⟩
  | @cons o q os qs h _ ih =>
      obtain ⟨name, value⟩ := o
      obtain ⟨name', value'⟩ := q
      obtain ⟨rfl, t, u, rfl, rfl, hsame⟩ := h
      constructor
      · simp only [strippedOptions, strippedValue, hsame.stripped, ih.stripped]
      · simp only [anyOptionMentionsRow, valueMentionsRow, hsame.mentionsRow, ih.mentionsRow]

/-- What settings add does not count. -/
theorem of_given (h : ∀ o ∈ os, isGiven tag o.1 = true ∧ valueMentionsRow o.2 = false)
    (h' : ∀ o ∈ qs, isGiven tag o.1 = true ∧ valueMentionsRow o.2 = false) :
    SameOptions tag os qs := by
  have hnone {os : List (Option String × Option Term)}
      (h : ∀ o ∈ os, isGiven tag o.1 = true ∧ valueMentionsRow o.2 = false) :
      strippedOptions tag os = [] ∧ anyOptionMentionsRow os = false := by
    induction os with
    | nil => exact ⟨rfl, rfl⟩
    | cons o os ih =>
        obtain ⟨name, value⟩ := o
        obtain ⟨⟨hgiven, hrow⟩, hrest⟩ := List.forall_mem_cons.1 h
        simp only at hgiven hrow
        simp [strippedOptions, anyOptionMentionsRow, hgiven, hrow, ih hrest]
  exact ⟨(hnone h).1.trans (hnone h').1.symm, (hnone h).2.trans (hnone h').2.symm⟩

end SameOptions

namespace Same

variable {t u : Term}

theorem tag (h : Same t u) : t.tag = u.tag := by
  have htag (t : Term) : t.stripped.tag = t.tag := by
    obtain ⟨tag, datum, args, options⟩ := t
    rfl
  rw [← htag t, ← htag u, h.stripped]

theorem isConstant (h : Same t u) : t.isConstant = u.isConstant := by
  unfold Term.isConstant Term.kind
  rw [h.tag, h.mentionsRow]

theorem function (h : Same t u) (params : List Nat) :
    Same (functionTerm params t) (functionTerm params u) :=
  same_of_parts (.cons (.refl _) (.cons h .nil)) ⟨rfl, rfl⟩

theorem makeArray {ts us : List Term} (h : List.Forall₂ Same ts us) :
    Same (Term.makeArray ts) (Term.makeArray us) :=
  same_of_parts h ⟨rfl, rfl⟩

theorem makeObject {es qs : List (String × Term)}
    (h : List.Forall₂ (fun e q => e.1 = q.1 ∧ Same e.2 q.2) es qs) :
    Same (Term.makeObject es) (Term.makeObject qs) := by
  refine same_of_parts .nil (.of_forall₂ ?_)
  rw [List.forall₂_map_left_iff, List.forall₂_map_right_iff]
  exact h.imp fun e q h => ⟨congrArg some h.1, _, _, rfl, rfl, h.2⟩

end Same

end Wire.Term

end QueryDriver
