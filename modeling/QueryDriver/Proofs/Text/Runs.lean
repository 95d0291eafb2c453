import QueryDriver.Proofs.Text.Reading
import QueryDriver.Text.Blank
import QueryDriver.Text.Digit

/-!
# Runs of blanks and of digits

Blanks at the two ends of a text are taken off, and nothing else is as long as the text between
them begins and ends with something else.

The ten digits of ASCII are digits among those of all scripts, and they have the same value there.
So a run of them is read as the number that it denotes.
-/

namespace QueryDriver.Text

/-! ### Blanks -/

variable {cs : List Char}

/-- What begins otherwise loses nothing at its front. -/
theorem dropWhile_of_begins {p : Char → Bool} (h : Begins (fun c => !p c) cs) :
    cs.dropWhile p = cs := by
  cases cs with
  | nil => rfl
  | cons c cs =>
      have hc : p c = false := by simpa using begins_cons.1 h
      rw [List.dropWhile_cons_of_neg (by simp [hc])]

theorem begins_of_forall {p : Char → Bool} (h : ∀ c ∈ cs, p c = true) : Begins p cs :=
  fun c hc => h c (List.mem_of_mem_head? hc)

/-- What stands behind a text that is not empty does not change how it begins. -/
theorem Begins.append {p : Char → Bool} (h : Begins p cs) (hne : cs ≠ []) (later : List Char) :
    Begins p (cs ++ later) := by
  obtain ⟨c, cs, rfl⟩ := List.exists_cons_of_ne_nil hne
  exact begins_cons.2 (begins_cons.1 h)

/-- There is no blank at the front and none at the end. -/
structure Trimmed (cs : List Char) : Prop where
  front : Begins (fun c => !isBlank c) cs
  back : Begins (fun c => !isBlank c) cs.reverse

section Blanks

variable {left core right : String} (hne : core.toList ≠ []) (h : Trimmed core.toList)

include hne h

/-- The text between blanks is what is left when they are taken off. -/
theorem trim_eq_core (hleft : allBlank left = true) (hright : allBlank right = true) :
    trim (left ++ core ++ right) = core := by
  have hends : ∀ c ∈ right.toList.reverse, isBlank c = true := fun c hc =>
    List.all_eq_true.1 hright c (List.mem_reverse.1 hc)
  refine String.toList_inj.1 ?_
  simp only [trim, String.toList_append, String.toList_ofList, List.append_assoc]
  rw [List.dropWhile_append_of_pos (List.all_eq_true.1 hleft),
    dropWhile_of_begins (h.front.append hne _), dropEnd, List.reverse_append,
    List.dropWhile_append_of_pos hends, dropWhile_of_begins h.back, List.reverse_reverse]

/-- A text that does not begin with a blank is not blank, whatever stands around it. -/
theorem allBlank_eq_false : allBlank (left ++ core ++ right) = false := by
  obtain ⟨c, cs, hcs⟩ := List.exists_cons_of_ne_nil hne
  have hfront := h.front
  rw [hcs, begins_cons, Bool.not_eq_true'] at hfront
  simp [allBlank, hcs, hfront]

end Blanks

/-! ### Digits of ASCII -/

/-- The value of a digit of ASCII. -/
def asciiValue? (c : Char) : Option Nat := if c.isDigit then some (c.toNat - '0'.toNat) else none

theorem bounds_of_isDigit {c : Char} (h : c.isDigit = true) : 48 ≤ c.toNat ∧ c.toNat ≤ 57 := by
  simpa [Char.isDigit, UInt32.le_iff_toNat_le] using h

theorem digitValue?_of_isDigit {c : Char} (h : c.isDigit = true) :
    digitValue? c = some (c.toNat - '0'.toNat) := by
  rw [digitValue?, zeros, List.find?_cons_of_pos (by simpa using bounds_of_isDigit h)]
  rfl

theorem digitValue?_of_asciiValue? {c : Char} {n : Nat} (h : asciiValue? c = some n) :
    digitValue? c = some n := by
  unfold asciiValue? at h
  split at h
  next hdigit => rw [← h, digitValue?_of_isDigit hdigit]
  next => cases h

theorem isBlank_of_isDigit {c : Char} (h : c.isDigit = true) : isBlank c = false := by
  have hbounds := bounds_of_isDigit h
  simp only [isBlank, Bool.or_eq_false_iff, Bool.and_eq_false_iff, decide_eq_false_iff_not,
    beq_eq_false_iff_ne]
  omega

/-- A run of digits of ASCII is read as the number that it denotes. -/
theorem readDigits_of_isDigit (h : ∀ c ∈ cs, c.isDigit = true) :
    readDigits cs = some (Nat.ofDigitChars 10 cs 0) := by
  have hfold (n : Nat) : cs.foldl (fun acc c => do return 10 * (← acc) + (← digitValue? c))
      (some n) = some (Nat.ofDigitChars 10 cs n) := by
    induction cs generalizing n with
    | nil => rfl
    | cons c cs ih =>
        obtain ⟨hc, hcs⟩ := List.forall_mem_cons.1 h
        rw [List.foldl_cons, digitValue?_of_isDigit hc]
        exact ih hcs _
  exact hfold 0

end QueryDriver.Text
