import QueryDriver.Codec.Zone
import QueryDriver.Proofs.Codec.Outcome
import QueryDriver.Proofs.Text.Runs

/-!
# The grammar of zones

The offset of a zone is written as `Z`, or as a sign, two digits of hours and two of minutes with or
without a colon between, and lies within a day. `Written` is that grammar with the digits of ASCII,
and every text of it is read as what it is written for.

The reader takes more than the grammar. It knows the digits of every script, and it passes over a
line break at the end; `Taken` is the grammar that it follows. And what it takes may lie a day or
more away, which it does not refuse itself. `Slips` says of a text that one of the two is the case.
-/

namespace QueryDriver.Zone

/-- An offset of some minutes to the east. -/
def ofMinutes (minutes : Int) : Duration := ⟨minutes * 60000000⟩

/-- Two digits that stand for a number. -/
def Pair (value? : Char → Option Nat) (a b : Char) (n : Nat) : Prop :=
  ∃ x y, value? a = some x ∧ value? b = some y ∧ n = 10 * x + y

/-- Two digits of hours and two of minutes with nothing or a colon between, and what stands behind
them. -/
inductive Clock (value? : Char → Option Nat) (tail : List Char) : List Char → Nat → Prop
  | mk {a b c d : Char} {separator : List Char} {hours minutes : Nat}
      (hseparator : separator = [] ∨ separator = [':']) (hhours : Pair value? a b hours)
      (hminutes : Pair value? c d minutes) :
    Clock value? tail (a :: b :: (separator ++ c :: d :: tail)) (hours * 60 + minutes)

/-- A sign and a clock, for the minutes to the east. -/
inductive Signed (value? : Char → Option Nat) (tail : List Char) : List Char → Int → Prop
  | ahead {clock : List Char} {n : Nat} (h : Clock value? tail clock n) :
      Signed value? tail ('+' :: clock) n
  | behind {clock : List Char} {n : Nat} (h : Clock value? tail clock n) :
      Signed value? tail ('-' :: clock) (-n)

/-- The grammar of zones, with the minutes to the east that a text is written for. -/
inductive Written : List Char → Int → Prop
  | upper : Written ['Z'] 0
  | lower : Written ['z'] 0
  | signed {cs : List Char} {minutes : Int} (h : Signed Text.asciiValue? [] cs minutes) :
      Written cs minutes

/-- The grammar that the reader follows: digits of every script, and perhaps a line break at the
end. -/
inductive Taken : List Char → Int → Prop
  | upper : Taken ['Z'] 0
  | lower : Taken ['z'] 0
  | signed {cs tail : List Char} {minutes : Int} (htail : tail = [] ∨ tail = ['\n'])
      (h : Signed Text.digitValue? tail cs minutes) : Taken cs minutes

/-- The reader takes the text, but the text is not in the grammar of zones or its offset does not
lie within a day. -/
def Slips (cs : List Char) : Prop :=
  ∃ minutes, Taken cs minutes ∧ (1440 ≤ minutes.natAbs ∨ ∀ m, ¬ Written cs m)

section Grammar

variable {value? : Char → Option Nat} {tail cs : List Char}

theorem Signed.mono {value?' : Char → Option Nat}
    (h : ∀ c n, value? c = some n → value?' c = some n) {minutes : Int}
    (hsigned : Signed value? tail cs minutes) : Signed value?' tail cs minutes := by
  have hpair {a b : Char} {n : Nat} : Pair value? a b n → Pair value?' a b n :=
    fun ⟨x, y, hx, hy, hn⟩ => ⟨x, y, h a x hx, h b y hy, hn⟩
  cases hsigned with
  | ahead hclock =>
      cases hclock with
      | mk hseparator hhours hminutes => exact .ahead (.mk hseparator (hpair hhours) (hpair hminutes))
  | behind hclock =>
      cases hclock with
      | mk hseparator hhours hminutes => exact .behind (.mk hseparator (hpair hhours) (hpair hminutes))

/-- What is in the grammar is taken. -/
theorem Written.taken {minutes : Int} (h : Written cs minutes) : Taken cs minutes := by
  cases h with
  | upper => exact .upper
  | lower => exact .lower
  | signed h => exact .signed (.inl rfl) (h.mono fun _ _ => Text.digitValue?_of_asciiValue?)

end Grammar

/-! ### What the reader does -/

theorem readPair?_eq_some_iff {a b : Char} {n : Nat} :
    readPair? a b = some n ↔ Pair Text.digitValue? a b n := by
  constructor
  · intro h
    obtain ⟨x, hx, h⟩ := Option.bind_eq_some_iff.1 h
    obtain ⟨y, hy, h⟩ := Option.bind_eq_some_iff.1 h
    exact ⟨x, y, hx, hy, (Option.some.inj h).symm⟩
  · rintro ⟨x, y, hx, hy, rfl⟩
    rw [readPair?, hx, hy]
    rfl

theorem readLast?_eq_some_iff {cs : List Char} {n : Nat} :
    readLast? cs = some n ↔ ∃ a b tail, cs = a :: b :: tail ∧ (tail = [] ∨ tail = ['\n']) ∧
      Pair Text.digitValue? a b n := by
  constructor
  · intro h
    unfold readLast? at h
    split at h
    next a b => exact ⟨a, b, [], rfl, .inl rfl, readPair?_eq_some_iff.1 h⟩
    next a b => exact ⟨a, b, ['\n'], rfl, .inr rfl, readPair?_eq_some_iff.1 h⟩
    next => cases h
  · rintro ⟨a, b, tail, rfl, rfl | rfl, hpair⟩
    · exact readPair?_eq_some_iff.2 hpair
    · exact readPair?_eq_some_iff.2 hpair

theorem digitValue?_colon : Text.digitValue? ':' = none := by decide

/-- The minutes that are read of a clock. -/
theorem readClock?_eq_some_iff {clock : List Char} {n : Nat} :
    (readClock? clock).map (fun c => c.1 * 60 + c.2) = some n ↔
      ∃ tail, (tail = [] ∨ tail = ['\n']) ∧ Clock Text.digitValue? tail clock n := by
  constructor
  · intro h
    obtain ⟨⟨hours, minutes⟩, hread, rfl⟩ := Option.map_eq_some_iff.1 h
    clear h
    unfold readClock? at hread
    split at hread
    next a b rest =>
      obtain ⟨x, hx, hread⟩ := Option.bind_eq_some_iff.1 hread
      obtain ⟨y, hy, hread⟩ := Option.bind_eq_some_iff.1 hread
      cases hread
      obtain ⟨c, d, tail, hrest, htail, hminutes⟩ := readLast?_eq_some_iff.1 hy
      refine ⟨tail, htail, ?_⟩
      split at hrest
      next digits =>
        subst hrest
        exact .mk (.inr rfl) (readPair?_eq_some_iff.1 hx) hminutes
      next =>
        subst hrest
        exact .mk (.inl rfl) (readPair?_eq_some_iff.1 hx) hminutes
    next => cases hread
  · rintro ⟨tail, htail, @⟨_, _, c, d, separator, hours, minutes, hseparator, hhours, hminutes⟩⟩
    have hx := readPair?_eq_some_iff.2 hhours
    have hy := readLast?_eq_some_iff.2 ⟨c, d, tail, rfl, htail, hminutes⟩
    obtain rfl | rfl := hseparator
    · have hcolon : c ≠ ':' := by
        rintro rfl
        obtain ⟨x, y, hc, -⟩ := hminutes
        cases digitValue?_colon.symm.trans hc
      simp [readClock?, hx, hy, hcolon]
    · simp [readClock?, hx, hy]

theorem ofSeconds_eq_ofMinutes {seconds minutes : Int} (h : seconds = minutes * 60) :
    Duration.ofSeconds seconds = ofMinutes minutes := by
  rw [Duration.ofSeconds, ofMinutes, Duration.mk.injEq]
  omega

theorem readOffset?_eq_some_iff {cs : List Char} {east : Duration} :
    readOffset? cs = some east ↔ ∃ tail minutes, (tail = [] ∨ tail = ['\n']) ∧
      Signed Text.digitValue? tail cs minutes ∧ east = ofMinutes minutes := by
  constructor
  · intro h
    unfold readOffset? at h
    split at h
    next clock =>
      obtain ⟨c, hread, rfl⟩ := Option.map_eq_some_iff.1 h
      obtain ⟨tail, htail, hclock⟩ := readClock?_eq_some_iff.1
        (Option.map_eq_some_iff.2 ⟨c, hread, rfl⟩)
      exact ⟨tail, _, htail, .ahead hclock, ofSeconds_eq_ofMinutes rfl⟩
    next clock =>
      obtain ⟨c, hread, rfl⟩ := Option.map_eq_some_iff.1 h
      obtain ⟨tail, htail, hclock⟩ := readClock?_eq_some_iff.1
        (Option.map_eq_some_iff.2 ⟨c, hread, rfl⟩)
      exact ⟨tail, _, htail, .behind hclock, ofSeconds_eq_ofMinutes (Int.neg_mul _ _).symm⟩
    next => cases h
  · rintro ⟨tail, minutes, htail, hclock | hclock, rfl⟩
    · obtain ⟨c, hread, rfl⟩ := Option.map_eq_some_iff.1
        (readClock?_eq_some_iff.2 ⟨tail, htail, hclock⟩)
      rw [readOffset?, hread, Option.map_some, ofSeconds_eq_ofMinutes rfl]
    · obtain ⟨c, hread, rfl⟩ := Option.map_eq_some_iff.1
        (readClock?_eq_some_iff.2 ⟨tail, htail, hclock⟩)
      rw [readOffset?, hread, Option.map_some, ofSeconds_eq_ofMinutes (Int.neg_mul _ _).symm]

theorem check_ofMinutes (minutes : Int) : check (ofMinutes minutes) =
    if minutes.natAbs < 1440 then .ok (ofMinutes minutes)
    else .error (.fault (.offsetOutOfRange (ofMinutes minutes))) := by
  have hbound : (minutes * 60000000).natAbs < 86400000000 ↔ minutes.natAbs < 1440 := by omega
  simp only [check, inBounds, ofMinutes, decide_eq_true_eq, hbound]

/-- A text that is taken is held against the bound of zones. -/
theorem parse_of_taken {s : String} {minutes : Int} (h : Taken s.toList minutes) :
    parse s = check (ofMinutes minutes) := by
  generalize hcs : s.toList = cs at h
  cases h with
  | upper =>
      obtain rfl : s = "Z" := String.toList_inj.1 hcs
      rfl
  | lower =>
      obtain rfl : s = "z" := String.toList_inj.1 hcs
      rfl
  | @signed _ tail _ htail h =>
      have hread := readOffset?_eq_some_iff.2 ⟨tail, minutes, htail, h, rfl⟩
      have hsign : ¬ (s = "Z" ∨ s = "z") := by
        rintro (rfl | rfl) <;> cases hcs <;> cases h
      rw [parse, if_neg hsign, hcs, hread]

/-- Every other text is refused by the codec. -/
theorem parse_of_not_taken {s : String} (h : ∀ minutes, ¬ Taken s.toList minutes) :
    parse s = .error (.ofCause (.badZone s)) := by
  have hzulu : ¬ (s = "Z" ∨ s = "z") := by
    rintro (rfl | rfl)
    · exact h 0 .upper
    · exact h 0 .lower
  have hread : readOffset? s.toList = none := by
    refine Option.eq_none_iff_forall_ne_some.2 fun east heast => ?_
    obtain ⟨tail, minutes, htail, hsigned, -⟩ := readOffset?_eq_some_iff.1 heast
    exact h minutes (.signed htail hsigned)
  rw [parse, if_neg hzulu, hread]

/-- A text that the grammar takes as well, for an offset within a day, does not slip. -/
theorem not_slips {s : String} {minutes : Int} (h : Written s.toList minutes)
    (hbound : minutes.natAbs < 1440) : ¬ Slips s.toList := by
  rintro ⟨m, hm, hfar | hnone⟩
  · have hsame := (parse_of_taken hm).symm.trans (parse_of_taken h.taken)
    rw [check_ofMinutes, check_ofMinutes, if_neg (by omega), if_pos hbound] at hsame
    cases hsame
  · exact hnone minutes h

/-- Reading a text as an offset comes to an offset exactly if the text is in the grammar of zones
and its offset lies within a day, and to that offset; and where it comes to none the codec refuses
the text. This is so for every text that does not slip. For a text that slips, what it is taken for
is handed out if it lies within a day, and is a fault otherwise. -/
theorem parse_grammar (s : String) :
    (¬ Slips s.toList →
      (∀ east, parse s = .ok east ↔ ∃ minutes, Written s.toList minutes ∧
        minutes.natAbs < 1440 ∧ east = ofMinutes minutes) ∧
      ∀ e, parse s = .error e → e.IsUnmarshalable) ∧
    ∀ minutes, Taken s.toList minutes →
      parse s = if minutes.natAbs < 1440 then .ok (ofMinutes minutes)
        else .error (.fault (.offsetOutOfRange (ofMinutes minutes))) := by
  have htaken (minutes : Int) (h : Taken s.toList minutes) :=
    (parse_of_taken h).trans (check_ofMinutes minutes)
  refine ⟨fun hslips => ?_, htaken⟩
  by_cases hany : ∃ minutes, Taken s.toList minutes
  · obtain ⟨minutes, h⟩ := hany
    have hsound (m : Int) (hm : Taken s.toList m) : m.natAbs < 1440 :=
      Nat.not_le.1 fun hfar => hslips ⟨m, hm, .inl hfar⟩
    have hparse : parse s = .ok (ofMinutes minutes) := by
      rw [htaken minutes h, if_pos (hsound minutes h)]
    refine ⟨fun east => ⟨fun heast => ?_, ?_⟩, fun e he => (by cases hparse.symm.trans he)⟩
    · obtain ⟨m, hm⟩ : ∃ m, Written s.toList m := by
        by_contra hnone
        exact hslips ⟨minutes, h, .inr (not_exists.1 hnone)⟩
      have hm' := hsound m hm.taken
      rw [htaken m hm.taken, if_pos hm'] at heast
      exact ⟨m, hm, hm', (Except.ok.inj heast).symm⟩
    · rintro ⟨m, hm, hm', rfl⟩
      rw [htaken m hm.taken, if_pos hm']
  · have hparse := parse_of_not_taken (not_exists.1 hany)
    refine ⟨fun east => ⟨fun heast => (by cases hparse.symm.trans heast), ?_⟩, fun e he => ?_⟩
    · rintro ⟨m, hm, -⟩
      exact absurd ⟨m, hm.taken⟩ hany
    · cases hparse.symm.trans he
      exact Failure.isUnmarshalable_ofCause rfl

theorem parse_grammar_newfoundland :
    ¬ Slips "-03:30".toList ∧ parse "-03:30" = .ok (ofMinutes (-210)) ∧
      Taken "+24:00".toList 1440 ∧
      parse "+24:00" = .error (.fault (.offsetOutOfRange (ofMinutes 1440))) := by
  have hwritten : Written "-03:30".toList (-210) := .signed (.behind (.mk (.inr rfl)
    ⟨0, 3, by decide, by decide, rfl⟩ ⟨3, 0, by decide, by decide, rfl⟩))
  have htaken : Taken "+24:00".toList 1440 := .signed (.inl rfl) (.ahead (.mk (.inr rfl)
    ⟨2, 4, by decide, by decide, rfl⟩ ⟨0, 0, by decide, by decide, rfl⟩))
  have hslips := not_slips hwritten (by decide)
  obtain ⟨hread, -⟩ := (parse_grammar "-03:30").1 hslips
  exact ⟨hslips, (hread _).2 ⟨-210, hwritten, by decide, rfl⟩, htaken,
    (parse_grammar "+24:00").2 1440 htaken⟩

end QueryDriver.Zone
