import Mathlib.Algebra.Group.Nat.Defs
import Mathlib.Data.List.Basic
import QueryDriver.Number.Layout
import QueryDriver.Text.Quoted

/-!
# Texts that are read off the front

What is written for a value is told apart from what follows it if no other value could have been
written there. `Readable P f a` says so of the text `f a`, where what follows is known to begin as
`P` says. Runs of characters of one class, numbers, quoted texts, and lists with commas between
their items are readable.
-/

namespace QueryDriver.Text

variable {α : Type}

/-- Of the texts that `f` writes only that for `a` can stand in front of what begins as `P`
says. -/
def Readable (P : List Char → Prop) (f : α → List Char) (a : α) : Prop :=
  ∀ b x y, P x → P y → f a ++ x = f b ++ y → a = b ∧ x = y

theorem Readable.mono {P Q : List Char → Prop} {f : α → List Char} {a : α} (h : Readable P f a)
    (hQP : ∀ x, Q x → P x) : Readable Q f a :=
  fun b x y hx hy => h b x y (hQP x hx) (hQP y hy)

/-- The first character, if there is one, is of a class. -/
def Begins (p : Char → Bool) (x : List Char) : Prop := ∀ c ∈ x.head?, p c = true

theorem begins_nil {p : Char → Bool} : Begins p [] := by
  simp [Begins]

theorem begins_cons {p : Char → Bool} {c : Char} {x : List Char} :
    Begins p (c :: x) ↔ p c = true := by
  simp [Begins]

theorem Begins.mono {p q : Char → Bool} {x : List Char} (h : Begins p x)
    (hpq : ∀ c, p c = true → q c = true) : Begins q x :=
  fun c hc => hpq c (h c hc)

/-! ### Runs of characters of one class -/

/-- A run of characters of one class ends where another class begins. -/
theorem run_append_inj {p : Char → Bool} {s t x y : List Char} (hs : ∀ c ∈ s, p c = true)
    (ht : ∀ c ∈ t, p c = true) (hx : Begins (fun c => !p c) x) (hy : Begins (fun c => !p c) y)
    (h : s ++ x = t ++ y) : s = t ∧ x = y := by
  have hrun {s x : List Char} (hs : ∀ c ∈ s, p c = true) (hx : Begins (fun c => !p c) x) :
      (s ++ x).takeWhile p = s := by
    rw [List.takeWhile_append_of_pos hs]
    cases x with
    | nil => simp
    | cons c x =>
        have hc : p c = false := by simpa using begins_cons.1 hx
        simp [hc]
  have hst : s = t := by rw [← hrun hs hx, h, hrun ht hy]
  exact ⟨hst, List.append_cancel_left (hst ▸ h)⟩

/-! ### Numbers -/

theorem toList_digits (n : Nat) : (Layout.digits n).toList = Nat.toDigits 10 n :=
  String.toList_ofList

theorem isDigit_toDigits {n : Nat} {c : Char} (hc : c ∈ Nat.toDigits 10 n) : c.isDigit = true :=
  Nat.isDigit_of_mem_toDigits (by decide) (by decide) hc

theorem readable_toDigits (n : Nat) :
    Readable (Begins fun c => !c.isDigit) (Nat.toDigits 10) n := by
  intro m x y hx hy h
  obtain ⟨hdigits, hxy⟩ := run_append_inj (fun _ => isDigit_toDigits) (fun _ => isDigit_toDigits)
    hx hy h
  refine ⟨?_, hxy⟩
  rw [← Nat.ofDigitChars_ten_toDigits (n := n), hdigits, Nat.ofDigitChars_ten_toDigits]

theorem toDigits_eq_cons (n : Nat) : ∃ c cs, Nat.toDigits 10 n = c :: cs ∧ c.isDigit = true := by
  cases h : Nat.toDigits 10 n with
  | nil => exact absurd h Nat.toDigits_ne_nil
  | cons c cs => exact ⟨c, cs, rfl, isDigit_toDigits (h ▸ List.mem_cons_self)⟩

theorem toList_int (n : Int) : (toString n).toList =
    if 0 ≤ n then Nat.toDigits 10 n.toNat else '-' :: Nat.toDigits 10 (-n).toNat := by
  rw [Int.toString_eq_repr, Int.repr_eq_if]
  split <;> simp

theorem readable_int (n : Int) :
    Readable (Begins fun c => !c.isDigit) (fun n : Int => (toString n).toList) n := by
  have hminus {k : Nat} {x y : List Char} : Nat.toDigits 10 k ++ x ≠ '-' :: y := by
    obtain ⟨c, cs, hdigits, hc⟩ := toDigits_eq_cons k
    rw [hdigits]
    intro h
    obtain ⟨rfl, -⟩ := List.cons.inj h
    exact absurd hc (by decide)
  intro m x y hx hy h
  simp only [toList_int] at h
  by_cases hn : 0 ≤ n <;> by_cases hm : 0 ≤ m <;> simp only [hn, hm, if_true, if_false] at h
  · obtain ⟨hnm, hxy⟩ := readable_toDigits _ _ x y hx hy h
    exact ⟨by omega, hxy⟩
  · exact absurd h hminus
  · exact absurd h.symm hminus
  · obtain ⟨hnm, hxy⟩ := readable_toDigits _ _ x y hx hy (List.cons.inj h).2
    exact ⟨by omega, hxy⟩

/-! ### Quoted texts -/

theorem hexDigit_inj {m n : Nat} (h : hexDigit m = hexDigit n) : m % 16 = n % 16 := by
  have hdigit (n : Nat) : hexDigit n = (n % 16).digitChar := by
    rw [hexDigit, Nat.toDigits_of_lt_base (Nat.mod_lt n (by decide)), List.headD_cons]
  have hall : ∀ a < 16, ∀ b < 16, a.digitChar = b.digitChar → a = b := by decide
  rw [hdigit, hdigit] at h
  exact hall _ (Nat.mod_lt m (by decide)) _ (Nat.mod_lt n (by decide)) h

theorem length_hexDigits (width n : Nat) : (hexDigits width n).length = width := by
  induction width generalizing n with
  | zero => rfl
  | succ width ih => rw [hexDigits, List.length_append, ih, List.length_singleton]

theorem hexDigits_inj {width m n : Nat} (h : hexDigits width m = hexDigits width n) :
    m % 16 ^ width = n % 16 ^ width := by
  induction width generalizing m n with
  | zero => rw [Nat.pow_zero, Nat.mod_one, Nat.mod_one]
  | succ width ih =>
      rw [hexDigits, hexDigits] at h
      obtain ⟨hfront, hlast⟩ := List.append_inj' h
        (by rw [List.length_singleton, List.length_singleton])
      have hdiv := ih hfront
      have hmod := hexDigit_inj (List.singleton_inj.1 hlast)
      rw [Nat.pow_succ', Nat.mod_mul, Nat.mod_mul (x := n), hdiv, hmod]

theorem hexDigits_append_inj {width m n : Nat} {x y : List Char} (hm : m < 16 ^ width)
    (hn : n < 16 ^ width) (h : hexDigits width m ++ x = hexDigits width n ++ y) :
    m = n ∧ x = y := by
  obtain ⟨hdigits, hxy⟩ := List.append_inj h (by rw [length_hexDigits, length_hexDigits])
  have hmod := hexDigits_inj hdigits
  rw [Nat.mod_eq_of_lt hm, Nat.mod_eq_of_lt hn] at hmod
  exact ⟨hmod, hxy⟩

/-- The ways in which a character of a quoted text is written. -/
inductive Escape (q c : Char) : List Char → Prop where
  | plain (h : c ≠ '\\' ∧ c ≠ q) : Escape q c [c]
  | self (h : c = q ∨ c = '\\') : Escape q c ['\\', c]
  | letter {l : Char} (h : (c, l) ∈ [('\n', 'n'), ('\r', 'r'), ('\t', 't')]) :
      Escape q c ['\\', l]
  | number {l : Char} {width : Nat} (hl : (l, width) ∈ [('x', 2), ('u', 4), ('U', 8)])
      (h : c.toNat < 16 ^ width) : Escape q c ('\\' :: l :: hexDigits width c.toNat)

theorem escape_escapeChar (q c : Char) : Escape q c (escapeChar q c) := by
  have hc : c.toNat < 16 ^ 8 := c.val.toNat_lt
  unfold escapeChar
  split
  case isTrue h => exact .self h
  case isFalse h =>
    obtain ⟨hq, hslash⟩ := not_or.1 h
    split
    case isTrue h => exact .letter (by simp [h])
    split
    case isTrue h => exact .letter (by simp [h])
    split
    case isTrue h => exact .letter (by simp [h])
    split
    case isTrue => exact .plain ⟨hslash, hq⟩
    split
    case isTrue h => exact .number (by simp) h
    split
    case isTrue h => exact .number (by simp) h
    exact .number (by simp) hc

/-- The quotes that a text may stand between. -/
def IsQuote (q : Char) : Prop := q = '\x27' ∨ q = '\x22'

theorem isQuote_quoteFor (apostrophe doubleQuote : Bool) :
    IsQuote (quoteFor apostrophe doubleQuote) := by
  unfold quoteFor
  split
  · exact .inr rfl
  · exact .inl rfl

theorem Escape.append_inj {q c d : Char} {s t x y : List Char} (hq : IsQuote q)
    (hc : Escape q c s) (hd : Escape q d t) (h : s ++ x = t ++ y) : c = d ∧ x = y := by
  unfold IsQuote at hq
  cases hc with
  | plain hc =>
      cases hd with
      | plain => simpa using h
      | self | letter | number => exact absurd (List.cons.inj h).1 hc.1
  | self hc =>
      cases hd with
      | plain hd => exact absurd (List.cons.inj h).1.symm hd.1
      | self => simpa using h
      | letter hl | number hl =>
          simp only [List.mem_cons, Prod.mk.injEq, List.not_mem_nil, or_false] at hl
          grind
  | letter hl =>
      cases hd with
      | plain hd => exact absurd (List.cons.inj h).1.symm hd.1
      | self hd | letter hl' | number hl' =>
          simp only [List.mem_cons, Prod.mk.injEq, List.not_mem_nil, or_false] at *
          grind
  | number hl hc =>
      cases hd with
      | plain hd => exact absurd (List.cons.inj h).1.symm hd.1
      | self hd | letter hl' =>
          simp only [List.mem_cons, Prod.mk.injEq, List.not_mem_nil, or_false] at *
          grind
      | number hl' hd =>
          obtain ⟨-, htail⟩ := List.cons.inj h
          obtain ⟨rfl, hdigits⟩ := List.cons.inj htail
          simp only [List.mem_cons, Prod.mk.injEq, List.not_mem_nil, or_false] at hl hl'
          grind [hexDigits_append_inj, Char.toNat_inj]

theorem Escape.ne_quote {q c : Char} {s : List Char} (hq : IsQuote q) (h : Escape q c s)
    (x y : List Char) : s ++ x ≠ q :: y := by
  have hslash : '\\' ≠ q := by obtain rfl | rfl := hq <;> decide
  intro heq
  cases h with
  | plain h => exact h.2 (List.cons.inj heq).1
  | self | letter | number => exact hslash (List.cons.inj heq).1

theorem escaped_append_inj {q : Char} (hq : IsQuote q) {cs ds x y : List Char}
    (h : cs.flatMap (escapeChar q) ++ q :: x = ds.flatMap (escapeChar q) ++ q :: y) :
    cs = ds ∧ x = y := by
  induction cs generalizing ds with
  | nil =>
      cases ds with
      | nil => exact ⟨rfl, (List.cons.inj h).2⟩
      | cons d ds =>
          rw [List.flatMap_cons, List.append_assoc] at h
          exact absurd h.symm ((escape_escapeChar q d).ne_quote hq _ _)
  | cons c cs ih =>
      rw [List.flatMap_cons, List.append_assoc] at h
      cases ds with
      | nil => exact absurd h ((escape_escapeChar q c).ne_quote hq _ _)
      | cons d ds =>
          rw [List.flatMap_cons, List.append_assoc] at h
          obtain ⟨rfl, hbehind⟩ := (escape_escapeChar q c).append_inj hq (escape_escapeChar q d) h
          obtain ⟨rfl, hxy⟩ := ih hbehind
          exact ⟨rfl, hxy⟩

theorem quoted_eq_cons (s : String) : ∃ q, IsQuote q ∧
    (quoted s).toList = q :: (s.toList.flatMap (escapeChar q) ++ [q]) :=
  ⟨_, isQuote_quoteFor _ _, String.toList_ofList⟩

theorem readable_quoted (s : String) : Readable (fun _ => True) (fun s => (quoted s).toList) s := by
  intro t x y _ _ h
  obtain ⟨q, hq, hs⟩ := quoted_eq_cons s
  obtain ⟨r, -, ht⟩ := quoted_eq_cons t
  simp only [hs, ht, List.cons_append, List.append_assoc, List.nil_append, List.cons.injEq] at h
  obtain ⟨rfl, h⟩ := h
  obtain ⟨hst, hxy⟩ := escaped_append_inj hq h
  exact ⟨String.toList_inj.1 hst, hxy⟩

/-! ### Lists -/

theorem toList_commaList_cons (s : String) (ss : List String) : (commaList (s :: ss)).toList =
    s.toList ++ ss.flatMap fun t => ',' :: ' ' :: t.toList := by
  induction ss generalizing s with
  | nil => simp [commaList]
  | cons t ts ih =>
      rw [commaList, String.intercalate_cons_cons, ← commaList, String.toList_append,
        String.toList_append, ih, List.flatMap_cons]
      simp

/-- Items are told apart that can stand in front of a comma and of what ends the list, and that
do not begin with what ends it. -/
theorem commaList_append_inj {P : List Char → Prop} {f : α → String} {stop : Char}
    (hcomma : ∀ z, P (',' :: z)) (hstop : ∀ z, P (stop :: z)) (hne : stop ≠ ',') {as bs : List α}
    (has : ∀ a ∈ as, Readable P (fun a => (f a).toList) a)
    (hbegins : ∀ a, ∃ c cs, (f a).toList = c :: cs ∧ c ≠ stop) {x y : List Char}
    (h : (commaList (as.map f)).toList ++ stop :: x = (commaList (bs.map f)).toList ++ stop :: y) :
    as = bs ∧ x = y := by
  have hrest (as : List α) (x : List Char) :
      P (((as.map f).flatMap fun t => ',' :: ' ' :: t.toList) ++ stop :: x) := by
    cases as with
    | nil => exact hstop x
    | cons => exact hcomma _
  have htail {as bs : List α} (has : ∀ a ∈ as, Readable P (fun a => (f a).toList) a)
      (h : ((as.map f).flatMap fun t => ',' :: ' ' :: t.toList) ++ stop :: x =
        ((bs.map f).flatMap fun t => ',' :: ' ' :: t.toList) ++ stop :: y) : as = bs ∧ x = y := by
    induction as generalizing bs with
    | nil =>
        cases bs with
        | nil => simpa using h
        | cons b bs => exact absurd (List.cons.inj h).1 hne
    | cons a as ih =>
        cases bs with
        | nil => exact absurd (List.cons.inj h).1.symm hne
        | cons b bs =>
            obtain ⟨ha, has⟩ := List.forall_mem_cons.1 has
            simp only [List.map_cons, List.flatMap_cons, List.cons_append, List.append_assoc,
              List.cons.injEq, true_and] at h
            obtain ⟨rfl, hbehind⟩ := ha b _ _ (hrest as x) (hrest bs y) h
            obtain ⟨rfl, hxy⟩ := ih has hbehind
            exact ⟨rfl, hxy⟩
  cases as with
  | nil =>
      cases bs with
      | nil => exact ⟨rfl, by simpa [commaList] using h⟩
      | cons b bs =>
          obtain ⟨c, cs, hb, hc⟩ := hbegins b
          rw [List.map_cons, toList_commaList_cons, hb] at h
          exact absurd (List.cons.inj h).1.symm hc
  | cons a as =>
      cases bs with
      | nil =>
          obtain ⟨c, cs, ha, hc⟩ := hbegins a
          rw [List.map_cons, toList_commaList_cons, ha] at h
          exact absurd (List.cons.inj h).1 hc
      | cons b bs =>
          obtain ⟨ha, has⟩ := List.forall_mem_cons.1 has
          rw [List.map_cons, List.map_cons, toList_commaList_cons, toList_commaList_cons,
            List.append_assoc, List.append_assoc] at h
          obtain ⟨rfl, hbehind⟩ := ha b _ _ (hrest as x) (hrest bs y) h
          obtain ⟨rfl, hxy⟩ := htail has hbehind
          exact ⟨rfl, hxy⟩

end QueryDriver.Text
