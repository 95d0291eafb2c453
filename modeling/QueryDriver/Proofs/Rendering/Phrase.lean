import Mathlib.Data.List.Nodup
import QueryDriver.Proofs.Text.Reading
import QueryDriver.Rendering

/-!
# What a text says

The text of an expression has no grammar of its own: it is put together from the texts of its
parts without parentheses. A `Phrase` is what such a text is put together from: a function with its
body, or a head with links behind it, the last link first.

A phrase can be read off its text (`Phrase.text_injective`). For each kind of part, what is written
for it is told apart from whatever may stand behind it. A head is known by its first character,
except that the options of a table begin like `True`, and the row like a call. A head ends before a
`.`, a `[` or what closes a list of arguments, and the body of a function goes on to such an end,
which is why a function has no links.
-/

namespace QueryDriver

mutual

/-- A text, taken apart. The arguments `named` of a call are written by the name of its option. -/
inductive Phrase where
  | lambda (names : List Nat) (body : Phrase)
  | chain (head : Phrase.Head) (links : List Phrase.Link)

inductive Phrase.Head where
  | null
  | bool (b : Bool)
  | int (n : Int)
  | quoted (s : String)
  | var (n : Nat)
  | row
  | list (items : List Phrase)
  | dict (entries : List (String × Phrase))
  | spec (name : String) (primaryKey datacenter cacheSize : Phrase) (durability : String)
  | call (op : Operator) (args named : List Phrase)

inductive Phrase.Link where
  | call (op : Operator) (args named : List Phrase)
  | field (name : String)

end

namespace Operator

/-- The name of the argument that is written by its name. -/
def keyword : Operator → String
  | .verb v => v.trailing?.getD ""
  | _ => ""

end Operator

namespace Phrase

/-! ### The text of a phrase -/

/-- The beginning of a function. -/
def opening (names : List Nat) : String :=
  if names.isEmpty then "lambda: "
  else "lambda " ++ Text.commaList (names.map Rendering.placeholderName) ++ ": "

/-- A call with its arguments. -/
def callText (op : Operator) (args : List String) : String :=
  op.label ++ "(" ++ Text.commaList args ++ ")"

/-- The options for creating a table. -/
def specText (name primaryKey datacenter cacheSize durability : String) : String :=
  "TableSpec(name=" ++ Text.quoted name ++ ", primary_key=" ++ primaryKey ++ ", datacenter="
    ++ datacenter ++ ", cache_size=" ++ cacheSize ++ ", durability=" ++ Text.quoted durability ++ ")"

mutual

def text : Phrase → String
  | .lambda names body => opening names ++ body.text
  | .chain head links => head.text ++ linksText links

def Head.text : Head → String
  | .null => "None"
  | .bool b => if b then "True" else "False"
  | .int n => toString n
  | .quoted s => Text.quoted s
  | .var n => Rendering.placeholderName n
  | .row => "r.row"
  | .list items => "[" ++ Text.commaList (texts items) ++ "]"
  | .dict entries => "\x7b" ++ Text.commaList (entryTexts entries) ++ "\x7d"
  | .spec name p d c durability =>
    specText name p.text d.text c.text durability
  | .call op args named => "r." ++ callText op (texts args ++ namedTexts op.keyword named)

def Link.text : Link → String
  | .call op args named => "." ++ callText op (texts args ++ namedTexts op.keyword named)
  | .field name => "[" ++ Text.quoted name ++ "]"

def texts : List Phrase → List String
  | [] => []
  | φ :: φs => φ.text :: texts φs

def entryTexts : List (String × Phrase) → List String
  | [] => []
  | (key, φ) :: es => (Text.quoted key ++ ": " ++ φ.text) :: entryTexts es

def namedTexts (keyword : String) : List Phrase → List String
  | [] => []
  | φ :: φs => (keyword ++ "=" ++ φ.text) :: namedTexts keyword φs

def linksText : List Link → String
  | [] => ""
  | l :: ls => linksText ls ++ l.text

end

theorem texts_eq_map (φs : List Phrase) : texts φs = φs.map text := by
  induction φs with
  | nil => rfl
  | cons φ φs ih => rw [texts, ih, List.map_cons]

theorem entryTexts_eq_map (es : List (String × Phrase)) :
    entryTexts es = es.map fun e => Text.quoted e.1 ++ ": " ++ e.2.text := by
  induction es with
  | nil => rfl
  | cons e es ih =>
      obtain ⟨key, φ⟩ := e
      rw [entryTexts, ih, List.map_cons]

theorem namedTexts_eq_map (keyword : String) (φs : List Phrase) :
    namedTexts keyword φs = φs.map fun φ => keyword ++ "=" ++ φ.text := by
  induction φs with
  | nil => rfl
  | cons φ φs ih => rw [namedTexts, ih, List.map_cons]

/-- A head by itself. -/
theorem text_head (head : Head) : (Phrase.chain head []).text = head.text := by
  rw [text, linksText, String.append_empty]

/-- A link is written behind what it is a link to. -/
theorem text_link (head : Head) (l : Link) (ls : List Link) :
    (Phrase.chain head (l :: ls)).text = (Phrase.chain head ls).text ++ l.text := by
  rw [text, text, linksText, String.append_assoc]

theorem toList_linksText (ls : List Link) :
    (linksText ls).toList = ls.reverse.flatMap fun l => l.text.toList := by
  induction ls with
  | nil => rfl
  | cons l ls ih => simp [linksText, ih]

/-! ### What a text begins with -/

/-- A character that stands behind a phrase. -/
def closes (c : Char) : Bool := c = ',' || c = ')' || c = ']' || c = '\x7d'

/-- A character that stands behind the head of a phrase. -/
def follows (c : Char) : Bool := closes c || c = '.' || c = '['

/-- What a phrase is, as its first character says. -/
inductive Kind where
  | null | capital | int | quoted | var | builder | list | dict | lambda

/-- The kind of the phrase that begins with a character. -/
def kindOf (c : Char) : Kind :=
  if c = 'N' then .null
  else if c = 'T' ∨ c = 'F' then .capital
  else if c = '\x27' ∨ c = '\x22' then .quoted
  else if c = 'v' then .var
  else if c = 'r' then .builder
  else if c = '[' then .list
  else if c = '\x7b' then .dict
  else if c = 'l' then .lambda
  else .int

def Head.kind : Head → Kind
  | .null => .null
  | .bool _ | .spec .. => .capital
  | .int _ => .int
  | .quoted _ => .quoted
  | .var _ => .var
  | .row | .call .. => .builder
  | .list _ => .list
  | .dict _ => .dict

def kind : Phrase → Kind
  | .lambda .. => .lambda
  | .chain head _ => head.kind

/-- The characters that a phrase may begin with: none of them closes something or begins the name
of an argument. -/
def starts (c : Char) : Bool := !closes c && c ∉ ['b', 'i', 't', '=']

/-- A text of a kind begins with a character of that kind. -/
def Announces (k : Kind) (s : List Char) : Prop :=
  ∃ c cs, s = c :: cs ∧ kindOf c = k ∧ starts c = true

theorem announces_digits {c : Char} {cs : List Char} (hc : c.isDigit = true) :
    Announces .int (c :: cs) := by
  refine ⟨c, cs, rfl, ?_, ?_⟩
  · unfold kindOf
    split_ifs <;> first | rfl | (obtain rfl | rfl := ‹_ ∨ _› <;> cases hc) | (subst c; cases hc)
  · have hne : ∀ d : Char, d.isDigit = false → c ≠ d := by
      rintro d hd rfl
      rw [hc] at hd
      cases hd
    simp [starts, closes, hne]

theorem Announces.append {k : Kind} {s : List Char} (h : Announces k s) (t : List Char) :
    Announces k (s ++ t) := by
  obtain ⟨c, cs, rfl, hkind, hstarts⟩ := h
  exact ⟨c, cs ++ t, rfl, hkind, hstarts⟩

/-- Texts that are equal, whatever follows them, are of one kind. -/
theorem Announces.kind_eq {k l : Kind} {s t x y : List Char} (hs : Announces k s)
    (ht : Announces l t) (h : s ++ x = t ++ y) : k = l := by
  obtain ⟨c, cs, rfl, rfl, -⟩ := hs
  obtain ⟨d, ds, rfl, rfl, -⟩ := ht
  rw [(List.cons.inj h).1]

theorem announces_literal {k : Kind} {s : String} {c : Char} {cs : List Char}
    (hs : s.toList = c :: cs) (hk : kindOf c = k) (hc : starts c = true) (t : String) :
    Announces k (s ++ t).toList := by
  rw [String.toList_append, hs]
  exact ⟨c, _, rfl, hk, hc⟩

theorem Head.announces (h : Head) : Announces h.kind h.text.toList := by
  cases h with
  | null => exact announces_literal (s := "N") (c := 'N') rfl rfl rfl "one"
  | bool b =>
      cases b
      · exact announces_literal (s := "F") (c := 'F') rfl rfl rfl "alse"
      · exact announces_literal (s := "T") (c := 'T') rfl rfl rfl "rue"
  | int n =>
      rw [Head.text, Text.toList_int]
      split
      · obtain ⟨c, cs, hdigits, hc⟩ := Text.toDigits_eq_cons n.toNat
        rw [hdigits]
        exact announces_digits hc
      · exact ⟨'-', _, rfl, rfl, rfl⟩
  | quoted s =>
      obtain ⟨q, hq, hs⟩ := Text.quoted_eq_cons s
      rw [Head.text, hs]
      obtain rfl | rfl := hq
      · exact ⟨'\x27', _, rfl, rfl, rfl⟩
      · exact ⟨'\x22', _, rfl, rfl, rfl⟩
  | var n => exact announces_literal (c := 'v') rfl rfl rfl _
  | row => exact announces_literal (s := "r") (c := 'r') rfl rfl rfl ".row"
  | list items =>
      rw [Head.text, String.append_assoc]
      exact announces_literal (c := '[') rfl rfl rfl _
  | dict entries =>
      rw [Head.text, String.append_assoc]
      exact announces_literal (c := '\x7b') rfl rfl rfl _
  | spec =>
      rw [Head.text]
      unfold specText
      simp only [String.append_assoc]
      exact announces_literal (c := 'T') rfl rfl rfl _
  | call => exact announces_literal (c := 'r') rfl rfl rfl _

theorem toList_opening (names : List Nat) : (opening names).toList = "lambda".toList ++
    if names.isEmpty then ": ".toList
    else ' ' :: ((Text.commaList (names.map Rendering.placeholderName)).toList ++ ": ".toList) := by
  unfold opening
  split <;> simp

theorem toList_text (head : Head) (links : List Link) : (Phrase.chain head links).text.toList =
    head.text.toList ++ links.reverse.flatMap fun l => l.text.toList := by
  rw [text, String.toList_append, toList_linksText]

theorem announces (φ : Phrase) : Announces φ.kind φ.text.toList := by
  cases φ with
  | lambda names body =>
      rw [text, String.toList_append, toList_opening]
      exact ⟨'l', _, rfl, rfl, rfl⟩
  | chain head links =>
      rw [toList_text]
      exact head.announces.append _

/-! ### Calls -/

/-- A character of a name. -/
def isWord (c : Char) : Bool := c.isAlphanum || c = '_'

theorem isWord_of_follows {c : Char} (h : follows c = true) : isWord c = false := by
  simp only [follows, closes, Bool.or_eq_true, decide_eq_true_eq] at h
  obtain (((((rfl | rfl) | rfl) | rfl) | rfl) | rfl) := h <;> decide

end Phrase

namespace Operator

theorem mem_all (op : Operator) : op ∈ all := by
  cases op with
  | literal | func => decide
  | setting s => cases s <;> decide
  | verb v =>
      refine List.mem_append_right _ ?_
      exact List.mem_map_of_mem v.mem_all

theorem isWord_label (op : Operator) : ∀ c ∈ op.label.toList, Phrase.isWord c = true := by
  have hall : all.all (fun op => op.label.toList.all Phrase.isWord) = true := by decide +kernel
  exact List.all_eq_true.1 (List.all_eq_true.1 hall op op.mem_all)

theorem label_inj {op op' : Operator} (h : op.label = op'.label) : op = op' := by
  have hall : (all.map label).Nodup := by decide +kernel
  exact List.inj_on_of_nodup_map hall op.mem_all op'.mem_all h

theorem keyword_eq_cons (op : Operator) : ∃ c cs, op.keyword.toList ++ ['='] = c :: cs ∧
    c ∈ ['b', 'i', 't', '='] := by
  have hall : all.all (fun op => (op.keyword.toList ++ ['=']).head?.any
      (· ∈ ['b', 'i', 't', '='])) = true := by decide +kernel
  have h := List.all_eq_true.1 hall op op.mem_all
  rw [Option.any_eq_true] at h
  obtain ⟨c, hc, hmem⟩ := h
  obtain ⟨cs, hcs⟩ := List.head?_eq_some_iff.1 hc
  exact ⟨c, cs, hcs, by simpa using hmem⟩

end Operator

namespace Phrase

/-- What is written for a phrase is told apart from what may stand behind a phrase. -/
def IsReadable (φ : Phrase) : Prop :=
  Text.Readable (Text.Begins closes) (fun φ : Phrase => φ.text.toList) φ

/-- An argument, by position or by name. -/
def argumentText (op : Operator) : Phrase ⊕ Phrase → String
  | .inl φ => φ.text
  | .inr φ => op.keyword ++ "=" ++ φ.text

theorem argumentTexts_eq_map (op : Operator) (args named : List Phrase) :
    texts args ++ namedTexts op.keyword named =
      (args.map Sum.inl ++ named.map Sum.inr).map (argumentText op) := by
  rw [texts_eq_map, namedTexts_eq_map, List.map_append, List.map_map, List.map_map]
  rfl

theorem arguments_inj {args named args' named' : List Phrase}
    (h : args.map Sum.inl ++ named.map Sum.inr = args'.map Sum.inl ++ named'.map Sum.inr) :
    args = args' ∧ named = named' := by
  have hleft := congrArg (List.filterMap Sum.getLeft?) h
  have hright := congrArg (List.filterMap Sum.getRight?) h
  simp [Function.comp_def] at hleft hright
  exact ⟨hleft, hright⟩

theorem argumentText_eq_cons (op : Operator) (a : Phrase ⊕ Phrase) :
    ∃ c cs, (argumentText op a).toList = c :: cs ∧ closes c = false := by
  cases a with
  | inl φ =>
      obtain ⟨c, cs, hcs, -, hstarts⟩ := φ.announces
      exact ⟨c, cs, hcs, by simp [starts] at hstarts; exact hstarts.1⟩
  | inr φ =>
      obtain ⟨c, cs, hcs, hc⟩ := op.keyword_eq_cons
      refine ⟨c, cs ++ φ.text.toList, ?_, ?_⟩
      · rw [argumentText, String.toList_append, String.toList_append, ← List.cons_append, ← hcs]
        rfl
      · have hall : ['b', 'i', 't', '='].all (fun c => !closes c) = true := by decide
        simpa using List.all_eq_true.1 hall c hc

theorem readable_argumentText (op : Operator) {a : Phrase ⊕ Phrase}
    (h : IsReadable (a.elim id id)) :
    Text.Readable (Text.Begins closes) (fun a => (argumentText op a).toList) a := by
  have hne (φ ψ : Phrase) (x y : List Char) :
      (argumentText op (.inl φ)).toList ++ x ≠ (argumentText op (.inr ψ)).toList ++ y := by
    intro heq
    obtain ⟨c, cs, hcs, -, hstarts⟩ := φ.announces
    obtain ⟨d, ds, hds, hd⟩ := op.keyword_eq_cons
    have hkeyword : (argumentText op (.inr ψ)).toList = d :: (ds ++ ψ.text.toList) := by
      rw [argumentText, String.toList_append, String.toList_append, ← List.cons_append, ← hds]
      rfl
    rw [argumentText, hcs, hkeyword] at heq
    obtain ⟨rfl, -⟩ := List.cons.inj heq
    simp only [starts, Bool.and_eq_true, decide_eq_true_eq] at hstarts
    exact hstarts.2 hd
  intro b x y hx hy heq
  cases a with
  | inl φ =>
      cases b with
      | inl ψ =>
          obtain ⟨rfl, hxy⟩ := h ψ x y hx hy heq
          exact ⟨rfl, hxy⟩
      | inr ψ => exact absurd heq (hne φ ψ x y)
  | inr φ =>
      cases b with
      | inl ψ => exact absurd heq.symm (hne ψ φ y x)
      | inr ψ =>
          simp only [argumentText, String.toList_append, List.append_assoc] at heq
          obtain ⟨rfl, hxy⟩ := h ψ x y hx hy
            (List.append_cancel_left (List.append_cancel_left heq))
          exact ⟨rfl, hxy⟩

theorem callText_append_inj {op op' : Operator} {args named args' named' : List Phrase}
    (hargs : ∀ φ ∈ args, φ.IsReadable) (hnamed : ∀ φ ∈ named, φ.IsReadable) {x y : List Char}
    (h : (callText op (texts args ++ namedTexts op.keyword named)).toList ++ x =
      (callText op' (texts args' ++ namedTexts op'.keyword named')).toList ++ y) :
    op = op' ∧ args = args' ∧ named = named' ∧ x = y := by
  have hparenthesis (z : List Char) : Text.Begins (fun c => !isWord c) ('(' :: z) :=
    Text.begins_cons.2 (by decide)
  simp only [callText, argumentTexts_eq_map, String.toList_append, List.append_assoc] at h
  obtain ⟨hlabel, h⟩ := Text.run_append_inj op.isWord_label op'.isWord_label (hparenthesis _)
    (hparenthesis _) h
  obtain rfl := Operator.label_inj (String.toList_inj.1 hlabel)
  have hreadable : ∀ a ∈ args.map Sum.inl ++ named.map Sum.inr,
      Text.Readable (Text.Begins closes) (fun a => (argumentText op a).toList) a := by
    simp only [List.forall_mem_append, List.forall_mem_map]
    exact ⟨fun φ hφ => readable_argumentText op (hargs φ hφ),
      fun φ hφ => readable_argumentText op (hnamed φ hφ)⟩
  have hbegins (a : Phrase ⊕ Phrase) :
      ∃ c cs, (argumentText op a).toList = c :: cs ∧ c ≠ ')' := by
    obtain ⟨c, cs, hcs, hc⟩ := argumentText_eq_cons op a
    refine ⟨c, cs, hcs, ?_⟩
    rintro rfl
    cases hc
  obtain ⟨hlist, hxy⟩ := Text.commaList_append_inj (fun _ => Text.begins_cons.2 rfl)
    (fun _ => Text.begins_cons.2 rfl) (by decide) hreadable hbegins (List.cons.inj h).2
  obtain ⟨rfl, rfl⟩ := arguments_inj hlist
  exact ⟨rfl, rfl, rfl, hxy⟩

/-! ### Phrases -/

theorem closes_not_digit {c : Char} (h : follows c = true) : (!c.isDigit) = true := by
  simp only [follows, closes, Bool.or_eq_true, decide_eq_true_eq] at h
  obtain (((((rfl | rfl) | rfl) | rfl) | rfl) | rfl) := h <;> decide

/-- What is written for the head of a phrase is told apart from what may stand behind it. -/
def Head.IsReadable (h : Head) : Prop :=
  Text.Readable (Text.Begins follows) (fun h : Head => h.text.toList) h

/-- What is written for a link of a phrase is told apart from whatever stands behind it. -/
def Link.IsReadable (l : Link) : Prop :=
  Text.Readable (fun _ => True) (fun l : Link => l.text.toList) l

/-- A list of phrases between brackets is told apart from what stands behind it. -/
theorem phrases_append_inj {φs ψs : List Phrase} (h : ∀ φ ∈ φs, φ.IsReadable) {x y : List Char}
    (heq : (Text.commaList (texts φs)).toList ++ ']' :: x =
      (Text.commaList (texts ψs)).toList ++ ']' :: y) : φs = ψs ∧ x = y := by
  rw [texts_eq_map, texts_eq_map] at heq
  refine Text.commaList_append_inj (fun _ => Text.begins_cons.2 rfl)
    (fun _ => Text.begins_cons.2 rfl) (by decide) h (fun φ => ?_) heq
  obtain ⟨c, cs, hcs, -, hstarts⟩ := φ.announces
  refine ⟨c, cs, hcs, ?_⟩
  rintro rfl
  cases hstarts

theorem entries_append_inj {es fs : List (String × Phrase)} (h : ∀ e ∈ es, e.2.IsReadable)
    {x y : List Char} (heq : (Text.commaList (entryTexts es)).toList ++ '\x7d' :: x =
      (Text.commaList (entryTexts fs)).toList ++ '\x7d' :: y) : es = fs ∧ x = y := by
  rw [entryTexts_eq_map, entryTexts_eq_map] at heq
  refine Text.commaList_append_inj (P := Text.Begins closes) (fun _ => Text.begins_cons.2 rfl)
    (fun _ => Text.begins_cons.2 rfl) (by decide) ?_ ?_ heq
  · rintro ⟨key, φ⟩ hφ ⟨key', ψ⟩ x y hx hy heq
    simp only [String.toList_append, List.append_assoc] at heq
    obtain ⟨rfl, hbehind⟩ := Text.readable_quoted key key' _ _ trivial trivial heq
    obtain ⟨rfl, hxy⟩ := h _ hφ ψ x y hx hy (List.append_cancel_left hbehind)
    exact ⟨rfl, hxy⟩
  · intro e
    obtain ⟨q, hq, hs⟩ := Text.quoted_eq_cons e.1
    simp only [String.toList_append, hs, List.cons_append]
    refine ⟨q, _, rfl, ?_⟩
    obtain rfl | rfl := hq <;> decide

theorem spec_append_inj {name name' durability durability' : String} {p d c p' d' c' : Phrase}
    (hp : p.IsReadable) (hd : d.IsReadable) (hc : c.IsReadable) {x y : List Char}
    (h : (specText name p.text d.text c.text durability).toList ++ x =
      (specText name' p'.text d'.text c'.text durability').toList ++ y) :
    name = name' ∧ p = p' ∧ d = d' ∧ c = c' ∧ durability = durability' ∧ x = y := by
  unfold specText at h
  simp only [String.toList_append, List.append_assoc] at h
  have hcomma {s : String} {cs : List Char} (hs : s.toList = ',' :: cs) (z : List Char) :
      Text.Begins closes (s.toList ++ z) := by
    rw [hs]
    exact Text.begins_cons.2 rfl
  have hdatacenter := hcomma (s := ", datacenter=") rfl
  have hcacheSize := hcomma (s := ", cache_size=") rfl
  have hdurability := hcomma (s := ", durability=") rfl
  obtain ⟨hname, hrest⟩ := Text.readable_quoted name name' _ _ trivial trivial
    (List.append_cancel_left h)
  obtain ⟨hpp, hrest⟩ := hp p' _ _ (hdatacenter _) (hdatacenter _) (List.append_cancel_left hrest)
  obtain ⟨hdd, hrest⟩ := hd d' _ _ (hcacheSize _) (hcacheSize _) (List.append_cancel_left hrest)
  obtain ⟨hcc, hrest⟩ := hc c' _ _ (hdurability _) (hdurability _) (List.append_cancel_left hrest)
  obtain ⟨hdur, hrest⟩ := Text.readable_quoted durability durability' _ _ trivial trivial
    (List.append_cancel_left hrest)
  exact ⟨hname, hpp, hdd, hcc, hdur, List.append_cancel_left hrest⟩

/-- The beginning of a function is told apart from whatever its body is. -/
theorem opening_append_inj {names names' : List Nat} {x y : List Char}
    (h : (opening names).toList ++ x = (opening names').toList ++ y) :
    names = names' ∧ x = y := by
  have hnames (n : Nat) : Text.Readable (Text.Begins fun c => !c.isDigit)
      (fun n => (Rendering.placeholderName n).toList) n := by
    intro m x y hx hy h
    simp only [Rendering.placeholderName, String.toList_append, Text.toList_digits,
      List.append_assoc] at h
    exact Text.readable_toDigits n m x y hx hy (List.append_cancel_left h)
  rw [toList_opening, toList_opening, List.append_assoc, List.append_assoc] at h
  have hrest := List.append_cancel_left h
  cases names with
  | nil =>
      cases names' with
      | nil => exact ⟨rfl, List.append_cancel_left hrest⟩
      | cons m names' => exact absurd (List.cons.inj hrest).1 (by decide)
  | cons n names =>
      cases names' with
      | nil => exact absurd (List.cons.inj hrest).1 (by decide)
      | cons m names' =>
          simp only [List.isEmpty_cons, Bool.false_eq_true, if_false, List.cons_append,
            List.append_assoc, List.cons.injEq, true_and] at hrest
          obtain ⟨hnames, hxy⟩ := Text.commaList_append_inj (fun _ => Text.begins_cons.2 rfl)
            (fun _ => Text.begins_cons.2 rfl) (by decide) (fun n _ => hnames n)
            (fun n => ⟨'v', _, String.toList_append, by decide⟩) hrest
          exact ⟨hnames, (List.cons.inj hxy).2⟩

/-- Links behind a head are told apart from what stands behind the phrase. -/
theorem links_append_inj {ls ms : List Link} (h : ∀ l ∈ ls, l.IsReadable) {x y : List Char}
    (hx : Text.Begins closes x) (hy : Text.Begins closes y)
    (heq : (ls.flatMap fun l => l.text.toList) ++ x = (ms.flatMap fun l => l.text.toList) ++ y) :
    ls = ms ∧ x = y := by
  have hlink (l : Link) (z : List Char) : ¬ Text.Begins closes (l.text.toList ++ z) := by
    cases l with
    | call op args named =>
        simp only [Link.text, String.toList_append, List.append_assoc]
        intro h
        cases Text.begins_cons.1 h
    | field name =>
        simp only [Link.text, String.toList_append, List.append_assoc]
        intro h
        cases Text.begins_cons.1 h
  induction ls generalizing ms with
  | nil =>
      cases ms with
      | nil => exact ⟨rfl, heq⟩
      | cons m ms =>
          rw [List.flatMap_nil, List.nil_append, List.flatMap_cons, List.append_assoc] at heq
          exact absurd (heq ▸ hx) (hlink m _)
  | cons l ls ih =>
      obtain ⟨hl, hls⟩ := List.forall_mem_cons.1 h
      rw [List.flatMap_cons, List.append_assoc] at heq
      cases ms with
      | nil =>
          rw [List.flatMap_nil, List.nil_append] at heq
          exact absurd (heq ▸ hy) (hlink l _)
      | cons m ms =>
          rw [List.flatMap_cons, List.append_assoc] at heq
          obtain ⟨rfl, hrest⟩ := hl m _ _ trivial trivial heq
          obtain ⟨rfl, hxy⟩ := ih hls hrest
          exact ⟨rfl, hxy⟩

theorem begins_links (links : List Link) {x : List Char} (hx : Text.Begins closes x) :
    Text.Begins follows ((links.flatMap fun l => l.text.toList) ++ x) := by
  cases links with
  | nil => exact hx.mono fun c hc => by simp [follows, hc]
  | cons l links =>
      cases l with
      | call op args named =>
          simp only [List.flatMap_cons, Link.text, String.toList_append, List.append_assoc]
          exact Text.begins_cons.2 rfl
      | field name =>
          simp only [List.flatMap_cons, Link.text, String.toList_append, List.append_assoc]
          exact Text.begins_cons.2 rfl

theorem row_append_ne {op : Operator} {args : List String} {x y : List Char}
    (hx : Text.Begins follows x) :
    Head.row.text.toList ++ x ≠ ("r." ++ callText op args).toList ++ y := by
  intro h
  rw [show Head.row.text = "r." ++ "row" from rfl] at h
  simp only [callText, String.toList_append, List.append_assoc] at h
  have hword : ∀ c ∈ "row".toList, isWord c = true := List.all_eq_true.1 (by decide)
  obtain ⟨-, hrest⟩ := Text.run_append_inj hword op.isWord_label
    (hx.mono fun c hc => by simp [isWord_of_follows hc]) (Text.begins_cons.2 (by decide))
    (List.append_cancel_left h)
  rw [hrest] at hx
  cases Text.begins_cons.1 hx

theorem bool_append_ne {b : Bool} {name durability : String} {p d c : Phrase} {x y : List Char} :
    (Head.bool b).text.toList ++ x ≠ (Head.spec name p d c durability).text.toList ++ y := by
  intro h
  rw [Head.text, Head.text] at h
  unfold specText at h
  simp only [String.toList_append, List.append_assoc] at h
  cases b
  · exact absurd (List.cons.inj h).1 (by decide)
  · exact absurd (List.cons.inj (List.cons.inj h).2).1 (by decide)

namespace Head

/-- Only a head of the same kind can stand in a head's place. -/
theorem kind_eq_of_append {head head' : Head} {x y : List Char}
    (h : head.text.toList ++ x = head'.text.toList ++ y) : head.kind = head'.kind :=
  head.announces.kind_eq head'.announces h

theorem isReadable_null : Head.null.IsReadable := by
  intro head' x y hx hy h
  have hkind := kind_eq_of_append h
  cases head' <;> cases hkind
  exact ⟨rfl, List.append_cancel_left h⟩

theorem isReadable_bool (b : Bool) : (Head.bool b).IsReadable := by
  intro head' x y hx hy h
  have hkind := kind_eq_of_append h
  cases head' <;> cases hkind
  case bool b' =>
    cases b <;> cases b' <;> first
      | exact ⟨rfl, List.append_cancel_left h⟩
      | exact absurd (List.cons.inj h).1 (by decide)
  case spec => exact absurd h bool_append_ne

theorem isReadable_int (n : Int) : (Head.int n).IsReadable := by
  intro head' x y hx hy h
  have hkind := kind_eq_of_append h
  cases head' <;> cases hkind
  obtain ⟨rfl, hxy⟩ := Text.readable_int n _ x y (hx.mono fun _ => closes_not_digit)
    (hy.mono fun _ => closes_not_digit) h
  exact ⟨rfl, hxy⟩

theorem isReadable_quoted (s : String) : (Head.quoted s).IsReadable := by
  intro head' x y hx hy h
  have hkind := kind_eq_of_append h
  cases head' <;> cases hkind
  obtain ⟨rfl, hxy⟩ := Text.readable_quoted s _ x y trivial trivial h
  exact ⟨rfl, hxy⟩

theorem isReadable_var (n : Nat) : (Head.var n).IsReadable := by
  intro head' x y hx hy h
  have hkind := kind_eq_of_append h
  cases head' <;> cases hkind
  simp only [Head.text, Rendering.placeholderName, String.toList_append, Text.toList_digits,
    List.append_assoc] at h
  obtain ⟨rfl, hxy⟩ := Text.readable_toDigits n _ x y (hx.mono fun _ => closes_not_digit)
    (hy.mono fun _ => closes_not_digit) (List.append_cancel_left h)
  exact ⟨rfl, hxy⟩

theorem isReadable_row : Head.row.IsReadable := by
  intro head' x y hx hy h
  have hkind := kind_eq_of_append h
  cases head' <;> cases hkind
  case row => exact ⟨rfl, List.append_cancel_left h⟩
  case call => exact absurd h (row_append_ne hx)

theorem isReadable_list {items : List Phrase} (hitems : ∀ φ ∈ items, φ.IsReadable) :
    (Head.list items).IsReadable := by
  intro head' x y hx hy h
  have hkind := kind_eq_of_append h
  cases head' <;> cases hkind
  simp only [Head.text, String.toList_append, List.append_assoc] at h
  obtain ⟨rfl, hxy⟩ := phrases_append_inj hitems (List.append_cancel_left h)
  exact ⟨rfl, hxy⟩

theorem isReadable_dict {entries : List (String × Phrase)}
    (hentries : ∀ e ∈ entries, e.2.IsReadable) : (Head.dict entries).IsReadable := by
  intro head' x y hx hy h
  have hkind := kind_eq_of_append h
  cases head' <;> cases hkind
  simp only [Head.text, String.toList_append, List.append_assoc] at h
  obtain ⟨rfl, hxy⟩ := entries_append_inj hentries (List.append_cancel_left h)
  exact ⟨rfl, hxy⟩

theorem isReadable_spec {name durability : String} {p d c : Phrase} (hp : p.IsReadable)
    (hd : d.IsReadable) (hc : c.IsReadable) : (Head.spec name p d c durability).IsReadable := by
  intro head' x y hx hy h
  have hkind := kind_eq_of_append h
  cases head' <;> cases hkind
  case bool => exact absurd h.symm bool_append_ne
  case spec =>
    obtain ⟨rfl, rfl, rfl, rfl, rfl, hxy⟩ := spec_append_inj hp hd hc h
    exact ⟨rfl, hxy⟩

theorem isReadable_call {op : Operator} {args named : List Phrase}
    (hargs : ∀ φ ∈ args, φ.IsReadable) (hnamed : ∀ φ ∈ named, φ.IsReadable) :
    (Head.call op args named).IsReadable := by
  intro head' x y hx hy h
  have hkind := kind_eq_of_append h
  cases head' <;> cases hkind
  case row => exact absurd h.symm (row_append_ne hy)
  case call =>
    simp only [Head.text, String.toList_append, List.append_assoc] at h
    obtain ⟨rfl, rfl, rfl, hxy⟩ := callText_append_inj hargs hnamed (List.append_cancel_left h)
    exact ⟨rfl, hxy⟩

end Head

mutual

/-- A phrase can be read off its text. -/
theorem isReadable : ∀ φ : Phrase, φ.IsReadable
  | .lambda names body => by
      intro ψ x y hx hy h
      cases ψ with
      | chain head links =>
          have hkind := (Phrase.announces _).kind_eq (Phrase.announces _) h
          cases head <;> cases hkind
      | lambda names' body' =>
          simp only [text, String.toList_append, List.append_assoc] at h
          obtain ⟨hnames, hbody⟩ := opening_append_inj h
          obtain ⟨rfl, hxy⟩ := isReadable body body' x y hx hy hbody
          exact ⟨by rw [hnames], hxy⟩
  | .chain head links => by
      intro ψ x y hx hy h
      cases ψ with
      | lambda names body =>
          have hkind := (Phrase.announces _).kind_eq (Phrase.announces _) h
          cases head <;> cases hkind
      | chain head' links' =>
          simp only [toList_text, List.append_assoc] at h
          obtain ⟨rfl, hlinks⟩ := isReadable_head head head' _ _ (begins_links _ hx)
            (begins_links _ hy) h
          obtain ⟨hreverse, hxy⟩ := links_append_inj
            (fun l hl => isReadable_links links l (List.mem_reverse.1 hl)) hx hy hlinks
          exact ⟨by rw [List.reverse_injective hreverse], hxy⟩

theorem isReadable_head : ∀ head : Head, head.IsReadable
  | .null => Head.isReadable_null
  | .bool b => Head.isReadable_bool b
  | .int n => Head.isReadable_int n
  | .quoted s => Head.isReadable_quoted s
  | .var n => Head.isReadable_var n
  | .row => Head.isReadable_row
  | .list items => Head.isReadable_list (isReadable_list items)
  | .dict entries => Head.isReadable_dict (isReadable_entries entries)
  | .spec _ p d c _ => Head.isReadable_spec (isReadable p) (isReadable d) (isReadable c)
  | .call _ args named => Head.isReadable_call (isReadable_list args) (isReadable_list named)

theorem isReadable_link : ∀ l : Link, l.IsReadable
  | .call op args named => by
      intro m x y _ _ h
      cases m with
      | call op' args' named' =>
          simp only [Link.text, String.toList_append, List.append_assoc] at h
          obtain ⟨rfl, rfl, rfl, hxy⟩ := callText_append_inj (isReadable_list args)
            (isReadable_list named) (List.append_cancel_left h)
          exact ⟨rfl, hxy⟩
      | field name =>
          simp only [Link.text, String.toList_append, List.append_assoc] at h
          exact absurd (List.cons.inj h).1 (by decide)
  | .field name => by
      intro m x y _ _ h
      cases m with
      | call op args named =>
          simp only [Link.text, String.toList_append, List.append_assoc] at h
          exact absurd (List.cons.inj h).1 (by decide)
      | field name' =>
          simp only [Link.text, String.toList_append, List.append_assoc] at h
          obtain ⟨hname, hxy⟩ := Text.readable_quoted name name' _ _ trivial trivial
            (List.append_cancel_left h)
          exact ⟨by rw [hname], List.append_cancel_left hxy⟩

theorem isReadable_links : ∀ ls : List Link, ∀ l ∈ ls, l.IsReadable
  | [] => List.forall_mem_nil _
  | l :: ls => List.forall_mem_cons.2 ⟨isReadable_link l, isReadable_links ls⟩

theorem isReadable_list : ∀ φs : List Phrase, ∀ φ ∈ φs, φ.IsReadable
  | [] => List.forall_mem_nil _
  | φ :: φs => List.forall_mem_cons.2 ⟨isReadable φ, isReadable_list φs⟩

theorem isReadable_entries : ∀ es : List (String × Phrase), ∀ e ∈ es, e.2.IsReadable
  | [] => List.forall_mem_nil _
  | (_, φ) :: es => List.forall_mem_cons.2 ⟨isReadable φ, isReadable_entries es⟩

end

/-- Phrases with the same text are the same. -/
theorem text_injective : Function.Injective text := by
  intro φ ψ h
  exact (isReadable φ ψ [] [] Text.begins_nil Text.begins_nil
    (congrArg (fun s : String => s.toList ++ []) h)).1

end Phrase

end QueryDriver
