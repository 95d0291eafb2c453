import QueryDriver.Net.Address
import QueryDriver.Proofs.Text.Runs

/-!
# What an address names

An address leads with a host, as it is or between square brackets, and nothing is behind the host
or a colon and a port in digits of ASCII. `Spells` says what such an address is for. What is
written for a host and a port is read as them, with any blanks around it.

The reader takes more than that. It takes an address without a host, it passes over what stands
behind a closing bracket, it takes a colon without a port, and a port as integers are read
elsewhere. `Slips` has these four, and everything else that is read is an address.
-/

namespace QueryDriver.Net

/-- A run of digits of ASCII, of at least one, for the number that it denotes. -/
structure Denotes (digits : List Char) (n : Nat) : Prop where
  ne_nil : digits ≠ []
  isDigit : ∀ c ∈ digits, c.isDigit = true
  value : Nat.ofDigitChars 10 digits 0 = n

/-- The address leads with the host, as it is or between brackets, and `rest` is what is behind. -/
inductive Leads (host rest : List Char) : List Char → Prop
  | plain : Leads host rest (host ++ rest)
  | bracketed : Leads host rest ('[' :: (host ++ ']' :: rest))

/-- How a host and a port are written; a port that is left out is the default. -/
inductive Spells (defaultPort : Nat) : List Char → Endpoint → Prop
  | bare {host cs : List Char} (h : Leads host [] cs) :
      Spells defaultPort cs ⟨String.ofList host, defaultPort⟩
  | ported {host port cs : List Char} {n : Nat} (h : Leads host (':' :: port) cs)
      (hport : Denotes port n) : Spells defaultPort cs ⟨String.ofList host, n⟩

/-- What is taken for an address although it is none. -/
inductive Slips (defaultPort : Nat) : List Char → Endpoint → Prop
  | nameless {cs : List Char} {e : Endpoint} (h : e.host = "") : Slips defaultPort cs e
  | ignored {host rest : List Char} {c : Char} (hc : c ≠ ':') :
      Slips defaultPort ('[' :: (host ++ ']' :: c :: rest)) ⟨String.ofList host, defaultPort⟩
  | portless {host cs : List Char} (h : Leads host [':'] cs) :
      Slips defaultPort cs ⟨String.ofList host, defaultPort⟩
  | lenient {host port cs : List Char} {n : Nat} (h : Leads host (':' :: port) cs)
      (hport : ∀ m, ¬ Denotes port m) (hread : readInteger? port = some (n : Int)) :
      Slips defaultPort cs ⟨String.ofList host, n⟩

/-! ### Ports -/

section Ports

variable {ds : List Char} {n : Nat}

theorem isNumberBlank_of_isDigit {c : Char} (h : c.isDigit = true) : isNumberBlank c = false := by
  rw [isNumberBlank, Text.isBlank_of_isDigit h, Bool.false_and]

theorem stripNumber_of_isDigit (h : ∀ c ∈ ds, c.isDigit = true) : stripNumber ds = ds := by
  have hbegins {cs : List Char} (hcs : ∀ c ∈ cs, c.isDigit = true) :
      Text.Begins (fun c => !isNumberBlank c) cs := fun c hc => by
    simp [isNumberBlank_of_isDigit (hcs c (List.mem_of_mem_head? hc))]
  rw [stripNumber, Text.dropWhile_of_begins (hbegins h),
    Text.dropWhile_of_begins (hbegins fun c hc => h c (List.mem_reverse.1 hc)), List.reverse_reverse]

theorem joinDigits?_of_isDigit (hne : ds ≠ []) (h : ∀ c ∈ ds, c.isDigit = true) :
    joinDigits? ds = some ds := by
  have hsome {c : Char} (hc : c.isDigit = true) : (Text.digitValue? c).isSome = true := by
    rw [Text.digitValue?_of_isDigit hc, Option.isSome_some]
  fun_induction joinDigits? ds with
  | case1 => exact absurd rfl hne
  | case2 c hc => rfl
  | case3 c hc => exact absurd (hsome (h c List.mem_cons_self)) hc
  | case4 c rest => exact absurd (h '_' (by simp)) (by decide)
  | case5 c rest => exact absurd (h '_' (by simp)) (by decide)
  | case6 c rest hrest _ hc ih =>
      obtain ⟨-, hlater⟩ := List.forall_mem_cons.1 h
      rw [ih (fun hnil => hrest (by rw [hnil])) hlater, Option.map_some]
  | case7 c rest _ _ hc => exact absurd (hsome (h c List.mem_cons_self)) hc

/-- A port in digits of ASCII is read as the number that it denotes, unless it is too long. -/
theorem Denotes.readInteger?_eq (h : Denotes ds n) :
    readInteger? ds = if ds.length ≤ digitLimit then some (n : Int) else none := by
  have hsigns {c : Char} (hc : c.isDigit = false) (rest : List Char) : ds ≠ c :: rest := by
    rintro rfl
    rw [h.isDigit c List.mem_cons_self] at hc
    cases hc
  have hread : readInteger? ds = (readNatural? ds).map fun n : Nat => (n : Int) := by
    rw [readInteger?, stripNumber_of_isDigit h.isDigit]
    split
    next rest => exact absurd rfl (hsigns (by decide) rest)
    next rest => exact absurd rfl (hsigns (by decide) rest)
    next => cases readNatural? ds <;> rfl
  rw [hread, readNatural?, joinDigits?_of_isDigit h.ne_nil h.isDigit]
  simp only [Option.bind_eq_bind, Option.bind_some]
  split
  · rw [Text.readDigits_of_isDigit h.isDigit, h.value, Option.map_some]
  · rfl

/-- The decimal digits of a number denote it. -/
theorem denotes_toDigits (n : Nat) : Denotes (Nat.toDigits 10 n) n where
  ne_nil := Nat.toDigits_ne_nil
  isDigit _ := Text.isDigit_toDigits
  value := Nat.ofDigitChars_ten_toDigits

/-- The digits of a port are read as the port. -/
theorem readInteger?_toDigits (hn : n < 65536) :
    readInteger? (Nat.toDigits 10 n) = some (n : Int) := by
  have hlength : (Nat.toDigits 10 n).length ≤ 5 :=
    (Nat.length_toDigits_le_iff (by decide) (by decide)).2 (by omega)
  rw [(denotes_toDigits n).readInteger?_eq, if_pos (Nat.le_trans hlength (by decide))]

end Ports

/-! ### Hosts -/

section Hosts

variable {host rest port cs : List Char}

theorem splitAt?_append {c : Char} (h : c ∉ host) :
    splitAt? c (host ++ c :: rest) = some (host, rest) := by
  have hbefore : (host ++ c :: rest).takeWhile (· != c) = host := by
    rw [List.takeWhile_append_of_pos, List.takeWhile_cons_of_neg (by simp), List.append_nil]
    intro x hx
    simpa using ne_of_mem_of_not_mem hx h
  rw [splitAt?, hbefore, List.drop_left]

theorem eq_append_of_splitAt? {c : Char} (h : splitAt? c cs = some (host, rest)) :
    cs = host ++ c :: rest ∧ c ∉ host := by
  have hparts := List.takeWhile_append_dropWhile (p := (· != c)) (l := cs)
  have hbefore := List.all_takeWhile (p := (· != c)) (l := cs)
  have hafter := List.head_dropWhile_not (· != c) (l := cs)
  rw [splitAt?] at h
  generalize cs.takeWhile (· != c) = before at *
  generalize cs.dropWhile (· != c) = after at *
  subst hparts
  rw [List.drop_left] at h
  cases after with
  | nil => cases h
  | cons d after =>
      cases h
      obtain rfl : d = c := by simpa using hafter (List.cons_ne_nil _ _)
      exact ⟨rfl, fun hmem => by simpa using List.all_eq_true.1 hbefore d hmem⟩

/-- How an address is divided into a host and a port: the host is all that is led with, or a colon
is in front of the port, or what stands behind the closing bracket is passed over. -/
inductive Divided : List Char → List Char → List Char → Prop
  | whole {host cs : List Char} (h : Leads host [] cs) : Divided cs host []
  | colon {host port cs : List Char} (h : Leads host (':' :: port) cs) : Divided cs host port
  | ignored {host rest : List Char} {c : Char} (hc : c ≠ ':') :
      Divided ('[' :: (host ++ ']' :: c :: rest)) host []

theorem divided_of_splitAddress? (h : splitAddress? cs = some (host, port)) :
    Divided cs host port := by
  unfold splitAddress? at h
  split at h
  next behind =>
    obtain ⟨⟨before, after⟩, hsplit, hparts⟩ := Option.map_eq_some_iff.1 h
    clear h
    obtain ⟨rfl, -⟩ := eq_append_of_splitAt? hsplit
    obtain ⟨rfl, hport⟩ := Prod.mk.inj hparts
    cases after with
    | nil => exact hport ▸ .whole .bracketed
    | cons c after =>
        dsimp only at hport
        split at hport
        next hc =>
          obtain ⟨rfl, rfl⟩ := List.cons.inj hc
          exact hport ▸ .colon .bracketed
        next hc => exact hport ▸ .ignored fun h => hc _ (by rw [h])
  next =>
    split at h
    next =>
      obtain ⟨rfl, -⟩ := eq_append_of_splitAt? h
      exact .colon .plain
    next =>
      cases h
      have hwhole : Leads host [] (host ++ []) := .plain
      rw [List.append_nil] at hwhole
      exact .whole hwhole

/-- What is behind the closing bracket is behind the host in every other reading as well, unless a
bracket opens there. -/
theorem Leads.eq_of_bracketed {rest' : List Char}
    (h : Leads host rest ('[' :: (host ++ ']' :: rest'))) (hrest : rest.head? ≠ some '[') :
    rest = rest' := by
  -- read as it is, the host would begin with a bracket and go on with itself: the bracket moves
  -- along the host until it opens what is behind
  have hshift {host : List Char} (h : host ++ rest = '[' :: (host ++ ']' :: rest')) :
      rest.head? = some '[' := by
    induction host with
    | nil =>
        rw [List.nil_append] at h
        rw [h, List.head?_cons]
    | cons c host ih =>
        obtain ⟨rfl, h⟩ := List.cons.inj h
        exact ih h
  generalize hcs : '[' :: (host ++ ']' :: rest') = cs at h
  cases h with
  | plain => exact absurd (hshift hcs.symm) hrest
  | bracketed =>
      have hbehind := List.append_cancel_left (List.cons.inj hcs).2
      exact (List.cons.inj hbehind).2.symm

/-- Two readings of an address for one host agree about what is behind the host, as no bracket
opens there. -/
theorem Leads.eq_rest {rest' : List Char} (h : Leads host rest cs) (h' : Leads host rest' cs)
    (hrest : rest.head? ≠ some '[') (hrest' : rest'.head? ≠ some '[') : rest = rest' := by
  cases h' with
  | bracketed => exact h.eq_of_bracketed hrest
  | plain =>
      generalize hcs : host ++ rest' = cs at h
      cases h with
      | plain => exact (List.append_cancel_left hcs).symm
      | bracketed =>
          have hplain : Leads host rest' (host ++ rest') := .plain
          rw [hcs] at hplain
          exact (hplain.eq_of_bracketed hrest').symm

variable {d n : Nat} {e : Endpoint}

/-- What stands behind the host of an address. -/
theorem Spells.behind (h : Spells d cs ⟨String.ofList host, n⟩) :
    ∃ rest, Leads host rest cs ∧ rest.head? ≠ some '[' ∧
      ∀ c port, rest = c :: port → c = ':' ∧ Denotes port n := by
  generalize he : Endpoint.mk (String.ofList host) n = e at h
  cases h with
  | bare h =>
      obtain ⟨hhost, -⟩ := Endpoint.mk.inj he
      obtain rfl := String.ofList_inj.1 hhost
      exact ⟨[], h, by simp, fun _ _ heq => (by cases heq)⟩
  | ported h hport =>
      obtain ⟨hhost, rfl⟩ := Endpoint.mk.inj he
      obtain rfl := String.ofList_inj.1 hhost
      refine ⟨_, h, by simp, fun _ _ heq => ?_⟩
      cases heq
      exact ⟨rfl, hport⟩

/-- What slips is no address with a host. -/
theorem Slips.not_spells (h : Slips d cs e) (hhost : e.host ≠ "") : ¬ Spells d cs e := by
  intro hspells
  cases h with
  | nameless h => exact hhost h
  | ignored hc =>
      obtain ⟨rest, hleads, hbracket, hbehind⟩ := hspells.behind
      exact hc (hbehind _ _ (hleads.eq_of_bracketed hbracket)).1
  | portless h =>
      obtain ⟨rest, hleads, hbracket, hbehind⟩ := hspells.behind
      exact (hbehind _ _ (hleads.eq_rest h hbracket (by simp))).2.ne_nil rfl
  | lenient h hport =>
      obtain ⟨rest, hleads, hbracket, hbehind⟩ := hspells.behind
      exact hport _ (hbehind _ _ (hleads.eq_rest h hbracket (by simp))).2

end Hosts

/-- What an address is read as, once it is divided. -/
theorem spells_or_slips_of_divided {host port cs : List Char} {d : Nat}
    (h : Divided cs host port) :
    (port = [] → Spells d cs ⟨String.ofList host, d⟩ ∨ Slips d cs ⟨String.ofList host, d⟩) ∧
      ∀ n : Nat, port ≠ [] → readInteger? port = some (n : Int) →
        Spells d cs ⟨String.ofList host, n⟩ ∨ Slips d cs ⟨String.ofList host, n⟩ := by
  cases h with
  | whole h => exact ⟨fun _ => .inl (.bare h), fun n hne => absurd rfl hne⟩
  | ignored hc => exact ⟨fun _ => .inr (.ignored hc), fun n hne => absurd rfl hne⟩
  | colon h =>
      refine ⟨fun hport => .inr (.portless (hport ▸ h)), fun n _ hread => ?_⟩
      by_cases hport : ∃ m, Denotes port m
      · obtain ⟨m, hm⟩ := hport
        have hsame := hm.readInteger?_eq.symm.trans hread
        split at hsame
        · obtain rfl : m = n := Int.ofNat.inj (Option.some.inj hsame)
          exact .inl (.ported h hm)
        · cases hsame
      · exact .inr (.lenient h (not_exists.1 hport) hread)

/-- Reading an address comes to an error of one class, or to a host and a port between its bounds.
There is a host, and the text is an address of the host and the port, exactly if it does not
slip. -/
theorem parseAddress_outcome {d : Nat} (hpos : 0 < d) (hbound : d < 65536) (s : String) :
    (∃ f, parseAddress s d = .error f ∧ f.kind = .value) ∨
      ∃ e, parseAddress s d = .ok e ∧ 0 < e.port ∧ e.port < 65536 ∧
        (e.host ≠ "" ∧ Spells d (Text.trim s).toList e ↔ ¬ Slips d (Text.trim s).toList e) := by
  have hexact {e : Endpoint} (h : Spells d (Text.trim s).toList e ∨ Slips d (Text.trim s).toList e) :
      e.host ≠ "" ∧ Spells d (Text.trim s).toList e ↔ ¬ Slips d (Text.trim s).toList e :=
    ⟨fun hspells hslips => hslips.not_spells hspells.1 hspells.2,
      fun hslips => ⟨fun hhost => hslips (.nameless hhost), h.resolve_right hslips⟩⟩
  unfold parseAddress
  split
  · exact .inl ⟨_, rfl, rfl⟩
  dsimp only
  split
  next => exact .inl ⟨_, rfl, rfl⟩
  next host hsplit =>
    have hdivided := divided_of_splitAddress? hsplit
    exact .inr ⟨_, rfl, hpos, hbound, hexact ((spells_or_slips_of_divided hdivided).1 rfl)⟩
  next host port hport hsplit =>
    have hdivided := divided_of_splitAddress? hsplit
    split
    next => exact .inl ⟨_, rfl, rfl⟩
    next n hread =>
      split
      next hn =>
        obtain ⟨n, rfl⟩ := Int.eq_ofNat_of_zero_le (Int.le_of_lt hn.1)
        refine .inr ⟨_, rfl, Int.ofNat_lt.1 hn.1, Int.ofNat_lt.1 hn.2, hexact ?_⟩
        exact (spells_or_slips_of_divided hdivided).2 n hport hread
      next => exact .inl ⟨_, rfl, rfl⟩

/-- An address with a blank in front of it, and one whose end is passed over. -/
theorem parseAddress_outcome_padded :
    0 < 28015 ∧ 28015 < 65536 ∧ parseAddress " db:80" 28015 = .ok ⟨"db", 80⟩ ∧
      Spells 28015 (Text.trim " db:80").toList ⟨"db", 80⟩ ∧
      ¬ Slips 28015 (Text.trim " db:80").toList ⟨"db", 80⟩ ∧
      parseAddress "[::1]x" 28015 = .ok ⟨"::1", 28015⟩ ∧
      Slips 28015 (Text.trim "[::1]x").toList ⟨"::1", 28015⟩ := by
  have hparse : parseAddress " db:80" 28015 = .ok ⟨"db", 80⟩ := by decide
  have hleads : Leads ['d', 'b'] [':', '8', '0'] (Text.trim " db:80").toList := .plain
  have hspells : Spells 28015 (Text.trim " db:80").toList ⟨"db", 80⟩ :=
    .ported hleads (denotes_toDigits 80)
  have hslips : Slips 28015 ('[' :: ([':', ':', '1'] ++ [']', 'x'])) ⟨"::1", 28015⟩ :=
    .ignored (by decide)
  obtain ⟨f, herror, -⟩ | ⟨e, hok, -, -, hexact⟩ :=
    parseAddress_outcome (d := 28015) (by decide) (by decide) " db:80"
  · cases hparse.symm.trans herror
  · cases hparse.symm.trans hok
    exact ⟨by decide, by decide, hparse, hspells, hexact.1 ⟨by decide, hspells⟩, by decide,
      hslips⟩

/-! ### Addresses that are written -/

section Written

variable {left core right : String} {host : String} {d p : Nat}

theorem splitAddress?_of_plain {cs : List Char} (h : cs.head? ≠ some '[') :
    splitAddress? cs = if cs.count ':' = 1 then splitAt? ':' cs else some (cs, []) := by
  unfold splitAddress?
  split
  · exact absurd rfl h
  · rfl

theorem splitAddress?_host {cs : List Char} (hbracket : cs.head? ≠ some '[')
    (hcolons : cs.count ':' ≠ 1) : splitAddress? cs = some (cs, []) := by
  rw [splitAddress?_of_plain hbracket, if_neg hcolons]

theorem splitAddress?_host_port {cs port : List Char} (hbracket : cs.head? ≠ some '[')
    (hcolon : ':' ∉ cs) (hport : ':' ∉ port) :
    splitAddress? (cs ++ ':' :: port) = some (cs, port) := by
  have hfirst : (cs ++ ':' :: port).head? ≠ some '[' := by
    cases cs with
    | nil => simp
    | cons c cs => exact hbracket
  rw [splitAddress?_of_plain hfirst, if_pos, splitAt?_append hcolon]
  simp [List.count_eq_zero.2 hcolon, List.count_eq_zero.2 hport]

theorem splitAddress?_bracketed {cs : List Char} (h : ']' ∉ cs) :
    splitAddress? ('[' :: (cs ++ [']'])) = some (cs, []) := by
  simp only [splitAddress?, splitAt?_append h, Option.map_some]

theorem splitAddress?_bracketed_port {cs port : List Char} (h : ']' ∉ cs) :
    splitAddress? ('[' :: (cs ++ ']' :: ':' :: port)) = some (cs, port) := by
  simp only [splitAddress?, splitAt?_append h, Option.map_some]

section Padded

variable (hleft : Text.allBlank left = true) (hright : Text.allBlank right = true)
  (hne : core.toList ≠ []) (htrimmed : Text.Trimmed core.toList)

include hleft hright hne htrimmed

/-- An address between blanks that names no port is read as its host. -/
theorem parseAddress_of_bare (hsplit : splitAddress? core.toList = some (host.toList, [])) :
    parseAddress (left ++ core ++ right) d = .ok ⟨host, d⟩ := by
  rw [parseAddress, Text.allBlank_eq_false hne htrimmed, if_neg Bool.false_ne_true]
  dsimp only
  rw [Text.trim_eq_core hne htrimmed hleft hright, hsplit]
  dsimp only
  rw [String.ofList_toList]

/-- An address between blanks that names a port is read as its host and the port. -/
theorem parseAddress_of_ported (hpos : 0 < p) (hbound : p < 65536)
    (hsplit : splitAddress? core.toList = some (host.toList, Nat.toDigits 10 p)) :
    parseAddress (left ++ core ++ right) d = .ok ⟨host, p⟩ := by
  obtain ⟨c, digits, hdigits, -⟩ := Text.toDigits_eq_cons p
  have hread := readInteger?_toDigits hbound
  rw [parseAddress, Text.allBlank_eq_false hne htrimmed, if_neg Bool.false_ne_true]
  dsimp only
  rw [Text.trim_eq_core hne htrimmed hleft hright, hsplit]
  rw [hdigits] at hread ⊢
  dsimp only
  rw [hread]
  dsimp only
  rw [if_pos ⟨Int.ofNat_lt.2 hpos, Int.ofNat_lt.2 hbound⟩, Int.toNat_natCast, String.ofList_toList]

end Padded

/-- A text that begins with no blank is trimmed with the digits of a port at its end. -/
theorem trimmed_append_toDigits {cs : List Char} (hne : cs ≠ [])
    (h : Text.Begins (fun c => !Text.isBlank c) cs) (p : Nat) :
    Text.Trimmed (cs ++ Nat.toDigits 10 p) where
  front := h.append hne _
  back := by
    rw [List.reverse_append]
    refine Text.Begins.append (Text.begins_of_forall fun c hc => ?_) (by simp) _
    rw [Text.isBlank_of_isDigit (Text.isDigit_toDigits (List.mem_reverse.1 hc)), Bool.not_false]

/-- What is written for a host and a port, in any of the three forms and with any blanks around it,
is read as the host and the port; a port that is left out is the default. -/
theorem parseAddress_recovers (d : Nat) {p : Nat} (hpos : 0 < p) (hbound : p < 65536)
    {left right : String} (hleft : Text.allBlank left = true)
    (hright : Text.allBlank right = true) :
    (∀ h : String, h ≠ "" → ':' ∉ h.toList → h.toList.head? ≠ some '[' → Text.Trimmed h.toList →
      parseAddress (left ++ h ++ right) d = .ok ⟨h, d⟩ ∧
      parseAddress (left ++ (h ++ ":" ++ Layout.digits p) ++ right) d = .ok ⟨h, p⟩) ∧
    (∀ h : String, ']' ∉ h.toList →
      parseAddress (left ++ ("[" ++ h ++ "]") ++ right) d = .ok ⟨h, d⟩ ∧
      parseAddress (left ++ ("[" ++ h ++ "]:" ++ Layout.digits p) ++ right) d = .ok ⟨h, p⟩) ∧
    ∀ h : String, 2 ≤ h.toList.count ':' → h.toList.head? ≠ some '[' → Text.Trimmed h.toList →
      parseAddress (left ++ h ++ right) d = .ok ⟨h, d⟩ := by
  have hbare {core host : String} := @parseAddress_of_bare left core right host d hleft hright
  have hported {core host : String} := @parseAddress_of_ported left core right host d p hleft hright
  have hopen : Text.Begins (fun c => !Text.isBlank c) ['['] := Text.begins_cons.2 (by decide)
  have hclosed : Text.Begins (fun c => !Text.isBlank c) [']'] := Text.begins_cons.2 (by decide)
  refine ⟨fun h hempty hcolon hbracket htrimmed => ⟨?_, ?_⟩, fun h hclose => ⟨?_, ?_⟩,
    fun h hcolons hbracket htrimmed => ?_⟩
  · -- a host without a colon
    have hne : h.toList ≠ [] := fun hnil => hempty (String.toList_eq_nil_iff.1 hnil)
    have hcount : h.toList.count ':' ≠ 1 := by simp [List.count_eq_zero.2 hcolon]
    exact hbare hne htrimmed (splitAddress?_host hbracket hcount)
  · have hne : h.toList ≠ [] := fun hnil => hempty (String.toList_eq_nil_iff.1 hnil)
    have htext : (h ++ ":" ++ Layout.digits p).toList = h.toList ++ [':'] ++ Nat.toDigits 10 p := by
      simp [Text.toList_digits]
    have hport : ':' ∉ Nat.toDigits 10 p := fun hmem =>
      absurd (Text.isDigit_toDigits hmem) (by decide)
    refine hported ?_ ?_ hpos hbound ?_ <;> rw [htext]
    · simp
    · exact trimmed_append_toDigits (by simp) (htrimmed.front.append hne _) p
    · rw [List.append_assoc]
      exact splitAddress?_host_port hbracket hcolon hport
  · -- a host between brackets
    have htext : ("[" ++ h ++ "]").toList = ['['] ++ (h.toList ++ [']']) := by simp
    refine hbare ?_ ?_ ?_ <;> rw [htext]
    · simp
    · refine ⟨hopen.append (by simp) _, ?_⟩
      rw [List.reverse_append, List.reverse_append]
      exact (hclosed.append (by simp) _).append (by simp) _
    · exact splitAddress?_bracketed hclose
  · have htext : ("[" ++ h ++ "]:" ++ Layout.digits p).toList =
        ['['] ++ (h.toList ++ [']', ':']) ++ Nat.toDigits 10 p := by
      simp [Text.toList_digits]
    refine hported ?_ ?_ hpos hbound ?_ <;> rw [htext]
    · simp
    · exact trimmed_append_toDigits (by simp) (hopen.append (by simp) _) p
    · rw [List.append_assoc, List.append_assoc]
      exact splitAddress?_bracketed_port hclose
  · -- a host with colons of its own
    have hne : h.toList ≠ [] := by
      intro hnil
      rw [hnil] at hcolons
      cases hcolons
    exact hbare hne htrimmed (splitAddress?_host hbracket (by omega))

/-- Three hosts between a tabulator and a line break. -/
theorem parseAddress_recovers_hosts :
    0 < 29015 ∧ 29015 < 65536 ∧ Text.allBlank "\t" = true ∧ Text.allBlank " \n" = true ∧
      ':' ∉ "db one".toList ∧ Text.Trimmed "db one".toList ∧ ']' ∉ "::1 ".toList ∧
      2 ≤ "fe80::1".toList.count ':' ∧ Text.Trimmed "fe80::1".toList ∧
      parseAddress ("\t" ++ ("db one" ++ ":" ++ Layout.digits 29015) ++ " \n") 7 =
        .ok ⟨"db one", 29015⟩ ∧
      parseAddress ("\t" ++ ("[" ++ "::1 " ++ "]:" ++ Layout.digits 29015) ++ " \n") 7 =
        .ok ⟨"::1 ", 29015⟩ ∧
      parseAddress ("\t" ++ "fe80::1" ++ " \n") 7 = .ok ⟨"fe80::1", 7⟩ := by
  have htrimmed : Text.Trimmed "db one".toList :=
    ⟨Text.begins_cons.2 (by decide), Text.begins_cons.2 (by decide)⟩
  have htrimmed' : Text.Trimmed "fe80::1".toList :=
    ⟨Text.begins_cons.2 (by decide), Text.begins_cons.2 (by decide)⟩
  have hblanks : Text.allBlank "\t" = true ∧ Text.allBlank " \n" = true := by decide
  obtain ⟨hname, hbrackets, hcolons⟩ :=
    parseAddress_recovers 7 (p := 29015) (by decide) (by decide) hblanks.1 hblanks.2
  exact ⟨by decide, by decide, hblanks.1, hblanks.2, by decide, htrimmed, by decide, by decide,
    htrimmed', (hname "db one" (by decide) (by decide) (by decide) htrimmed).2,
    (hbrackets "::1 " (by decide)).2, hcolons "fe80::1" (by decide) (by decide) htrimmed'⟩

end Written

end QueryDriver.Net
