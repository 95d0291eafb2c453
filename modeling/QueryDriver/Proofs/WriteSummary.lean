import QueryDriver.Proofs.Codec.Conversion
import QueryDriver.WriteSummary

/-!
# What becomes of a summary

A summary is normalised counter by counter. Each step puts an integer under one key: in its place
where the key is there, and behind all entries where it is not. So the entries stay where they are,
only the numbers of the counters are cut, and the counters that were missing follow in the order in
which they are declared.

A summary whose counters are integers is left as it is by every step, so normalising a normalised
summary does nothing.
-/

namespace QueryDriver

namespace Double

/-- Cutting toward zero is division toward zero of the exact value. -/
theorem truncate_eq_tdiv (x : Double) : x.truncate = x.exact.1.tdiv x.exact.2 := by
  rw [truncate, exact]
  cases x.negative with
  | false => simp only [Bool.false_eq_true, if_false, ← Int.ofNat_tdiv]
  | true => simp only [if_true, Int.neg_tdiv, ← Int.ofNat_tdiv]

end Double

namespace Value

variable {es : List (Value × Value)} {key : String} {v w : Value}

/-- Entering what is under a key already changes nothing. -/
theorem insertKey_of_lookup (h : lookup es key = some v) : insertKey es (.text key) v = es := by
  induction es with
  | nil => cases h
  | cons e es ih =>
      obtain ⟨k, u⟩ := e
      rw [lookup_cons] at h
      rw [insertKey]
      split
      next hsame =>
        rw [if_pos hsame] at h
        cases h
        rfl
      next hsame =>
        rw [if_neg hsame] at h
        rw [ih h]

/-- Nothing is found under a text that is no key. -/
theorem lookup_eq_none_iff : lookup es key = none ↔ Value.text key ∉ es.map Prod.fst := by
  simp only [lookup, Option.map_eq_none_iff, List.find?_eq_none, same_text_iff, List.mem_map,
    not_exists, not_and]

theorem distinctKeys_iff :
    DistinctKeys es ↔ (es.map Prod.fst).Pairwise fun k k' => same k k' = false := by
  rw [List.pairwise_map, DistinctKeys]

/-- What is found is an entry. -/
theorem mem_of_lookup (h : lookup es key = some v) : (.text key, v) ∈ es := by
  obtain ⟨e, hfind, rfl⟩ := Option.map_eq_some_iff.1 h
  have hsame := List.find?_some hfind
  rw [← same_text_iff.1 hsame]
  exact List.mem_of_find?_eq_some hfind

theorem insertKey_of_lookup_eq_none (h : lookup es key = none) :
    insertKey es (.text key) v = es ++ [(.text key, v)] := by
  refine insertKey_of_fresh fun e he => Bool.eq_false_iff.2 fun hsame => ?_
  exact lookup_eq_none_iff.1 h (same_text_iff.1 hsame ▸ List.mem_map_of_mem he)

theorem lookup_append (es es' : List (Value × Value)) (key : String) :
    lookup (es ++ es') key = (lookup es key).or (lookup es' key) := by
  rw [lookup, List.find?_append]
  cases hfind : es.find? fun e => same e.1 (.text key) <;> simp [lookup, hfind]

/-- A key that is there already keeps its place in front of other entries. -/
theorem insertKey_append (h : lookup es key ≠ none) (es' : List (Value × Value)) :
    insertKey (es ++ es') (.text key) v = insertKey es (.text key) v ++ es' := by
  induction es with
  | nil => exact absurd rfl h
  | cons e es ih =>
      obtain ⟨k, u⟩ := e
      rw [lookup_cons] at h
      rw [List.cons_append, insertKey, insertKey]
      split
      next hsame => rfl
      next hsame =>
        rw [if_neg hsame] at h
        rw [ih h, List.cons_append]

end Value

namespace WriteSummary

open Value

/-- The integer that a number is cut to, toward zero. -/
inductive CutTo : Value → Int → Prop where
  | int (n : Int) : CutTo (.int n) n
  | double {x : Double} (hfinite : x.isFinite = true) :
    CutTo (.double x) (x.exact.1.tdiv x.exact.2)

/-- The entry of a summary is what becomes of another one when some counters are normalised. -/
inductive Cut (fields : List String) : Value × Value → Value × Value → Prop where
  | counter {field : String} {v : Value} {n : Int} (hfield : field ∈ fields) (hv : CutTo v n) :
    Cut fields (.text field, v) (.text field, .int n)
  | other {e : Value × Value} (hother : ∀ field ∈ fields, e.1 ≠ .text field) : Cut fields e e

/-- The counters among some fields that are missing from a summary, as they are entered. -/
def zeros (entries : List (Value × Value)) (fields : List String) : List (Value × Value) :=
  (fields.filter fun field => (lookup entries field).isNone).map fun field => (.text field, .int 0)

variable {entries entries' result : List (Value × Value)} {field : String} {fields : List String}
  {v r : Value} {n : Int}

theorem cutTo_of_count (h : count field v = .ok n) : CutTo v n := by
  cases v with
  | int =>
      cases h
      exact .int _
  | double x =>
      rw [count] at h
      split at h
      · cases h
      · rename_i hnan
        split at h
        · cases h
        · rename_i hinf
          cases h
          rw [Double.truncate_eq_tdiv]
          refine .double ?_
          simp only [Double.isNaN, Double.isInfinite, Double.isFinite] at hnan hinf ⊢
          grind
  | _ => cases h

/-- Normalising a counter is entering an integer. -/
theorem enter_ok (h : enter entries field = .ok entries') :
    ∃ n, CutTo ((lookup entries field).getD (.int 0)) n ∧
      entries' = insertKey entries (.text field) (.int n) := by
  obtain ⟨n, hn, h⟩ := bind_ok h
  cases h
  exact ⟨n, cutTo_of_count hn, rfl⟩

/-- Entering an integer in the place of a number cuts the entry and leaves the others. -/
theorem cut_insertKey (hkeys : DistinctKeys entries) (hlookup : lookup entries field = some v)
    (hv : CutTo v n) :
    List.Forall₂ (Cut [field]) entries (insertKey entries (.text field) (.int n)) := by
  induction entries with
  | nil => cases hlookup
  | cons e es ih =>
      obtain ⟨k, u⟩ := e
      obtain ⟨he, hes⟩ := List.pairwise_cons.1 hkeys
      rw [lookup_cons] at hlookup
      rw [insertKey]
      split
      next hsame =>
        rw [if_pos hsame] at hlookup
        cases hlookup
        obtain rfl := same_text_iff.1 hsame
        refine .cons (.counter List.mem_cons_self hv) (List.forall₂_same.2 fun e' he' => .other ?_)
        intro field' hfield' heq
        obtain rfl := List.mem_singleton.1 hfield'
        have hdiffer := he e' he'
        simp [heq] at hdiffer
      next hsame =>
        rw [if_neg hsame] at hlookup
        refine .cons (.other ?_) (ih hes hlookup)
        intro field' hfield' heq
        obtain rfl := List.mem_singleton.1 hfield'
        exact hsame (same_text_iff.2 heq)

theorem keys_eq {kept : List (Value × Value)} (h : List.Forall₂ (Cut fields) entries kept) :
    kept.map Prod.fst = entries.map Prod.fst := by
  induction h with
  | nil => rfl
  | cons he _ ih =>
      rw [List.map_cons, List.map_cons, ih]
      cases he <;> rfl

/-- Counters that are cut one group after the other. -/
theorem Cut.trans {fields fields' : List String} {a b c : Value × Value} (hab : Cut fields a b)
    (hbc : Cut fields' b c) (hdisjoint : fields.Disjoint fields') :
    Cut (fields ++ fields') a c := by
  cases hab with
  | @counter field _ _ hfield hv =>
      cases hbc with
      | counter hfield' => exact absurd hfield' (hdisjoint hfield)
      | other => exact .counter (List.mem_append_left _ hfield) hv
  | other hother =>
      cases hbc with
      | counter hfield' hv => exact .counter (List.mem_append_right _ hfield') hv
      | other hother' =>
          exact .other fun field hfield => (List.mem_append.1 hfield).elim (hother _) (hother' _)

theorem cuts_trans {fields' : List String} {kept : List (Value × Value)}
    (h : List.Forall₂ (Cut fields) entries kept) (h' : List.Forall₂ (Cut fields') kept result)
    (hdisjoint : fields.Disjoint fields') :
    List.Forall₂ (Cut (fields ++ fields')) entries result := by
  induction h generalizing result with
  | nil =>
      cases h'
      exact .nil
  | cons he _ ih =>
      cases h' with
      | cons he' hes' => exact .cons (he.trans he' hdisjoint) (ih hes')

/-- What becomes of a summary when some counters are normalised: the entries stay in their places,
and the counters that are missing follow. -/
def Normalised (fields : List String) (entries result : List (Value × Value)) : Prop :=
  ∃ kept, result = kept ++ zeros entries fields ∧ List.Forall₂ (Cut fields) entries kept

theorem mem_zeros {e : Value × Value} : e ∈ zeros entries fields ↔
    ∃ field ∈ fields, lookup entries field = none ∧ (.text field, .int 0) = e := by
  simp [zeros, and_assoc]

theorem zeros_concat (entries : List (Value × Value)) (fields : List String) (field : String) :
    zeros entries (fields ++ [field]) = zeros entries fields ++
      if lookup entries field = none then [(.text field, .int 0)] else [] := by
  unfold zeros
  cases hlookup : lookup entries field <;> simp [hlookup]

/-- One more counter is normalised. -/
theorem normalised_enter {done : List String} {found : List (Value × Value)}
    (hkeys : DistinctKeys entries) (h : Normalised done entries found) (hfield : field ∉ done)
    (henter : enter found field = .ok result) : Normalised (done ++ [field]) entries result := by
  obtain ⟨kept, rfl, hkept⟩ := h
  obtain ⟨n, hn, rfl⟩ := enter_ok henter
  have hsame := keys_eq hkept
  have hmissing : lookup kept field = none ↔ lookup entries field = none := by
    rw [lookup_eq_none_iff, lookup_eq_none_iff, hsame]
  have hzeros : lookup (zeros entries done) field = none := by
    rw [lookup_eq_none_iff]
    intro hmem
    obtain ⟨e, he, hkey⟩ := List.mem_map.1 hmem
    obtain ⟨field', hfield', -, rfl⟩ := mem_zeros.1 he
    cases hkey
    exact hfield hfield'
  have hlookup : lookup (kept ++ zeros entries done) field = lookup kept field := by
    rw [lookup_append, hzeros, Option.or_none]
  have hdisjoint : done.Disjoint [field] := List.disjoint_singleton.2 hfield
  rw [hlookup] at hn
  rw [Normalised, zeros_concat]
  cases hv : lookup kept field with
  | some v =>
      rw [hv] at hn
      have hthere : lookup kept field ≠ none := by simp [hv]
      rw [if_neg (mt hmissing.2 hthere), List.append_nil, insertKey_append hthere]
      have hkeptKeys : DistinctKeys kept := by
        rw [distinctKeys_iff, hsame]
        exact distinctKeys_iff.1 hkeys
      exact ⟨_, rfl, cuts_trans hkept (cut_insertKey hkeptKeys hv hn) hdisjoint⟩
  | none =>
      rw [hv] at hn
      cases hn
      rw [if_pos (hmissing.1 hv), insertKey_of_lookup_eq_none (hlookup.trans hv),
        List.append_assoc]
      have hother : ∀ e ∈ kept, Cut [field] e e := fun e he => .other fun field' hfield' heq => by
        obtain rfl := List.mem_singleton.1 hfield'
        exact lookup_eq_none_iff.1 hv (heq ▸ List.mem_map_of_mem he)
      exact ⟨kept, rfl, cuts_trans hkept (List.forall₂_same.2 hother) hdisjoint⟩

/-- All of some counters are normalised, one after the other. -/
theorem normalised_foldlM {done : List String} {found : List (Value × Value)}
    (hkeys : DistinctKeys entries) (h : Normalised done entries found)
    (hnodup : (done ++ fields).Nodup) (hfold : fields.foldlM enter found = .ok result) :
    Normalised (done ++ fields) entries result := by
  induction fields generalizing done found with
  | nil =>
      cases hfold
      rwa [List.append_nil]
  | cons field fields ih =>
      rw [List.foldlM_cons] at hfold
      obtain ⟨next, henter, hfold⟩ := bind_ok hfold
      have hfield : field ∉ done := fun hmem =>
        (List.nodup_append.1 hnodup).2.2 _ hmem _ List.mem_cons_self rfl
      have hsplit : done ++ field :: fields = done ++ [field] ++ fields := by simp
      rw [hsplit] at hnodup ⊢
      exact ih (normalised_enter hkeys h hfield henter) hnodup hfold

theorem int_of_mem_cuts {kept : List (Value × Value)} (h : List.Forall₂ (Cut fields) entries kept)
    (hfield : field ∈ fields) (hmem : (.text field, v) ∈ kept) : ∃ n, v = .int n := by
  induction h with
  | nil => cases hmem
  | cons he _ ih =>
      obtain heq | hmem := List.mem_cons.1 hmem
      · cases he with
        | counter =>
            cases heq
            exact ⟨_, rfl⟩
        | other hother => exact absurd (congrArg Prod.fst heq.symm) (hother field hfield)
      · exact ih hmem

/-- Every counter of a normalised summary is an integer. -/
theorem exists_lookup_of_normalised (h : Normalised fields entries result)
    (hfield : field ∈ fields) : ∃ n, lookup result field = some (.int n) := by
  obtain ⟨kept, rfl, hkept⟩ := h
  have hthere : lookup (kept ++ zeros entries fields) field ≠ none := by
    rw [Ne, lookup_eq_none_iff, not_not, List.map_append, keys_eq hkept, List.mem_append]
    cases hmissing : lookup entries field with
    | none => exact .inr (List.mem_map_of_mem (mem_zeros.2 ⟨field, hfield, hmissing, rfl⟩))
    | some v => exact .inl (List.mem_map_of_mem (mem_of_lookup hmissing))
  obtain ⟨v, hv⟩ := Option.ne_none_iff_exists'.1 hthere
  obtain ⟨n, rfl⟩ : ∃ n, v = .int n := by
    obtain hmem | hmem := List.mem_append.1 (mem_of_lookup hv)
    · exact int_of_mem_cuts hkept hfield hmem
    · obtain ⟨field', -, -, heq⟩ := mem_zeros.1 hmem
      cases heq
      exact ⟨0, rfl⟩
  exact ⟨n, hv⟩

/-- Counters that are integers stay as they are. -/
theorem foldlM_enter_of_ints (h : ∀ field ∈ fields, ∃ n, lookup entries field = some (.int n)) :
    fields.foldlM enter entries = .ok entries := by
  induction fields with
  | nil => rfl
  | cons field fields ih =>
      obtain ⟨⟨n, hn⟩, hfields⟩ := List.forall_mem_cons.1 h
      have henter : enter entries field = .ok entries := by
        rw [enter, hn]
        change Except.ok (insertKey entries (.text field) (.int n)) = _
        rw [insertKey_of_lookup hn]
      rw [List.foldlM_cons, henter]
      exact ih hfields

/-- A summary is normalised when its counters are and the other two entries are as they have to
be. -/
theorem normaliseEntries_eq_ok_iff : normaliseEntries entries = .ok result ↔
    counters.foldlM enter entries = .ok result ∧ isFine result "generated_keys" isList = true ∧
      isFine result "first_error" isText = true := by
  rw [normaliseEntries, bind_eq_ok_iff]
  constructor
  · rintro ⟨found, hfound, h⟩
    cases hkeys : isFine found "generated_keys" isList <;> rw [hkeys] at h
    · cases h
    cases herror : isFine found "first_error" isText <;> rw [herror] at h <;> cases h
    exact ⟨hfound, hkeys, herror⟩
  · rintro ⟨hfound, hkeys, herror⟩
    refine ⟨result, hfound, ?_⟩
    rw [hkeys, herror]
    rfl

/-- Normalising a summary keeps its entries in their places, cuts the counters among them toward
zero, and lets the missing counters follow as zeros, in the order in which they are declared. To
normalise what comes of it changes nothing. -/
theorem normalise_projects {v r : Value} (hkeys : v.WellKeyed) (h : normalise v = .ok r) :
    ∃ entries kept, (v = .dict entries ∨ v = .mapping entries) ∧
      r = .dict (kept ++ zeros entries counters) ∧ kept.map Prod.fst = entries.map Prod.fst ∧
      List.Forall₂ (Cut counters) entries kept ∧ normalise r = .ok r := by
  obtain ⟨entries, hv, hentries⟩ : ∃ entries, (v = .dict entries ∨ v = .mapping entries) ∧
      (normaliseEntries entries).map .dict = .ok r := by
    cases v with
    | dict entries => exact ⟨entries, .inl rfl, h⟩
    | mapping entries => exact ⟨entries, .inr rfl, h⟩
    | _ => cases h
  have hdistinct : DistinctKeys entries := by
    obtain rfl | rfl := hv <;> exact hkeys
  obtain ⟨result, hresult, rfl⟩ := map_ok hentries
  obtain ⟨hfold, hkeysFine, herrorFine⟩ := normaliseEntries_eq_ok_iff.1 hresult
  have hstart : Normalised [] entries entries :=
    ⟨entries, by simp [zeros], List.forall₂_same.2 fun e _ => .other (List.forall_mem_nil _)⟩
  have hnormalised : Normalised counters entries result :=
    normalised_foldlM hdistinct hstart (by decide) hfold
  have hagain : normaliseEntries result = .ok result :=
    normaliseEntries_eq_ok_iff.2 ⟨foldlM_enter_of_ints fun field hfield =>
      exists_lookup_of_normalised hnormalised hfield, hkeysFine, herrorFine⟩
  obtain ⟨kept, rfl, hkept⟩ := hnormalised
  refine ⟨entries, kept, hv, rfl, keys_eq hkept, hkept, ?_⟩
  rw [normalise, hagain]
  rfl

/-- A summary with an integer, with fractions of either sign, and with entries that count
nothing. -/
def mixed : Value :=
  .mapping [(.text "deleted", .int 3), (.text "x", .null),
    (.text "inserted", .double ⟨0x4007333333333333⟩),
    (.text "errors", .double ⟨0xbffe666666666666⟩), (.text "first_error", .text "Duplicate primary key")]

/-- What it is normalised to. -/
def mixedCut : Value :=
  .dict [(.text "deleted", .int 3), (.text "x", .null), (.text "inserted", .int 2),
    (.text "errors", .int (-1)), (.text "first_error", .text "Duplicate primary key"),
    (.text "updated", .int 0), (.text "skipped", .int 0), (.text "replaced", .int 0),
    (.text "unchanged", .int 0)]

theorem normalise_projects_mixed : mixed.WellKeyed ∧ normalise mixed = .ok mixedCut ∧
    ∃ entries kept, (mixed = .dict entries ∨ mixed = .mapping entries) ∧
      mixedCut = .dict (kept ++ zeros entries counters) ∧
      kept.map Prod.fst = entries.map Prod.fst ∧ List.Forall₂ (Cut counters) entries kept ∧
      normalise mixedCut = .ok mixedCut := by
  have hkeys : mixed.WellKeyed := by
    simp [mixed, WellKeyed, DistinctKeys]
  have hnormalise : normalise mixed = .ok mixedCut := by rfl
  exact ⟨hkeys, hnormalise, normalise_projects hkeys hnormalise⟩

end WriteSummary

end QueryDriver
