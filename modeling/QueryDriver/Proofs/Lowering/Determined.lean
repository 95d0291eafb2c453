import QueryDriver.Proofs.Lowering.Outline

/-!
# The rules leave no choice

A value becomes one outline at most, from one mark and under one trail of settings, and the
mark that it ends with is settled too. No two rules are for the same value, but for a body
that stands for itself and one that is wrapped, and these are told apart by the term that
the body becomes.
-/

namespace QueryDriver

theorem keys_determined {entries : List (Value × Value)} {keys keys' : List String}
    (h : entries.map (·.1) = keys.map Value.text) (h' : entries.map (·.1) = keys'.map Value.text) :
    keys = keys' :=
  List.map_injective_iff.2 (fun _ _ => Value.text.inj) (h.symm.trans h')

mutual

theorem Lowers.determined {c : Scope} {r : Trail} {v : Value} {m m' m'' : Mark} {o o' : Outline} :
    Lowers c r v m o m' → Lowers c r v m o' m'' → o = o' ∧ m' = m''
  | .scalar h, h' => by
      cases h' with
      | scalar h' =>
          cases h.symm.trans h'
          exact ⟨rfl, rfl⟩
      | callable h' => cases h' with | call => cases h
      | _ => cases h
  | .moment h, h' => by
      cases h' with
      | scalar h' => cases h'
      | callable h' => cases h'
      | moment h' =>
          cases h.symm.trans h'
          exact ⟨rfl, rfl⟩
  | .list h, h' => by
      cases h' with
      | scalar h' => cases h'
      | callable h' => cases h'
      | list h' =>
          obtain ⟨rfl, rfl⟩ := h.determined h'
          exact ⟨rfl, rfl⟩
  | .tuple h, h' => by
      cases h' with
      | scalar h' => cases h'
      | callable h' => cases h'
      | tuple h' =>
          obtain ⟨rfl, rfl⟩ := h.determined h'
          exact ⟨rfl, rfl⟩
  | .dict hkeys h, h' => by
      cases h' with
      | scalar h' => cases h'
      | callable h' => cases h'
      | dict hkeys' h' =>
          obtain rfl := keys_determined hkeys hkeys'
          obtain ⟨rfl, rfl⟩ := h.determined h'
          exact ⟨rfl, rfl⟩
  | .mapping hkeys h, h' => by
      cases h' with
      | scalar h' => cases h'
      | callable h' => cases h'
      | mapping hkeys' h' =>
          obtain rfl := keys_determined hkeys hkeys'
          obtain ⟨rfl, rfl⟩ := h.determined h'
          exact ⟨rfl, rfl⟩
  | .row, h' => by
      cases h' with
      | scalar h' => cases h'
      | callable h' => cases h'
      | row => exact ⟨rfl, rfl⟩
  | .placeholder, h' => by
      cases h' with
      | scalar h' => cases h'
      | callable h' => cases h'
      | placeholder => exact ⟨rfl, rfl⟩
  | .callable h, h' => by
      cases h' with
      | callable h' => exact h.determined h'
      | scalar h' => cases h with | call => cases h'
      | _ => cases h
  | .literal h, h' => by
      cases h' with
      | scalar h' => cases h'
      | callable h' => cases h'
      | literal h' => exact h.determined h'
  | .applied h, h' => by
      cases h' with
      | scalar h' => cases h'
      | callable h' => cases h'
      | applied h' => exact h.determined h'
      | constant happlied h' hconstant =>
          cases h with
          | call htype => simp [Value.isApplied, htype] at happlied
      | wrapped happlied h' hconstant hcount =>
          cases h with
          | call htype => simp [Value.isApplied, htype] at happlied
  | .constant happlied h hconstant, h' => by
      cases h' with
      | scalar h' => cases h'
      | callable h' => cases h'
      | applied h' =>
          cases h' with
          | call htype => simp [Value.isApplied, htype] at happlied
      | constant happlied' h' hconstant' => exact h.determined h'
      | wrapped happlied' h' hconstant' hcount' =>
          obtain ⟨rfl, rfl⟩ := h.determined h'
          cases hconstant.symm.trans hconstant'
  | .wrapped happlied h hconstant hcount, h' => by
      cases h' with
      | scalar h' => cases h'
      | callable h' => cases h'
      | applied h' =>
          cases h' with
          | call htype => simp [Value.isApplied, htype] at happlied
      | constant happlied' h' hconstant' =>
          obtain ⟨rfl, rfl⟩ := h.determined h'
          cases hconstant.symm.trans hconstant'
      | wrapped happlied' h' hconstant' hcount' =>
          obtain ⟨rfl, rfl⟩ := h.determined h'
          cases hcount.symm.trans hcount'
          exact ⟨rfl, rfl⟩
  | .setting h, h' => by
      cases h' with
      | scalar h' => cases h'
      | callable h' => cases h'
      | setting h' => exact h.determined h'
  | .verb ha hpositional hown hgiven, h' => by
      cases h' with
      | scalar h' => cases h'
      | callable h' => cases h'
      | verb ha' hpositional' hown' hgiven' =>
          cases ha.symm.trans ha'
          obtain ⟨rfl, rfl⟩ := hpositional.determined hpositional'
          obtain ⟨rfl, rfl⟩ := hown.determined hown'
          obtain ⟨rfl, rfl⟩ := hgiven.determined hgiven'
          exact ⟨rfl, rfl⟩

theorem LowersEach.determined {c : Scope} {r : Trail} {vs : List Value} {m m' m'' : Mark}
    {os os' : List Outline} :
    LowersEach c r vs m os m' → LowersEach c r vs m os' m'' → os = os' ∧ m' = m''
  | .nil, .nil => ⟨rfl, rfl⟩
  | .cons h hs, .cons h' hs' => by
      obtain ⟨rfl, rfl⟩ := h.determined h'
      obtain ⟨rfl, rfl⟩ := hs.determined hs'
      exact ⟨rfl, rfl⟩

theorem LowersCall.determined {c : Scope} {r : Trail} {v hint : Value} {m m' m'' : Mark}
    {o o' : Outline} :
    LowersCall c r v hint m o m' → LowersCall c r v hint m o' m'' → o = o' ∧ m' = m''
  | .call _ hcount _ hresult h, h' => by
      cases h' with
      | call htype' hcount' hadmits' hresult' h' =>
          cases hcount.symm.trans hcount'
          cases hresult.symm.trans hresult'
          obtain ⟨rfl, rfl⟩ := h.determined h'
          exact ⟨rfl, rfl⟩

end

end QueryDriver
