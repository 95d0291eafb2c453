import QueryDriver.Codec.Marshal
import QueryDriver.Proofs.Effect

/-!
# Outcomes of the codec

What the codec refuses to encode or to decode it refuses with errors of one class of its own.
Anything else that comes out of it is a fault. `Coded` says so of an outcome; that the outcomes of
the codec are coded goes along its sequences.
-/

namespace QueryDriver

/-- An error of the codec. -/
def Failure.IsUnmarshalable (f : Failure) : Prop :=
  ∃ e, f = .driver e ∧ e.category = .unmarshalable

theorem Failure.isUnmarshalable_ofCause {cause : Cause} (h : cause.category = .unmarshalable) :
    (Failure.ofCause cause).IsUnmarshalable := ⟨_, rfl, h⟩

/-- The outcome is no failure, an error of the codec or a fault. -/
def Coded {α : Type} (o : Except Failure α) : Prop :=
  ∀ e, o = .error e → e.IsUnmarshalable ∨ ∃ f, e = .fault f

section Coded

variable {α β : Type}

theorem coded_ok (x : α) : Coded (.ok x) := by
  intro e he
  cases he

theorem coded_cause {cause : Cause} (h : cause.category = .unmarshalable) :
    Coded (.error (.ofCause cause) : Except Failure α) := by
  intro e he
  cases he
  exact .inl (Failure.isUnmarshalable_ofCause h)

theorem coded_fault (f : Fault) : Coded (.error (.fault f) : Except Failure α) := by
  intro e he
  cases he
  exact .inr ⟨f, rfl⟩

theorem Coded.bind {o : Except Failure α} {f : α → Except Failure β} (ho : Coded o)
    (hf : ∀ x, Coded (f x)) : Coded (o >>= f) := by
  intro e he
  obtain h | ⟨x, -, h⟩ := bind_eq_error_iff.1 he
  · exact ho e h
  · exact hf x e h

theorem Coded.map {o : Except Failure α} (ho : Coded o) (f : α → β) : Coded (o.map f) :=
  fun e he => ho e (map_eq_error_iff.1 he)

theorem coded_mapM {f : α → Except Failure β} {xs : List α} (h : ∀ x ∈ xs, Coded (f x)) :
    Coded (xs.mapM f) := by
  intro e he
  obtain ⟨before, x, after, rfl, -, hx⟩ := mapM_eq_error_iff.1 he
  exact h x (List.mem_append_right _ List.mem_cons_self) e hx

theorem coded_checkDepth (depth : Int) : Coded (checkDepth depth) := by
  unfold checkDepth
  split
  · exact coded_cause rfl
  · exact coded_ok _

theorem checkDepth_bind_eq_ok {depth : Int} {f : Unit → Except Failure α} {y : α} :
    checkDepth depth >>= f = .ok y ↔ depth ≤ depthLimit ∧ f () = .ok y := by
  unfold checkDepth
  split
  next hdeep => exact ⟨nofun, fun h => absurd h.1 (by omega)⟩
  next hroom => exact ⟨fun h => ⟨by omega, h⟩, And.right⟩

/-- A place under too many containers is refused by the codec itself. -/
theorem checkDepth_bind_eq_fault {depth : Int} {g : Unit → Except Failure α} {f : Fault} :
    checkDepth depth >>= g = .error (.fault f) ↔
      depth ≤ depthLimit ∧ g () = .error (.fault f) := by
  unfold checkDepth
  split
  next hdeep => exact ⟨nofun, fun h => absurd h.1 (by omega)⟩
  next hroom => exact ⟨fun h => ⟨by omega, h⟩, And.right⟩

end Coded

namespace Value

theorem textKey_eq_ok_iff {k : Value} {key : String} : textKey k = .ok key ↔ k = .text key := by
  cases k <;> simp [textKey]

theorem coded_textKey (k : Value) : Coded (textKey k) := by
  unfold textKey
  split
  · exact coded_ok _
  · exact coded_cause rfl

/-- A moment is refused by the codec itself. -/
theorem timeEntriesAt_error {t : Moment} {depth : Int} {e : Failure}
    (h : timeEntriesAt t depth = .error e) : e.IsUnmarshalable := by
  obtain h | ⟨entries, -, h⟩ := bind_eq_error_iff.1 h
  · unfold timeEntries at h
    split at h
    · cases h
      exact Failure.isUnmarshalable_ofCause rfl
    · rename_i east heast
      split at h <;> cases h
      rename_i cause hzone
      refine Failure.isUnmarshalable_ofCause ?_
      rw [Zone.ofMoment, heast] at hzone
      dsimp only at hzone
      split at hzone <;> cases hzone
      rfl
  · obtain h | ⟨_, -, h⟩ := bind_eq_error_iff.1 h
    · unfold checkDepth at h
      split at h <;> cases h
      exact Failure.isUnmarshalable_ofCause rfl
    · cases h

end Value

end QueryDriver
