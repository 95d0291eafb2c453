import Mathlib.Tactic.Common
import QueryDriver.Net.Frame

/-!
# Fields as they are written and read

A message is written as the bytes of its fields, one after the other, and read by splitting
bytes into fields. `Field.encode` writes a single field. What is written is read back as long
as the number of the field and the length of its bytes are within what a reader takes,
`Field.Fits`, whatever bytes follow: the bytes of a field tell where it ends. So a list of
fields is read back from the bytes of all of them, `readFields_encode`.

The second half picks fields out of lists of them by their numbers, as readers do.
-/

namespace QueryDriver.Wire

/-! ### Numbers and blocks -/

theorem readVarint_varint {count n : Nat} (h : n < 1 <<< (7 * count)) (hcount : 0 < count)
    (rest : Bytes) : readVarint count (varint n ++ rest) = some (n, rest) := by
  induction count generalizing n with
  | zero => omega
  | succ count ih =>
      by_cases hn : n < 128
      · have hlast : UInt8.ofNat n < 128 := by
          rw [UInt8.lt_iff_toNat_lt, UInt8.toNat_ofNat']
          simp
          omega
        rw [varint_of_lt hn, List.singleton_append, readVarint, if_pos hlast, UInt8.toNat_ofNat']
        simp
        omega
      · have hdiv : n / 128 < 1 <<< (7 * count) := by
          rw [Nat.mul_succ, Nat.shiftLeft_add, Nat.shiftLeft_eq _ 7] at h
          exact (Nat.div_lt_iff_lt_mul (by decide)).2 h
        have hmore : ¬ UInt8.ofNat (n % 128 + 128) < 128 := by
          rw [UInt8.lt_iff_toNat_lt, UInt8.toNat_ofNat']
          simp
          omega
        have hcount' : 0 < count := by
          rcases count with _ | count
          · simp at h
            omega
          · exact Nat.succ_pos count
        rw [varint_of_le (by omega), List.cons_append, readVarint, if_neg hmore, ih hdiv hcount',
          UInt8.toNat_ofNat']
        simp
        omega

theorem varint_ne_nil (n : Nat) : varint n ≠ [] := by
  by_cases h : n < 128
  · simp [varint_of_lt h]
  · simp [varint_of_le (Nat.le_of_not_lt h)]

theorem readWord_varint (word : UInt64) (rest : Bytes) :
    readWord (varint word.toNat ++ rest) = some (word, rest) := by
  have hword : word.toNat < 1 <<< (7 * 10) := Nat.lt_of_lt_of_le word.toNat_lt (by decide)
  simp [readWord, readVarint_varint hword (by decide)]

theorem readBlock_append (bs rest : Bytes) :
    readBlock bs.length (bs ++ rest) = some (bs, rest) := by
  simp [readBlock]

/-- How long the bytes of a field may be. -/
abbrev blockLimit : Nat := 2147483648

theorem readSized_bytes {bs : Bytes} (h : bs.length < blockLimit) (rest : Bytes) :
    readSized (varint bs.length ++ (bs ++ rest)) = some (bs, rest) := by
  have hlength : bs.length < 1 <<< (7 * 10) := Nat.lt_of_lt_of_le h (by decide)
  simp only [readSized, readVarint_varint hlength (by decide), Option.bind_eq_bind,
    Option.bind_some]
  rw [if_pos h, readBlock_append]

/-- The key of a field is read back as its number and the form of its payload. -/
theorem readKey_varint {number : Nat} (hpos : 0 < number) (hnumber : number < 536870912)
    {form : Nat} (hform : form < 8) (rest : Bytes) :
    readKey (varint (number * 8 + form) ++ rest) = some (number, form, rest) := by
  have hkey : number * 8 + form < 1 <<< (7 * 5) := by
    have hbits : 1 <<< (7 * 5) = 34359738368 := rfl
    omega
  have hsplit : (number * 8 + form) / 8 = number ∧ (number * 8 + form) % 8 = form := by omega
  simp only [readKey, readVarint_varint hkey (by decide), Option.bind_eq_bind, Option.bind_some]
  rw [if_pos (by omega), hsplit.1, hsplit.2]

/-! ### Fields -/

/-- The bytes of a field. Nothing writes a payload that readers pass over. -/
def Field.encode : Field → Bytes
  | ⟨number, .word n⟩ => integerField number n
  | ⟨number, .eight n⟩ => doubleField number ⟨n⟩
  | ⟨number, .bytes bs⟩ => bytesField number bs
  | ⟨_, .skipped⟩ => []

/-- The payload is one that is written, and its bytes are not too many. -/
def Payload.Fits : Payload → Prop
  | .word _ | .eight _ => True
  | .bytes bs => bs.length < blockLimit
  | .skipped => False

/-- The field can be read: its number is one, and its payload fits. -/
structure Field.Fits (f : Field) : Prop where
  pos : 0 < f.number
  lt : f.number < 536870912
  payload : f.payload.Fits

/-- A field is read back, whatever follows it. -/
theorem readField_encode {f : Field} (h : f.Fits) (rest : Bytes) :
    readField (f.encode ++ rest) = some (f, rest) := by
  obtain ⟨number, payload⟩ := f
  obtain ⟨hpos, hlt, hpayload⟩ := h
  cases payload with
  | word n =>
      have hkey := readKey_varint hpos hlt (show 0 < 8 by decide) (varint n.toNat ++ rest)
      rw [Nat.add_zero] at hkey
      simp [readField, Field.encode, integerField, hkey, readWord_varint]
  | eight n =>
      have hkey := readKey_varint hpos hlt (show 1 < 8 by decide)
        (littleEndian 8 n.toNat ++ rest)
      have hblock := readBlock_append (littleEndian 8 n.toNat) rest
      rw [Net.length_littleEndian] at hblock
      have hn : ofLittleEndian (littleEndian 8 n.toNat) = n.toNat :=
        Net.ofLittleEndian_littleEndian n.toNat_lt
      simp [readField, Field.encode, doubleField, hkey, hblock, hn]
  | bytes bs =>
      have hkey := readKey_varint hpos hlt (show 2 < 8 by decide)
        (varint bs.length ++ (bs ++ rest))
      simp [readField, Field.encode, bytesField, hkey, readSized_bytes hpayload]
  | skipped => exact hpayload.elim

/-- A field that fits is not written as nothing. -/
theorem Field.encode_ne_nil {f : Field} (h : f.Fits) : f.encode ≠ [] := by
  obtain ⟨number, payload⟩ := f
  cases payload with
  | word n => simp [encode, integerField, varint_ne_nil]
  | eight n => simp [encode, doubleField, varint_ne_nil]
  | bytes bs => simp [encode, bytesField, varint_ne_nil]
  | skipped => exact h.payload.elim

/-- The bytes of fields, one after the other. -/
def encodeFields (fields : List Field) : Bytes := fields.flatMap Field.encode

@[simp] theorem encodeFields_nil : encodeFields [] = [] := rfl

@[simp] theorem encodeFields_cons (f : Field) (fields : List Field) :
    encodeFields (f :: fields) = f.encode ++ encodeFields fields := rfl

@[simp] theorem encodeFields_append (fields later : List Field) :
    encodeFields (fields ++ later) = encodeFields fields ++ encodeFields later :=
  List.flatMap_append

theorem readFieldsWithin_encode {fields : List Field} (h : ∀ f ∈ fields, f.Fits) {fuel : Nat}
    (hfuel : (encodeFields fields).length ≤ fuel) :
    readFieldsWithin fuel (encodeFields fields) = some fields := by
  induction fields generalizing fuel with
  | nil => cases fuel <;> rfl
  | cons f fields ih =>
      obtain ⟨hf, hfields⟩ := List.forall_mem_cons.1 h
      have hread := readField_encode hf (encodeFields fields)
      obtain ⟨b, bs, hbytes⟩ := List.exists_cons_of_ne_nil (Field.encode_ne_nil hf)
      rw [encodeFields_cons, hbytes, List.cons_append] at hfuel ⊢
      rw [hbytes, List.cons_append] at hread
      simp only [List.length_cons, List.length_append] at hfuel
      obtain ⟨fuel, rfl⟩ := Nat.exists_eq_add_one_of_ne_zero (n := fuel) (by omega)
      have hrest : (encodeFields fields).length ≤ fuel := by omega
      have hlater := ih hfields hrest
      simp [readFieldsWithin, hread, hlater]

/-- Fields are read back from the bytes of all of them. -/
theorem readFields_encode {fields : List Field} (h : ∀ f ∈ fields, f.Fits) :
    readFields (encodeFields fields) = some fields :=
  readFieldsWithin_encode h (Nat.le_refl _)

/-- The bytes of a field are fewer than those of all fields. -/
theorem length_lt_of_mem {number : Nat} {bs : Bytes} {fields : List Field}
    (h : ⟨number, .bytes bs⟩ ∈ fields) : bs.length < (encodeFields fields).length := by
  obtain ⟨before, later, rfl⟩ := List.append_of_mem h
  have hkey := List.length_pos_iff.2 (varint_ne_nil (number * 8 + 2))
  simp [Field.encode, bytesField]
  omega

theorem length_lt_of_mem_blocks {number : Nat} {bs : Bytes} {fields : List Field}
    (h : bs ∈ blocks number fields) : bs.length < (encodeFields fields).length := by
  obtain ⟨⟨m, payload⟩, hf, hbs⟩ := List.mem_filterMap.1 h
  cases payload with
  | bytes bs' =>
      simp only [Option.ite_none_right_eq_some, Option.some.injEq] at hbs
      exact length_lt_of_mem (hbs.2 ▸ hf)
  | word n => cases hbs
  | eight n => cases hbs
  | skipped => cases hbs

/-- The number of the field is one, and something writes its payload. -/
def Field.IsWritten (f : Field) : Prop :=
  0 < f.number ∧ f.number < 536870912 ∧ f.payload ≠ .skipped

/-- Fields fit when all of them together are short enough. -/
theorem fits_of_length {fields : List Field} (hfields : ∀ f ∈ fields, f.IsWritten)
    (h : (encodeFields fields).length ≤ blockLimit) : ∀ f ∈ fields, f.Fits := by
  intro f hf
  obtain ⟨hpos, hlt, hwritten⟩ := hfields f hf
  refine ⟨hpos, hlt, ?_⟩
  obtain ⟨number, payload⟩ := f
  cases payload with
  | word n => trivial
  | eight n => trivial
  | bytes bs => exact Nat.lt_of_lt_of_le (length_lt_of_mem hf) h
  | skipped => exact hwritten rfl

/-! ### Picking fields -/

/-- The field of a word that may be absent. -/
def wordFields (number : Nat) (word : Option UInt64) : List Field :=
  word.toList.map fun n => ⟨number, .word n⟩

/-- The field of eight bytes that may be absent. -/
def eightFields (number : Nat) (eight : Option UInt64) : List Field :=
  eight.toList.map fun n => ⟨number, .eight n⟩

/-- Fields of byte strings, all of one number. -/
def blockFields (number : Nat) (parts : List Bytes) : List Field :=
  parts.map fun bs => ⟨number, .bytes bs⟩

section Written

variable {number : Nat} (h : 0 < number ∧ number < 536870912)

include h

theorem isWritten_wordFields (word : Option UInt64) :
    ∀ f ∈ wordFields number word, f.IsWritten := by
  intro f hf
  obtain ⟨n, -, rfl⟩ := List.mem_map.1 hf
  exact ⟨h.1, h.2, nofun⟩

theorem isWritten_eightFields (eight : Option UInt64) :
    ∀ f ∈ eightFields number eight, f.IsWritten := by
  intro f hf
  obtain ⟨n, -, rfl⟩ := List.mem_map.1 hf
  exact ⟨h.1, h.2, nofun⟩

theorem isWritten_blockFields (parts : List Bytes) :
    ∀ f ∈ blockFields number parts, f.IsWritten := by
  intro f hf
  obtain ⟨bs, -, rfl⟩ := List.mem_map.1 hf
  exact ⟨h.1, h.2, nofun⟩

end Written

/-- The word of a field of a number. -/
def Field.word? (number : Nat) (f : Field) : Option UInt64 :=
  match f.payload with
  | .word n => if f.number = number then some n else none
  | _ => none

/-- The eight bytes of a field of a number. -/
def Field.eight? (number : Nat) (f : Field) : Option UInt64 :=
  match f.payload with
  | .eight n => if f.number = number then some n else none
  | _ => none

/-- The bytes of a field of a number. -/
def Field.block? (number : Nat) (f : Field) : Option Bytes :=
  match f.payload with
  | .bytes bs => if f.number = number then some bs else none
  | _ => none

/-- To keep the last thing found is to find all and to take the last. -/
theorem foldl_eq_getLast? {α : Type} {pick : Field → Option α}
    {step : Option α → Field → Option α} (hstep : ∀ found f, step found f = (pick f).or found)
    (fields : List Field) : fields.foldl step none = (fields.filterMap pick).getLast? := by
  have hfold (found : Option α) :
      fields.foldl step found = (fields.filterMap pick).getLast?.or found := by
    induction fields generalizing found with
    | nil => rfl
    | cons f fields ih =>
        rw [List.foldl_cons, ih, hstep, List.filterMap_cons]
        cases pick f with
        | none => rfl
        | some a =>
            rw [List.getLast?_cons]
            cases (fields.filterMap pick).getLast? <;> rfl
  rw [hfold, Option.or_none]

theorem lastWord?_eq (number : Nat) (fields : List Field) :
    lastWord? number fields = (fields.filterMap (Field.word? number)).getLast? := by
  refine foldl_eq_getLast? (fun found f => ?_) fields
  cases h : f.payload <;> simp only [Field.word?, h] <;> [split; skip; skip; skip] <;> rfl

theorem lastEight?_eq (number : Nat) (fields : List Field) :
    lastEight? number fields = (fields.filterMap (Field.eight? number)).getLast? := by
  refine foldl_eq_getLast? (fun found f => ?_) fields
  cases h : f.payload <;> simp only [Field.eight?, h] <;> [skip; split; skip; skip] <;> rfl

theorem blocks_eq (number : Nat) (fields : List Field) :
    blocks number fields = fields.filterMap (Field.block? number) := rfl

section Pick

@[simp] theorem getLast?_toList {α : Type} (a : Option α) : a.toList.getLast? = a := by
  cases a <;> rfl

variable (m n : Nat)

@[simp] theorem word?_wordFields (word : Option UInt64) :
    (wordFields n word).filterMap (Field.word? m) = if n = m then word.toList else [] := by
  cases word <;> by_cases h : n = m <;> simp [wordFields, Field.word?, h]

@[simp] theorem word?_eightFields (eight : Option UInt64) :
    (eightFields n eight).filterMap (Field.word? m) = [] := by
  simp [eightFields, Field.word?]

@[simp] theorem word?_blockFields (parts : List Bytes) :
    (blockFields n parts).filterMap (Field.word? m) = [] := by
  simp [blockFields, Field.word?]

@[simp] theorem eight?_wordFields (word : Option UInt64) :
    (wordFields n word).filterMap (Field.eight? m) = [] := by
  simp [wordFields, Field.eight?]

@[simp] theorem eight?_eightFields (eight : Option UInt64) :
    (eightFields n eight).filterMap (Field.eight? m) = if n = m then eight.toList else [] := by
  cases eight <;> by_cases h : n = m <;> simp [eightFields, Field.eight?, h]

@[simp] theorem eight?_blockFields (parts : List Bytes) :
    (blockFields n parts).filterMap (Field.eight? m) = [] := by
  simp [blockFields, Field.eight?]

@[simp] theorem block?_wordFields (word : Option UInt64) :
    (wordFields n word).filterMap (Field.block? m) = [] := by
  simp [wordFields, Field.block?]

@[simp] theorem block?_eightFields (eight : Option UInt64) :
    (eightFields n eight).filterMap (Field.block? m) = [] := by
  simp [eightFields, Field.block?]

@[simp] theorem block?_blockFields (parts : List Bytes) :
    (blockFields n parts).filterMap (Field.block? m) = if n = m then parts else [] := by
  by_cases h : n = m
  · have hcomp : (Field.block? m ∘ fun bs => ⟨n, .bytes bs⟩) = some := by
      funext bs
      simp [Field.block?, h]
    rw [blockFields, List.filterMap_map, hcomp, List.filterMap_some, if_pos h]
  · simp [blockFields, Field.block?, h]

end Pick

end QueryDriver.Wire
