import QueryDriver.Proofs.Wire.Fields

/-!
# Messages are read as they were written

Every message is the bytes of a list of fields, and the fields of a message say all there is
to know of it. So a message is read back from its bytes, with the fields that are set and the
order of everything in it, as long as its bytes are no more than a reader takes and the reader
goes down far enough. A message nests less deeply than it has bytes, so there is always a
reader that does.
-/

namespace QueryDriver.Wire

/-! ### Texts -/

theorem toList_loop (bytes : ByteArray) (i : Nat) (found : List UInt8) :
    ByteArray.toList.loop bytes i found = found.reverse ++ bytes.data.toList.drop i := by
  by_cases h : i < bytes.size
  · have hdrop : bytes.data.toList.drop i = bytes.get! i :: bytes.data.toList.drop (i + 1) := by
      have hi : i < bytes.data.toList.length := by simpa using h
      rw [List.drop_eq_getElem_cons hi]
      simp [ByteArray.get!, h]
    rw [ByteArray.toList.loop, if_pos h, toList_loop, hdrop]
    simp
  · have hdrop : bytes.data.toList.drop i = [] := by
      rw [List.drop_eq_nil_iff]
      simpa using h
    rw [ByteArray.toList.loop, if_neg h, hdrop, List.append_nil]
termination_by bytes.size - i

/-- A text is read back from its bytes. -/
theorem textOfBytes?_textBytes (s : String) : textOfBytes? (textBytes s) = some s := by
  have hbytes : textBytes s = s.toUTF8.data.toList := by
    simp [textBytes, ByteArray.toList, toList_loop]
  have hvalid : (⟨(textBytes s).toArray⟩ : ByteArray) = s.toUTF8 := by
    rw [hbytes]
  rw [textOfBytes?, hvalid, String.fromUTF8?, String.toUTF8_eq_toByteArray,
    dif_pos s.isValidUTF8]
  rfl

/-! ### Parts of messages -/

variable {α : Type}

theorem int32Field_eq (number : Nat) (n : Option Int32) :
    int32Field number n = encodeFields (wordFields number (n.map wordOfInt32)) := by
  cases n <;> simp [int32Field, Wire.optional, wordFields, Field.encode]

theorem int64Field_eq (number : Nat) (n : Option Int64) :
    int64Field number n = encodeFields (wordFields number (n.map Int64.toUInt64)) := by
  cases n <;> simp [int64Field, Wire.optional, wordFields, Field.encode]

/-- A truth value as a word. -/
def wordOfBool (b : Bool) : UInt64 := if b then 1 else 0

theorem boolField_eq (number : Nat) (b : Option Bool) :
    boolField number b = encodeFields (wordFields number (b.map wordOfBool)) := by
  cases b <;> simp [boolField, Wire.optional, wordFields, Field.encode, wordOfBool]

theorem doubleField_eq (number : Nat) (x : Option Double) :
    Wire.optional (doubleField number) x =
      encodeFields (eightFields number (x.map Double.bits)) := by
  cases x <;> simp [Wire.optional, eightFields, Field.encode]

theorem messageField_eq (number : Nat) (encode : α → Bytes) (a : Option α) :
    Wire.optional (fun a => bytesField number (encode a)) a =
      encodeFields (blockFields number (a.map encode).toList) := by
  cases a <;> simp [Wire.optional, blockFields, Field.encode]

theorem textField_eq (number : Nat) (s : Option String) :
    textField number s = encodeFields (blockFields number (s.map textBytes).toList) :=
  messageField_eq number textBytes s

theorem messageFields_eq (number : Nat) (encode : α → Bytes) (as : List α) :
    as.flatMap (fun a => bytesField number (encode a)) =
      encodeFields (blockFields number (as.map encode)) := by
  simp [encodeFields, blockFields, List.flatMap_map, Field.encode]

/-- The fields of a key with its value. -/
def pairFields (encode : α → Bytes) (pair : Option String × Option α) : List Field :=
  blockFields 1 (pair.1.map textBytes).toList ++ blockFields 2 (pair.2.map encode).toList

theorem int32Of_word {n : Option Int32} {number : Nat} {fields : List Field}
    (h : lastWord? number fields = n.map wordOfInt32) : int32Of number fields = n := by
  rw [int32Of, h]
  cases n <;> simp [wordOfInt32]

theorem int64Of_word {n : Option Int64} {number : Nat} {fields : List Field}
    (h : lastWord? number fields = n.map Int64.toUInt64) : int64Of number fields = n := by
  rw [int64Of, h]
  cases n <;> simp

theorem boolOf_word {b : Option Bool} {number : Nat} {fields : List Field}
    (h : lastWord? number fields = b.map wordOfBool) : boolOf number fields = b := by
  rw [boolOf, h]
  rcases b with _ | _ | _ <;> rfl

theorem doubleOf_eight {x : Option Double} {number : Nat} {fields : List Field}
    (h : lastEight? number fields = x.map Double.bits) : doubleOf number fields = x := by
  rw [doubleOf, h]
  cases x <;> rfl

theorem textOf_block {s : Option String} {number : Nat} {fields : List Field}
    (h : blocks number fields = (s.map textBytes).toList) : textOf number fields = some s := by
  rw [textOf, h]
  cases s <;> simp [textOfBytes?_textBytes]

theorem messageOf_block {a : Option α} {encode : α → Bytes} {decode : Bytes → Option α}
    {number : Nat} {fields : List Field} (h : blocks number fields = (a.map encode).toList)
    (hdecode : ∀ x, a = some x → decode (encode x) = some x) :
    messageOf decode number fields = some a := by
  rw [messageOf, h]
  cases a with
  | none => rfl
  | some x => simp [hdecode x rfl]

theorem mapM_map_encode {encode : α → Bytes} {decode : Bytes → Option α} {as : List α}
    (h : ∀ a ∈ as, decode (encode a) = some a) : (as.map encode).mapM decode = some as := by
  induction as with
  | nil => rfl
  | cons a as ih =>
      obtain ⟨ha, has⟩ := List.forall_mem_cons.1 h
      simp [ha, ih has]

theorem isWritten_pairFields (encode : α → Bytes) (pair : Option String × Option α) :
    ∀ f ∈ pairFields encode pair, f.IsWritten :=
  List.forall_mem_append.2
    ⟨isWritten_blockFields (by decide) _, isWritten_blockFields (by decide) _⟩

theorem length_lt_of_value (encode : α → Bytes) {pair : Option String × Option α} {x : α}
    (h : pair.2 = some x) : (encode x).length < (encodeFields (pairFields encode pair)).length := by
  have hmem : ⟨2, .bytes (encode x)⟩ ∈ pairFields encode pair := by
    simp [pairFields, blockFields, h]
  exact length_lt_of_mem hmem

theorem decodePair_encode {encode : α → Bytes} {decode : Bytes → Option α}
    {pair : Option String × Option α}
    (hlength : (encodeFields (pairFields encode pair)).length ≤ blockLimit)
    (hdecode : ∀ x, pair.2 = some x → decode (encode x) = some x) :
    decodePair decode (encodeFields (pairFields encode pair)) = some pair := by
  have hfields := readFields_encode (fits_of_length (isWritten_pairFields encode pair) hlength)
  have hkey : textOf 1 (pairFields encode pair) = some pair.1 :=
    textOf_block (by simp [blocks_eq, pairFields])
  have hvalue : messageOf decode 2 (pairFields encode pair) = some pair.2 :=
    messageOf_block (by simp [blocks_eq, pairFields]) hdecode
  simp [decodePair, hfields, hkey, hvalue]

/-! ### Datums -/

namespace Datum

/-- The fields of a datum. -/
def fields (d : Datum) : List Field :=
  wordFields 1 (d.tag.map wordOfInt32) ++ (wordFields 2 (d.flag.map wordOfBool) ++
    (eightFields 3 (d.number.map Double.bits) ++ (blockFields 4 (d.text.map textBytes).toList ++
      (blockFields 5 (d.items.map encode) ++
        blockFields 6 (d.entries.map fun e => encodeFields (pairFields encode e))))))

theorem encodeItems_eq (items : List Datum) :
    encodeItems items = encodeFields (blockFields 5 (items.map encode)) := by
  induction items with
  | nil => rfl
  | cons d items ih => simp [encodeItems, ih, blockFields, Field.encode]

theorem encodeValue_eq (value : Option Datum) :
    encodeValue value = encodeFields (blockFields 2 (value.map encode).toList) := by
  cases value <;> simp [encodeValue, blockFields, Field.encode]

theorem encodeEntries_eq (entries : List (Option String × Option Datum)) :
    encodeEntries entries =
      encodeFields (blockFields 6 (entries.map fun e => encodeFields (pairFields encode e))) := by
  induction entries with
  | nil => rfl
  | cons e entries ih =>
      simp [encodeEntries, ih, blockFields, Field.encode, pairFields, textField_eq,
        encodeValue_eq]

theorem encode_eq (d : Datum) : d.encode = encodeFields d.fields := by
  obtain ⟨tag, flag, number, text, items, entries⟩ := d
  simp [encode, fields, int32Field_eq, boolField_eq, doubleField_eq, textField_eq, encodeItems_eq,
    encodeEntries_eq]

theorem isWritten_fields (d : Datum) : ∀ f ∈ d.fields, f.IsWritten := by
  simp only [fields, List.forall_mem_append]
  exact ⟨isWritten_wordFields (by decide) _, isWritten_wordFields (by decide) _,
    isWritten_eightFields (by decide) _, isWritten_blockFields (by decide) _,
    isWritten_blockFields (by decide) _, isWritten_blockFields (by decide) _⟩

theorem blocks_items (d : Datum) : blocks 5 d.fields = d.items.map encode := by
  simp [blocks_eq, fields]

theorem blocks_entries (d : Datum) :
    blocks 6 d.fields = d.entries.map fun e => encodeFields (pairFields encode e) := by
  simp [blocks_eq, fields]

/-- A datum is read back by a reader that reads its items and its entries back. -/
theorem decodeWithin_succ {limit : Nat} {d : Datum} (hlength : d.encode.length ≤ blockLimit)
    (hitem : ∀ x ∈ d.items, decodeWithin limit x.encode = some x)
    (hentry : ∀ e ∈ d.entries, decodePair (decodeWithin limit)
      (encodeFields (pairFields encode e)) = some e) :
    decodeWithin (limit + 1) d.encode = some d := by
  rw [encode_eq] at hlength ⊢
  have hfields := readFields_encode (fits_of_length d.isWritten_fields hlength)
  have htag : int32Of 1 d.fields = d.tag := int32Of_word (by simp [lastWord?_eq, fields])
  have hflag : boolOf 2 d.fields = d.flag := boolOf_word (by simp [lastWord?_eq, fields])
  have hnumber : doubleOf 3 d.fields = d.number :=
    doubleOf_eight (by simp [lastEight?_eq, fields])
  have htext : textOf 4 d.fields = some d.text := textOf_block (by simp [blocks_eq, fields])
  simp only [decodeWithin, hfields, htag, hflag, hnumber, htext, blocks_items, blocks_entries,
    mapM_map_encode hitem, mapM_map_encode hentry, Option.bind_eq_bind, Option.bind_some]
  cases d
  rfl

/-- A datum is read back by a reader that goes down far enough. -/
theorem decodeWithin_encode {limit : Nat} {d : Datum} (hlimit : d.encode.length < limit)
    (hlength : d.encode.length ≤ blockLimit) : decodeWithin limit d.encode = some d := by
  induction limit generalizing d with
  | zero => omega
  | succ limit ih =>
      have hpart (number : Nat) {bs : Bytes} (h : bs ∈ blocks number d.fields) :
          bs.length < limit ∧ bs.length ≤ blockLimit := by
        have hlt := length_lt_of_mem_blocks h
        rw [← encode_eq] at hlt
        omega
      refine decodeWithin_succ hlength (fun x hx => ?_) (fun e he => ?_)
      · have hx' := hpart 5 (d.blocks_items ▸ List.mem_map_of_mem hx)
        exact ih hx'.1 hx'.2
      · have he' := hpart 6 (d.blocks_entries ▸ List.mem_map_of_mem he)
        refine decodePair_encode he'.2 fun x hx => ?_
        have hlt := length_lt_of_value encode hx
        exact ih (by omega) (by omega)

end Datum

/-! ### Terms -/

namespace Term

/-- The fields of a term. -/
def fields (t : Term) : List Field :=
  wordFields 1 (t.tag.map wordOfInt32) ++ (blockFields 2 (t.datum.map Datum.encode).toList ++
    (blockFields 3 (t.args.map encode) ++
      blockFields 4 (t.options.map fun o => encodeFields (pairFields encode o))))

theorem encodeArgs_eq (args : List Term) :
    encodeArgs args = encodeFields (blockFields 3 (args.map encode)) := by
  induction args with
  | nil => rfl
  | cons t args ih => simp [encodeArgs, ih, blockFields, Field.encode]

theorem encodeValue_eq (value : Option Term) :
    encodeValue value = encodeFields (blockFields 2 (value.map encode).toList) := by
  cases value <;> simp [encodeValue, blockFields, Field.encode]

theorem encodeOptions_eq (options : List (Option String × Option Term)) :
    encodeOptions options =
      encodeFields (blockFields 4 (options.map fun o => encodeFields (pairFields encode o))) := by
  induction options with
  | nil => rfl
  | cons o options ih =>
      simp [encodeOptions, ih, blockFields, Field.encode, pairFields, textField_eq,
        encodeValue_eq]

theorem encode_eq (t : Term) : t.encode = encodeFields t.fields := by
  obtain ⟨tag, datum, args, options⟩ := t
  simp [encode, fields, int32Field_eq, messageField_eq, encodeArgs_eq, encodeOptions_eq]

theorem isWritten_fields (t : Term) : ∀ f ∈ t.fields, f.IsWritten := by
  simp only [fields, List.forall_mem_append]
  exact ⟨isWritten_wordFields (by decide) _, isWritten_blockFields (by decide) _,
    isWritten_blockFields (by decide) _, isWritten_blockFields (by decide) _⟩

theorem blocks_datum (t : Term) : blocks 2 t.fields = (t.datum.map Datum.encode).toList := by
  simp [blocks_eq, fields]

theorem blocks_args (t : Term) : blocks 3 t.fields = t.args.map encode := by
  simp [blocks_eq, fields]

theorem blocks_options (t : Term) :
    blocks 4 t.fields = t.options.map fun o => encodeFields (pairFields encode o) := by
  simp [blocks_eq, fields]

/-- A term is read back by a reader that reads its parts back. -/
theorem decodeWithin_succ {limit : Nat} {t : Term} (hlength : t.encode.length ≤ blockLimit)
    (hdatum : ∀ d, t.datum = some d → Datum.decodeWithin (limit + 1) d.encode = some d)
    (harg : ∀ x ∈ t.args, decodeWithin limit x.encode = some x)
    (hoption : ∀ o ∈ t.options, decodePair (decodeWithin limit)
      (encodeFields (pairFields encode o)) = some o) :
    decodeWithin (limit + 1) t.encode = some t := by
  rw [encode_eq] at hlength ⊢
  have hfields := readFields_encode (fits_of_length t.isWritten_fields hlength)
  have htag : int32Of 1 t.fields = t.tag := int32Of_word (by simp [lastWord?_eq, fields])
  simp only [decodeWithin, hfields, htag, messageOf_block t.blocks_datum hdatum, blocks_args,
    blocks_options, mapM_map_encode harg, mapM_map_encode hoption, Option.bind_eq_bind,
    Option.bind_some]
  cases t
  rfl

/-- A term is read back by a reader that goes down far enough. -/
theorem decodeWithin_encode {limit : Nat} {t : Term} (hlimit : t.encode.length < limit)
    (hlength : t.encode.length ≤ blockLimit) : decodeWithin limit t.encode = some t := by
  induction limit generalizing t with
  | zero => omega
  | succ limit ih =>
      have hpart (number : Nat) {bs : Bytes} (h : bs ∈ blocks number t.fields) :
          bs.length < limit ∧ bs.length ≤ blockLimit := by
        have hlt := length_lt_of_mem_blocks h
        rw [← encode_eq] at hlt
        omega
      refine decodeWithin_succ hlength (fun d hd => ?_) (fun x hx => ?_) (fun o ho => ?_)
      · have hd' := hpart 2 (show d.encode ∈ _ by simp [blocks_datum, hd])
        exact Datum.decodeWithin_encode (by omega) hd'.2
      · have hx' := hpart 3 (t.blocks_args ▸ List.mem_map_of_mem hx)
        exact ih hx'.1 hx'.2
      · have ho' := hpart 4 (t.blocks_options ▸ List.mem_map_of_mem ho)
        refine decodePair_encode ho'.2 fun x hx => ?_
        have hlt := length_lt_of_value encode hx
        exact ih (by omega) (by omega)

end Term

/-! ### Queries -/

namespace Query

/-- The fields of a query. -/
def fields (q : Query) : List Field :=
  wordFields 1 (q.tag.map wordOfInt32) ++ (blockFields 2 (q.term.map Term.encode).toList ++
    (wordFields 3 (q.token.map Int64.toUInt64) ++ (wordFields 4 (q.noreply.map wordOfBool) ++
      blockFields 6 (q.options.map fun o => encodeFields (pairFields Term.encode o)))))

theorem encodeOption_eq (option : Option String × Option Term) :
    encodeOption option = encodeFields (pairFields Term.encode option) := by
  simp [encodeOption, pairFields, textField_eq, messageField_eq]

theorem encode_eq (q : Query) : q.encode = encodeFields q.fields := by
  simp [encode, fields, int32Field_eq, int64Field_eq, boolField_eq, messageField_eq,
    messageFields_eq, encodeOption_eq]

theorem isWritten_fields (q : Query) : ∀ f ∈ q.fields, f.IsWritten := by
  simp only [fields, List.forall_mem_append]
  exact ⟨isWritten_wordFields (by decide) _, isWritten_blockFields (by decide) _,
    isWritten_wordFields (by decide) _, isWritten_wordFields (by decide) _,
    isWritten_blockFields (by decide) _⟩

theorem blocks_term (q : Query) : blocks 2 q.fields = (q.term.map Term.encode).toList := by
  simp [blocks_eq, fields]

theorem blocks_options (q : Query) :
    blocks 6 q.fields = q.options.map fun o => encodeFields (pairFields Term.encode o) := by
  simp [blocks_eq, fields]

/-- A query is read back by a reader that goes down far enough. -/
theorem decodeWithin_encode {limit : Nat} {q : Query} (hlimit : q.encode.length ≤ limit)
    (hlength : q.encode.length ≤ blockLimit) : decodeWithin limit q.encode = some q := by
  rw [encode_eq] at hlimit hlength ⊢
  have hterm : ∀ t, q.term = some t → Term.decodeWithin limit t.encode = some t := by
    intro t ht
    have hmem : t.encode ∈ blocks 2 q.fields := by simp [blocks_term, ht]
    have hlt := length_lt_of_mem_blocks hmem
    exact Term.decodeWithin_encode (by omega) (by omega)
  have hoption : ∀ o ∈ q.options, decodePair (Term.decodeWithin limit)
      (encodeFields (pairFields Term.encode o)) = some o := by
    intro o ho
    have hmem := List.mem_map_of_mem (f := fun o => encodeFields (pairFields Term.encode o)) ho
    rw [← q.blocks_options] at hmem
    have hlt := length_lt_of_mem_blocks hmem
    refine decodePair_encode (by omega) fun t ht => ?_
    have hlt' := length_lt_of_value Term.encode ht
    exact Term.decodeWithin_encode (by omega) (by omega)
  have hfields := readFields_encode (fits_of_length q.isWritten_fields hlength)
  have htag : int32Of 1 q.fields = q.tag := int32Of_word (by simp [lastWord?_eq, fields])
  have htoken : int64Of 3 q.fields = q.token := int64Of_word (by simp [lastWord?_eq, fields])
  have hnoreply : boolOf 4 q.fields = q.noreply := boolOf_word (by simp [lastWord?_eq, fields])
  simp only [decodeWithin, hfields, htag, htoken, hnoreply, messageOf_block q.blocks_term hterm,
    blocks_options, mapM_map_encode hoption, Option.bind_eq_bind, Option.bind_some]
  rfl

/-- The bytes of a query tell the query. -/
theorem encode_inj {q q' : Query} (hlength : q.encode.length ≤ blockLimit)
    (h : q.encode = q'.encode) : q = q' := by
  have hq := decodeWithin_encode (q := q) (Nat.le_refl _) hlength
  have hq' := decodeWithin_encode (q := q') (Nat.le_refl _) (h ▸ hlength)
  rw [← h, hq] at hq'
  exact Option.some.inj hq'

end Query

end QueryDriver.Wire
