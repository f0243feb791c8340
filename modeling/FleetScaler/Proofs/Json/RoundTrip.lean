import FleetScaler.Json.Printer
import FleetScaler.Json.Reader
import FleetScaler.Proofs.Json.Quoted
import FleetScaler.Proofs.Json.Values

/-!
# Printed values are read back

The reader turns the text of a value into the value again, whatever follows the text: no number
may go on there, and of nested values something always follows that ends them. Only the form of a
number changes. One from signed data that has no minus sign comes back as unsigned, which is what
`reread` says; and a number that is not whole is never printed the way it was read, so `IsWhole`
leaves those out.

The rules of the reader come first, one for each way in which a value, a list of items or a list of
fields can go on. Fuel counts down with the text: two units for each character are enough.
-/

namespace FleetScaler.Json

/-! ## Numbers -/

/-- No number goes on at the front of the text. -/
def EndsNumber (rest : List Char) : Prop :=
  ∀ c ∈ rest.head?, isDigit c = false ∧ c ≠ '.' ∧ c ≠ 'e' ∧ c ≠ 'E'

theorem endsNumber_lineBreak (level : Nat) (rest : List Char) :
    EndsNumber (lineBreak level ++ rest) := by
  simp [EndsNumber, lineBreak, isDigit]

theorem endsNumber_comma (rest : List Char) : EndsNumber (',' :: rest) := by
  simp [EndsNumber, isDigit]

theorem isDigit_of_mem_toDigits {n : Nat} {c : Char} (h : c ∈ Nat.toDigits 10 n) :
    isDigit c = true := by
  have hd := Nat.isDigit_of_mem_toDigits (by decide) (by decide) h
  simpa [isDigit, Char.isDigit, Char.le_def] using hd

/-- A number starts with a digit, which is no zero unless the number is. -/
theorem toDigits_eq_cons (n : Nat) :
    ∃ c cs, Nat.toDigits 10 n = c :: cs ∧ isDigit c = true ∧ (0 < n → c ≠ '0') := by
  induction n using Nat.strongRecOn with
  | ind n ih =>
      by_cases h : n < 10
      · have hdigit : ∀ m < 10, isDigit m.digitChar = true ∧ (0 < m → m.digitChar ≠ '0') := by
          decide
        exact ⟨n.digitChar, [], Nat.toDigits_of_lt_base h, hdigit n h⟩
      · obtain ⟨c, cs, heq, hdigit, hc⟩ := ih (n / 10) (by omega)
        refine ⟨c, cs ++ [(n % 10).digitChar], ?_, hdigit, fun _ => hc (by omega)⟩
        rw [Nat.toDigits_of_base_le (by decide) (by omega), heq, List.cons_append]

theorem spanDigits_append {ds rest : List Char} (hd : ∀ c ∈ ds, isDigit c = true)
    (hr : EndsNumber rest) : spanDigits (ds ++ rest) = (ds, rest) := by
  rw [spanDigits, List.takeWhile_append_of_pos hd, List.dropWhile_append_of_pos hd]
  cases rest with
  | nil => simp
  | cons c cs => simp [(hr c rfl).1]

theorem wholePart_toDigits (n : Nat) {rest : List Char} (hr : EndsNumber rest) :
    wholePart (Nat.toDigits 10 n ++ rest) = some (Nat.toDigits 10 n, rest) := by
  rcases Nat.eq_zero_or_pos n with rfl | hn
  · rfl
  · obtain ⟨c, cs, heq, hdigit, hc⟩ := toDigits_eq_cons n
    have hspan := spanDigits_append (fun c h => isDigit_of_mem_toDigits (n := n) h) hr
    rw [heq, List.cons_append] at hspan ⊢
    rw [wholePart, if_pos hdigit, hspan]
    simpa using hc hn

theorem fraction_of_endsNumber {rest : List Char} (hr : EndsNumber rest) :
    fraction rest = some ([], rest) := by
  unfold fraction
  split
  · exact absurd rfl (hr _ rfl).2.1
  · rfl

theorem exponent?_of_endsNumber {rest : List Char} (hr : EndsNumber rest) :
    exponent? rest = some (none, rest) := by
  unfold exponent?
  split
  · exact absurd rfl (hr _ rfl).2.2.1
  · exact absurd rfl (hr _ rfl).2.2.2
  · rfl

theorem digitsValue_toDigits (n : Nat) : digitsValue 0 (Nat.toDigits 10 n) = n :=
  Nat.ofDigitChars_toDigits (by decide) (by decide)

theorem numberValue_unsigned {n : Nat} (h : n < 18446744073709551616) :
    numberValue false (Nat.toDigits 10 n) [] none = .ok (.unsigned n) := by
  have hlt : n < Nat.pow 2 64 := h
  simp [numberValue, digitsValue_toDigits, hlt]

theorem numberValue_signed {n : Nat} (h : n ≤ 9223372036854775808) :
    numberValue true (Nat.toDigits 10 n) [] none = .ok (.signed (-n)) := by
  have hle : n ≤ Nat.pow 2 63 := h
  simp [numberValue, digitsValue_toDigits, hle]

/-- A row of digits is read as one number. -/
theorem readMagnitude_toDigits {negative : Bool} {n : Nat} {v : Json} {rest : List Char}
    (hv : numberValue negative (Nat.toDigits 10 n) [] none = .ok v) (hr : EndsNumber rest) :
    readMagnitude negative (Nat.toDigits 10 n ++ rest) = .ok (v, rest) := by
  rw [readMagnitude, wholePart_toDigits n hr]
  simp only [fraction_of_endsNumber hr, exponent?_of_endsNumber hr, hv]

/-! ## What the reader does with a character -/

theorem skipBlank_of_not_blank {c : Char} {cs : List Char} (h : isBlank c = false) :
    skipBlank (c :: cs) = c :: cs := by
  simp [skipBlank, h]

theorem skipBlank_lineBreak (level : Nat) (rest : List Char) :
    skipBlank (lineBreak level ++ rest) = skipBlank rest := by
  have hblanks : ∀ n, skipBlank (List.replicate n ' ' ++ rest) = skipBlank rest := by
    intro n
    induction n with
    | zero => rfl
    | succ n ih => simpa [List.replicate_succ, skipBlank, isBlank] using ih
  simpa [lineBreak, skipBlank, isBlank] using hblanks (2 * level)

/-! ### Values by their first character -/

variable {fuel : Nat} {c : Char} {cs rest rest' : List Char}

/-- A number may start with the character. -/
def StartsNumber (c : Char) : Prop := isDigit c = true ∨ c = '-'

theorem StartsNumber.ne {d : Char} (h : StartsNumber c) (hdigit : isDigit d = false)
    (hminus : d ≠ '-') : c ≠ d := by
  rintro rfl
  rcases h with h | h
  · exact absurd (h.symm.trans hdigit) (by decide)
  · exact hminus h

theorem readNumber_of_digit (h : isDigit c = true) :
    readNumber (c :: cs) = readMagnitude false (c :: cs) := by
  have hc : c ≠ '-' := by
    rintro rfl
    exact absurd h (by decide)
  rw [readNumber]
  simpa using hc

/-- What starts like a number is read as one. -/
theorem readValue_number (h : StartsNumber c) :
    readValue (fuel + 1) (c :: cs) = readNumber (c :: cs) := by
  have ht : c ≠ 't' := h.ne (by decide) (by decide)
  have hf : c ≠ 'f' := h.ne (by decide) (by decide)
  have hn : c ≠ 'n' := h.ne (by decide) (by decide)
  have hquote : c ≠ '"' := h.ne (by decide) (by decide)
  have hbracket : c ≠ '[' := h.ne (by decide) (by decide)
  have hbrace : c ≠ '\x7b' := h.ne (by decide) (by decide)
  unfold readValue
  simp [readScalar, ht, hf, hn, hquote, hbracket, hbrace]

theorem readValue_text {s : String} (h : decode cs = some (s.toList, rest)) :
    readValue (fuel + 1) ('"' :: cs) = .ok (.text s, rest) := by
  unfold readValue
  simp [h]

theorem readValue_no_items (h : skipBlank cs = ']' :: rest) :
    readValue (fuel + 1) ('[' :: cs) = .ok (.array [], rest) := by
  unfold readValue
  simp [h]

theorem readValue_items {items : List Json} (h : skipBlank cs = c :: rest) (hc : c ≠ ']')
    (hi : readItems fuel (c :: rest) = .ok (items, rest')) :
    readValue (fuel + 1) ('[' :: cs) = .ok (.array items, rest') := by
  unfold readValue
  simp [h, hc, hi]

theorem readValue_no_fields (h : skipBlank cs = '\x7d' :: rest) :
    readValue (fuel + 1) ('\x7b' :: cs) = .ok (.object [], rest) := by
  unfold readValue
  simp [h]

theorem readValue_fields {fields : List (String × Json)} (h : skipBlank cs = c :: rest)
    (hc : c ≠ '\x7d') (hf : readFields fuel (c :: rest) = .ok (fields, rest')) :
    readValue (fuel + 1) ('\x7b' :: cs) = .ok (.object fields, rest') := by
  unfold readValue
  simp [h, hc, hf]

theorem readItems_last {item : Json} (hv : readValue fuel cs = .ok (item, rest))
    (h : skipBlank rest = ']' :: rest') : readItems (fuel + 1) cs = .ok ([item], rest') := by
  simp [readItems, hv, h]

theorem readItems_next {item : Json} {items : List Json} {cs' : List Char}
    (hv : readValue fuel cs = .ok (item, rest)) (h : skipBlank rest = ',' :: cs')
    (hi : readItems fuel (skipBlank cs') = .ok (items, rest')) :
    readItems (fuel + 1) cs = .ok (item :: items, rest') := by
  simp [readItems, hv, h, hi]

theorem readFields_last {key : String} {cs' cs'' : List Char} {v : Json}
    (hk : decode cs = some (key.toList, cs')) (hc : skipBlank cs' = ':' :: cs'')
    (hv : readValue fuel (skipBlank cs'') = .ok (v, rest)) (h : skipBlank rest = '\x7d' :: rest') :
    readFields (fuel + 1) ('"' :: cs) = .ok ([(key, v)], rest') := by
  simp [readFields, hk, hc, hv, h]

theorem readFields_next {key : String} {cs' cs'' next : List Char} {v : Json}
    {fields : List (String × Json)} (hk : decode cs = some (key.toList, cs'))
    (hc : skipBlank cs' = ':' :: cs'') (hv : readValue fuel (skipBlank cs'') = .ok (v, rest))
    (h : skipBlank rest = ',' :: next)
    (hf : readFields fuel (skipBlank next) = .ok (fields, rest')) :
    readFields (fuel + 1) ('"' :: cs) = .ok ((key, v) :: fields, rest') := by
  simp [readFields, hk, hc, hv, h, hf]

/-! ## Values are read as they were written -/

mutual

/-- The value as it is read once it has been written: a number from signed data is unsigned where
it has no sign. -/
def reread : Json → Json
  | .signed i => if i < 0 then .signed i else .unsigned i.natAbs
  | .array items => .array (rereadItems items)
  | .object fields => .object (rereadFields fields)
  | v => v

/-- The items as they are read. -/
def rereadItems : List Json → List Json
  | [] => []
  | v :: rest => reread v :: rereadItems rest

/-- The fields as they are read. -/
def rereadFields : List (String × Json) → List (String × Json)
  | [] => []
  | (key, v) :: rest => (key, reread v) :: rereadFields rest

end

/-- A number is whole, and fits the 64 bits in which it is held. -/
def IsWhole : Json → Prop
  | .decimal _ _ => False
  | v => v.Fits

theorem intChars_eq_cons (i : Int) :
    ∃ c cs, intChars i = c :: cs ∧ StartsNumber c := by
  unfold intChars
  split
  · exact ⟨'-', _, rfl, Or.inr rfl⟩
  · obtain ⟨c, cs, heq, hdigit, -⟩ := toDigits_eq_cons i.natAbs
    exact ⟨c, cs, heq, Or.inl hdigit⟩

/-- A written value starts with a character that is no blank and no mark, and closes nothing. -/
theorem write_eq_cons (level : Nat) (v : Json) :
    ∃ c cs, write level v = c :: cs ∧ isBlank c = false ∧ c ≠ ']' ∧ c ≠ '\uFEFF' := by
  have hnumber : ∀ c, StartsNumber c → isBlank c = false ∧ c ≠ ']' ∧ c ≠ '\uFEFF' := by
    intro c hc
    have hblank : c ≠ ' ' := hc.ne (by decide) (by decide)
    have htab : c ≠ '\t' := hc.ne (by decide) (by decide)
    have hfeed : c ≠ '\n' := hc.ne (by decide) (by decide)
    have hreturn : c ≠ '\r' := hc.ne (by decide) (by decide)
    exact ⟨by simp [isBlank, hblank, htab, hfeed, hreturn], hc.ne (by decide) (by decide),
      hc.ne (by decide) (by decide)⟩
  cases v with
  | null => exact ⟨'n', "ull".toList, rfl, by decide⟩
  | bool b =>
      cases b with
      | true => exact ⟨'t', "rue".toList, rfl, by decide⟩
      | false => exact ⟨'f', "alse".toList, rfl, by decide⟩
  | unsigned n =>
      obtain ⟨c, cs, heq, hdigit, -⟩ := toDigits_eq_cons n
      exact ⟨c, cs, heq, hnumber c (Or.inl hdigit)⟩
  | signed i =>
      obtain ⟨c, cs, heq, hc⟩ := intChars_eq_cons i
      exact ⟨c, cs, heq, hnumber c hc⟩
  | decimal significand exponent =>
      obtain ⟨c, cs, heq, hc⟩ := intChars_eq_cons significand
      refine ⟨c, cs ++ 'e' :: intChars exponent, ?_, hnumber c hc⟩
      rw [write, heq, List.cons_append]
  | text s => exact ⟨'"', _, rfl, by decide⟩
  | array items => cases items <;> exact ⟨'[', _, rfl, by decide⟩
  | object fields => cases fields <;> exact ⟨'\x7b', _, rfl, by decide⟩

theorem skipBlank_write (level : Nat) (v : Json) (rest : List Char) :
    skipBlank (write level v ++ rest) = write level v ++ rest := by
  obtain ⟨c, cs, heq, hblank, -⟩ := write_eq_cons level v
  rw [heq, List.cons_append, skipBlank_of_not_blank hblank]

theorem readNumber_intChars {i : Int} (hf : (Json.signed i).Fits) (hr : EndsNumber rest) :
    readNumber (intChars i ++ rest) = .ok (reread (.signed i), rest) := by
  obtain ⟨hlow, hhigh⟩ := hf
  by_cases hi : i < 0
  · have hv := numberValue_signed (n := i.natAbs) (by omega)
    have hneg : -(i.natAbs : Int) = i := by omega
    rw [hneg] at hv
    simp only [intChars, hi, if_true, reread]
    exact readMagnitude_toDigits hv hr
  · have hv := numberValue_unsigned (n := i.natAbs) (by omega)
    obtain ⟨c, cs, heq, hdigit, -⟩ := toDigits_eq_cons i.natAbs
    have hm := readMagnitude_toDigits hv hr
    simp only [intChars, hi, if_false, reread]
    rw [heq, List.cons_append] at hm ⊢
    rw [readNumber_of_digit hdigit, hm]

theorem length_write_pos (level : Nat) (v : Json) : 0 < (write level v).length := by
  obtain ⟨c, cs, heq, -⟩ := write_eq_cons level v
  simp [heq]

theorem length_writeItems_pos (level : Nat) (items : List Json) :
    0 < (writeItems level items).length := by
  cases items <;> simp [writeItems]

theorem length_writeFields_pos (level : Nat) (fields : List (String × Json)) :
    0 < (writeFields level fields).length := by
  cases fields <;> simp [writeFields]

theorem quote_append (letters : Letters) (s : String) (rest : List Char) :
    quote letters s ++ rest = '"' :: (encode letters s.toList ++ '"' :: rest) := by
  simp [quote]

theorem decode_document (s : String) (rest : List Char) :
    decode (encode Letters.document s.toList ++ '"' :: rest) = some (s.toList, rest) :=
  Letters.readable_document.decode_encode s.toList rest

theorem skipBlank_break (level : Nat) {c : Char} (h : isBlank c = false) (rest : List Char) :
    skipBlank (lineBreak level ++ c :: rest) = c :: rest := by
  rw [skipBlank_lineBreak, skipBlank_of_not_blank h]

mutual

theorem readValue_write (level fuel : Nat) (v : Json) (rest : List Char) (hw : v.Every IsWhole)
    (hr : EndsNumber rest) (hfuel : 2 * (write level v).length ≤ fuel + 1) :
    readValue (fuel + 1) (write level v ++ rest) = .ok (reread v, rest) := by
  cases v with
  | null => rfl
  | bool b => cases b <;> rfl
  | unsigned n =>
      obtain ⟨c, cs, heq, hdigit, -⟩ := toDigits_eq_cons n
      have hm := readMagnitude_toDigits (numberValue_unsigned hw.self) hr
      simp only [write, reread]
      rw [heq, List.cons_append] at hm ⊢
      rw [readValue_number (Or.inl hdigit), readNumber_of_digit hdigit, hm]
  | signed i =>
      obtain ⟨c, cs, heq, hc⟩ := intChars_eq_cons i
      have hn := readNumber_intChars hw.self hr
      simp only [write]
      rw [heq, List.cons_append] at hn ⊢
      rw [readValue_number hc, hn]
  | decimal significand exponent => exact absurd hw.self (by simp [IsWhole])
  | text s =>
      simp only [write, quote_append, reread]
      exact readValue_text (decode_document s rest)
  | array items =>
      cases items with
      | nil => exact readValue_no_items rfl
      | cons item items =>
          obtain ⟨-, hitem, hitems⟩ := hw
          simp only [write, List.length_cons, List.length_append] at hfuel
          have hread := readItems_write level fuel item items rest hitem hitems (by omega)
          obtain ⟨c, cs, heq, hblank, hc, -⟩ := write_eq_cons (level + 1) item
          simp only [write, List.append_assoc, List.cons_append]
          rw [heq, List.cons_append] at hread ⊢
          exact readValue_items (skipBlank_break _ hblank _) hc hread
  | object fields =>
      cases fields with
      | nil => exact readValue_no_fields rfl
      | cons field fields =>
          obtain ⟨key, value⟩ := field
          obtain ⟨-, hvalue, hfields⟩ := hw
          simp only [write, List.length_cons, List.length_append] at hfuel
          have hread := readFields_write level fuel key value fields rest hvalue hfields (by omega)
          simp only [write, List.append_assoc, List.cons_append]
          rw [quote_append] at hread ⊢
          exact readValue_fields (skipBlank_break _ (by decide) _) (by decide) hread

theorem readItems_write (level fuel : Nat) (item : Json) (items : List Json) (rest : List Char)
    (hw : item.Every IsWhole) (hws : EveryItem IsWhole items)
    (hfuel : 2 * ((write (level + 1) item).length + (writeItems level items).length) ≤ fuel) :
    readItems fuel (write (level + 1) item ++ (writeItems level items ++ rest)) =
      .ok (reread item :: rereadItems items, rest) := by
  obtain ⟨fuel, rfl⟩ : ∃ n, fuel = n + 2 := by
    have hone := length_write_pos (level + 1) item
    have hmore := length_writeItems_pos level items
    exact ⟨fuel - 2, by omega⟩
  have hvalue : ∀ tail, EndsNumber tail →
      readValue (fuel + 1) (write (level + 1) item ++ tail) = .ok (reread item, tail) :=
    fun tail ht => readValue_write (level + 1) fuel item tail hw ht (by
      have hmore := length_writeItems_pos level items
      omega)
  cases items with
  | nil =>
      simp only [writeItems, List.append_assoc]
      exact readItems_last (hvalue _ (endsNumber_lineBreak _ _)) (skipBlank_break _ (by decide) _)
  | cons next items =>
      simp only [writeItems, List.append_assoc, List.cons_append]
      simp only [writeItems, List.length_cons, List.length_append] at hfuel
      refine readItems_next (hvalue _ (endsNumber_comma _)) (skipBlank_of_not_blank (by decide)) ?_
      rw [skipBlank_lineBreak, skipBlank_write]
      exact readItems_write level (fuel + 1) next items rest hws.1 hws.2 (by omega)

theorem readFields_write (level fuel : Nat) (key : String) (value : Json)
    (fields : List (String × Json)) (rest : List Char)
    (hw : value.Every IsWhole) (hws : EveryField IsWhole fields)
    (hfuel : 2 * ((write (level + 1) value).length + (writeFields level fields).length) ≤ fuel) :
    readFields fuel (quote Letters.document key ++ ':' :: ' ' ::
      (write (level + 1) value ++ (writeFields level fields ++ rest))) =
      .ok ((key, reread value) :: rereadFields fields, rest) := by
  obtain ⟨fuel, rfl⟩ : ∃ n, fuel = n + 2 := by
    have hone := length_write_pos (level + 1) value
    have hmore := length_writeFields_pos level fields
    exact ⟨fuel - 2, by omega⟩
  have hvalue : ∀ tail, EndsNumber tail →
      readValue (fuel + 1) (skipBlank (' ' :: (write (level + 1) value ++ tail))) =
        .ok (reread value, tail) := by
    intro tail ht
    have hmore := length_writeFields_pos level fields
    have hblank : skipBlank (' ' :: (write (level + 1) value ++ tail)) =
        write (level + 1) value ++ tail := skipBlank_write (level + 1) value tail
    rw [hblank]
    exact readValue_write (level + 1) fuel value tail hw ht (by omega)
  have hkey := decode_document key
  rw [quote_append]
  cases fields with
  | nil =>
      simp only [writeFields, List.append_assoc]
      exact readFields_last (hkey _) (skipBlank_of_not_blank (by decide))
        (hvalue _ (endsNumber_lineBreak _ _)) (skipBlank_break _ (by decide) _)
  | cons field fields =>
      obtain ⟨next, value'⟩ := field
      simp only [writeFields, List.append_assoc, List.cons_append]
      simp only [writeFields, List.length_cons, List.length_append] at hfuel
      refine readFields_next (hkey _) (skipBlank_of_not_blank (by decide))
        (hvalue _ (endsNumber_comma _)) (skipBlank_of_not_blank (by decide)) ?_
      rw [quote_append, skipBlank_break _ (by decide), ← quote_append]
      exact readFields_write level (fuel + 1) next value' fields rest hws.1 hws.2 (by omega)

end

/-- **A printed value is read back**, with a line break behind it. -/
theorem parse_print {v : Json} (hw : v.Every IsWhole) : parse (v.print ++ "\n") = .ok v.reread := by
  have htext : (v.print ++ "\n").toList = write 0 v ++ ['\n'] := by
    simp [print]
  obtain ⟨c, cs, heq, -, -, hmark⟩ := write_eq_cons 0 v
  have hplain : withoutMark (write 0 v ++ ['\n']) = write 0 v ++ ['\n'] := by
    rw [heq, List.cons_append, withoutMark]
    simpa using hmark
  have hread := readValue_write 0 (2 * (write 0 v ++ ['\n']).length + 1) v ['\n'] hw
    (endsNumber_lineBreak 0 []) (by rw [List.length_append]; omega)
  rw [parse, readFirst, htext, hplain, skipBlank_write, fuelFor, hread]
  rfl

end FleetScaler.Json
