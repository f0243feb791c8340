import FleetScaler.Json.Quoted

/-!
# Quoted text is read as it was

Writing a text between quotes and reading it gives the text, whichever characters the writer has a
letter for, as long as the reader knows the letters and the quotation mark and the backslash have
one. What does not need an escape is read as it stands, and a control character without a letter
from its four hexadecimal digits.
-/

namespace FleetScaler.Json

/-- A reader knows the letters, and whatever would end the text or begin an escape has one. -/
structure Letters.Readable (letters : Letters) : Prop where
  known : ∀ c l, letters c = some l → unletter? l = some c
  quotationMark : letters '"' ≠ none
  backslash : letters '\\' ≠ none

theorem Letters.readable_document : Letters.document.Readable where
  known c l h := by
    unfold Letters.document at h
    split at h <;> first | (obtain rfl := Option.some.inj h; rfl) | exact absurd h (by simp)
  quotationMark := by decide
  backslash := by decide

variable {c l : Char} {rest : List Char}

/-- Two digits are enough for a control character. -/
theorem hexUnit?_hexDigit : ∀ n < 32,
    hexUnit? '0' '0' (hexDigit (n / 16)) (hexDigit (n % 16)) = some n := by
  decide

/-! ## One character -/

theorem decode_letter (h : unletter? l = some c) :
    decode ('\\' :: l :: rest) = (decode rest).map fun (s, r) => (c :: s, r) := by
  have hu : l ≠ 'u' := by
    rintro rfl
    simp [unletter?] at h
  rw [decode, h]
  intros
  simp_all

theorem decode_control (h : c.toNat < 32) :
    decode ('\\' :: 'u' :: '0' :: '0' :: hexDigit (c.toNat / 16) :: hexDigit (c.toNat % 16) :: rest)
      = (decode rest).map fun (s, r) => (c :: s, r) := by
  have hhigh : isHighUnit c.toNat = false := by
    simp [isHighUnit]
    omega
  have hlow : isLowUnit c.toNat = false := by
    simp [isLowUnit]
    omega
  rw [decode, hexUnit?_hexDigit _ h]
  simp only [hhigh, hlow, Bool.false_eq_true, if_false, Char.ofNat_toNat]

theorem decode_plain (hq : c ≠ '"') (hb : c ≠ '\\') (h : 32 ≤ c.toNat) :
    decode (c :: rest) = (decode rest).map fun (s, r) => (c :: s, r) := by
  have hn : ¬ (c.toNat < 32 ∨ c = '\\') := by
    rintro (hlt | rfl)
    · omega
    · exact hb rfl
  rw [decode, if_neg hn]
  · exact hq
  all_goals
    intros
    simp_all

/-- A character is read as it was, however it is written. -/
theorem Letters.Readable.decode_encodeChar {letters : Letters} (hl : letters.Readable)
    (c : Char) (rest : List Char) :
    decode (encodeChar letters c ++ rest) = (decode rest).map fun (s, r) => (c :: s, r) := by
  unfold encodeChar
  cases h : letters c with
  | some l => exact decode_letter (hl.known c l h)
  | none =>
      by_cases hc : c.toNat < 0x20
      · simp only [hc, if_true]
        exact decode_control hc
      · simp only [hc, if_false]
        refine decode_plain ?_ ?_ (by omega)
        · rintro rfl
          exact hl.quotationMark h
        · rintro rfl
          exact hl.backslash h

/-- **Quoted text is read as it was**, up to the closing quote. -/
theorem Letters.Readable.decode_encode {letters : Letters} (hl : letters.Readable)
    (s rest : List Char) : decode (encode letters s ++ '"' :: rest) = some (s, rest) := by
  induction s with
  | nil => rfl
  | cons c s ih =>
      rw [encode, List.flatMap_cons, List.append_assoc, hl.decode_encodeChar]
      exact congrArg (Option.map fun (s, r) => (c :: s, r)) ih

end FleetScaler.Json
