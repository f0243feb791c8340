import FleetScaler.Json.Reader
import Mathlib.Algebra.Ring.Nat
import Mathlib.Data.List.TakeWhile
import Mathlib.Tactic.SplitIfs

/-!
# Numbers that are too large

A reader has two complaints, and one of them needs a reason in the text: it reports a number as too
large only where the text holds one, written out in digits, whose value lies beyond the range of a
double-precision float (`holdsTooLarge_of_readFirst`). Nothing else in a text leads to that report.

Every reader hands on what is behind its value, so a number that a later reader finds is in the text
of the first one. This is what `Within` says of an answer, and each reader keeps it.
-/

namespace FleetScaler.Json

/-! ## Numbers as they are written -/

/-- Digits, at least one. -/
structure Digits (ds : List Char) : Prop where
  nonempty : ds ≠ []
  digits : ∀ c ∈ ds, isDigit c = true

/-- A text is the fractional part of a number, with these digits. -/
inductive IsFraction : List Char → List Char → Prop where
  | absent : IsFraction [] []
  | point {ds : List Char} (h : Digits ds) : IsFraction ('.' :: ds) ds

/-- A text is a whole number that may have a sign. -/
inductive IsSigned : List Char → Int → Prop where
  | plain {ds : List Char} (h : Digits ds) : IsSigned ds (digitsValue 0 ds)
  | plus {ds : List Char} (h : Digits ds) : IsSigned ('+' :: ds) (digitsValue 0 ds)
  | minus {ds : List Char} (h : Digits ds) : IsSigned ('-' :: ds) (-digitsValue 0 ds)

/-- A text is the exponent of a number. -/
inductive IsExponent : List Char → Int → Prop where
  | absent : IsExponent [] 0
  | mark {m : Char} {cs : List Char} {i : Int} (hm : m = 'e' ∨ m = 'E') (h : IsSigned cs i) :
      IsExponent (m :: cs) i

/-- A text is the number `significand * 10 ^ exponent`, written without a sign. -/
inductive IsNumeral : List Char → Nat → Int → Prop where
  | parts {whole fraction digits exponent : List Char} {i : Int} (hw : Digits whole)
      (hf : IsFraction fraction digits) (he : IsExponent exponent i) :
      IsNumeral (whole ++ fraction ++ exponent) (digitsValue 0 (whole ++ digits))
        (i - digits.length)

/-- `significand * 10 ^ exponent` lies beyond the range of a double. -/
def TooLarge (significand : Nat) (exponent : Int) : Prop :=
  doubleLimit * 10 ^ (-exponent).toNat ≤ significand * 10 ^ exponent.toNat

/-- A text holds a number beyond the range of a double. -/
def HoldsTooLarge (cs : List Char) : Prop :=
  ∃ before numeral after significand exponent,
    cs = before ++ numeral ++ after ∧ IsNumeral numeral significand exponent ∧
      TooLarge significand exponent

theorem HoldsTooLarge.mono {cs ds : List Char} (h : HoldsTooLarge cs) (hs : cs <:+ ds) :
    HoldsTooLarge ds := by
  obtain ⟨before, numeral, after, significand, exponent, rfl, hn, hl⟩ := h
  obtain ⟨front, rfl⟩ := hs
  exact ⟨front ++ before, numeral, after, significand, exponent, by simp, hn, hl⟩

/-! ## The range of a double -/

theorem lt_doubleLimit : 10 ^ 308 < doubleLimit := by decide +kernel

theorem doubleLimit_lt : doubleLimit < 10 ^ 309 := by decide +kernel

theorem pow_le_of_length {n : Nat} (hn : 0 < n) :
    10 ^ ((Nat.toDigits 10 n).length - 1) ≤ n := by
  by_cases hone : (Nat.toDigits 10 n).length - 1 = 0
  · rw [hone]
    exact hn
  · have hiff := Nat.length_toDigits_le_iff (b := 10) (n := n) (by decide)
      (Nat.pos_of_ne_zero hone)
    by_contra hlt
    have := hiff.mpr (Nat.not_le.mp hlt)
    omega

theorem lt_pow_length (n : Nat) : n < 10 ^ (Nat.toDigits 10 n).length :=
  (Nat.length_toDigits_le_iff (by decide) Nat.length_toDigits_pos).mp (Nat.le_refl _)

theorem scaled_lt {a n : Nat} (h : 10 ^ a < doubleLimit) : 10 ^ (a + n) < doubleLimit * 10 ^ n := by
  rw [Nat.pow_add]
  exact Nat.mul_lt_mul_of_pos_right h (Nat.pow_pos (by decide))

theorem lt_scaled {a n : Nat} (h : doubleLimit < 10 ^ a) : doubleLimit * 10 ^ n < 10 ^ (a + n) := by
  rw [Nat.pow_add]
  exact Nat.mul_lt_mul_of_pos_right h (Nat.pow_pos (by decide))

/-- **The count of digits settles all but one order of magnitude rightly.** -/
theorem isFinite_iff (significand : Nat) (exponent : Int) :
    isFinite significand exponent = true ↔ ¬ TooLarge significand exponent := by
  rw [TooLarge, Nat.not_le, isFinite]
  by_cases hzero : significand = 0
  · have hlimit : 0 < doubleLimit := Nat.zero_lt_of_lt lt_doubleLimit
    simp only [hzero, if_true, Nat.zero_mul, true_iff]
    exact Nat.mul_pos hlimit (Nat.pow_pos (by decide))
  rw [if_neg hzero]
  have hlow := pow_le_of_length (Nat.pos_of_ne_zero hzero)
  have hhigh := lt_pow_length significand
  have hpos : 0 < (Nat.toDigits 10 significand).length := Nat.length_toDigits_pos
  generalize (Nat.toDigits 10 significand).length = digits at hlow hhigh hpos
  by_cases hsmall : (digits : Int) + exponent ≤ 308
  · -- at most 308 places before the point
    simp only [hsmall, if_true, true_iff]
    calc significand * 10 ^ exponent.toNat
        < 10 ^ digits * 10 ^ exponent.toNat :=
          Nat.mul_lt_mul_of_pos_right hhigh (Nat.pow_pos (by decide))
      _ = 10 ^ (digits + exponent.toNat) := (Nat.pow_add ..).symm
      _ ≤ 10 ^ (308 + (-exponent).toNat) := Nat.pow_le_pow_right (by decide) (by omega)
      _ < doubleLimit * 10 ^ (-exponent).toNat := scaled_lt lt_doubleLimit
  simp only [hsmall, if_false]
  by_cases hlarge : 309 < (digits : Int) + exponent
  · -- at least 310 of them, the first not a zero
    simp only [hlarge, if_true, Bool.false_eq_true, false_iff, Nat.not_lt]
    calc doubleLimit * 10 ^ (-exponent).toNat
        ≤ 10 ^ (309 + (-exponent).toNat) := Nat.le_of_lt (lt_scaled doubleLimit_lt)
      _ ≤ 10 ^ (digits - 1 + exponent.toNat) := Nat.pow_le_pow_right (by decide) (by omega)
      _ = 10 ^ (digits - 1) * 10 ^ exponent.toNat := Nat.pow_add ..
      _ ≤ significand * 10 ^ exponent.toNat := Nat.mul_le_mul_right _ hlow
  · simp only [hlarge, if_false, decide_eq_true_eq]
    rfl

/-! ## Where the parts of a number end -/

variable {cs ds rest : List Char}

theorem spanDigits_eq (h : spanDigits cs = (ds, rest)) :
    cs = ds ++ rest ∧ ∀ c ∈ ds, isDigit c = true := by
  rw [spanDigits, Prod.mk.injEq] at h
  obtain ⟨rfl, rfl⟩ := h
  exact ⟨List.takeWhile_append_dropWhile.symm, fun c hc => List.mem_takeWhile_imp hc⟩

theorem wholePart_eq (h : wholePart cs = some (ds, rest)) : cs = ds ++ rest ∧ Digits ds := by
  unfold wholePart at h
  split at h
  · exact absurd h (by simp)
  · rename_i rest'
    rw [Option.some.injEq, Prod.mk.injEq] at h
    obtain ⟨rfl, rfl⟩ := h
    exact ⟨rfl, ⟨by simp, by simp [isDigit]⟩⟩
  · rename_i c rest' _
    split at h
    · rename_i hc
      obtain ⟨happend, hdigits⟩ := spanDigits_eq (Option.some.inj h)
      refine ⟨happend, ⟨fun hnil => ?_, hdigits⟩⟩
      have hspan := congrArg Prod.fst (Option.some.inj h)
      simp [spanDigits, hc, hnil] at hspan
    · exact absurd h (by simp)

theorem fraction_eq (h : fraction cs = some (ds, rest)) :
    ∃ text, cs = text ++ rest ∧ IsFraction text ds := by
  unfold fraction at h
  split at h
  · rename_i rest'
    split at h
    · exact absurd h (by simp)
    · rename_i ds' rest'' hne hspan
      rw [Option.some.injEq, Prod.mk.injEq] at h
      obtain ⟨rfl, rfl⟩ := h
      obtain ⟨rfl, hdigits⟩ := spanDigits_eq hspan
      exact ⟨'.' :: ds', rfl, .point ⟨hne, hdigits⟩⟩
  · rw [Option.some.injEq, Prod.mk.injEq] at h
    obtain ⟨rfl, rfl⟩ := h
    exact ⟨[], rfl, .absent⟩

theorem exponentDigits_eq {n : Nat} (h : exponentDigits cs = some (n, rest)) :
    ∃ ds, cs = ds ++ rest ∧ Digits ds ∧ n = digitsValue 0 ds := by
  unfold exponentDigits at h
  split at h
  · exact absurd h (by simp)
  · rename_i ds rest' hne hspan
    rw [Option.some.injEq, Prod.mk.injEq] at h
    obtain ⟨rfl, rfl⟩ := h
    obtain ⟨rfl, hdigits⟩ := spanDigits_eq hspan
    exact ⟨ds, rfl, ⟨hne, hdigits⟩, rfl⟩

theorem signedExponent_eq {i : Int} (h : signedExponent cs = some (i, rest)) :
    ∃ text, cs = text ++ rest ∧ IsSigned text i := by
  unfold signedExponent at h
  split at h
  all_goals
    rw [Option.map_eq_some_iff] at h
    obtain ⟨⟨n, rest'⟩, hdigits, heq⟩ := h
    rw [Prod.mk.injEq] at heq
    obtain ⟨rfl, rfl⟩ := heq
    obtain ⟨ds, rfl, hds, rfl⟩ := exponentDigits_eq hdigits
  · exact ⟨'-' :: ds, rfl, .minus hds⟩
  · exact ⟨'+' :: ds, rfl, .plus hds⟩
  · exact ⟨ds, rfl, .plain hds⟩

theorem exponent?_eq {exp : Option Int} (h : exponent? cs = some (exp, rest)) :
    ∃ text, cs = text ++ rest ∧ IsExponent text (exp.getD 0) := by
  unfold exponent? at h
  split at h
  · rw [Option.map_eq_some_iff] at h
    obtain ⟨⟨i, rest'⟩, hsigned, heq⟩ := h
    rw [Prod.mk.injEq] at heq
    obtain ⟨rfl, rfl⟩ := heq
    obtain ⟨text, rfl, htext⟩ := signedExponent_eq hsigned
    exact ⟨'e' :: text, rfl, .mark (.inl rfl) htext⟩
  · rw [Option.map_eq_some_iff] at h
    obtain ⟨⟨i, rest'⟩, hsigned, heq⟩ := h
    rw [Prod.mk.injEq] at heq
    obtain ⟨rfl, rfl⟩ := heq
    obtain ⟨text, rfl, htext⟩ := signedExponent_eq hsigned
    exact ⟨'E' :: text, rfl, .mark (.inr rfl) htext⟩
  · rw [Option.some.injEq, Prod.mk.injEq] at h
    obtain ⟨rfl, rfl⟩ := h
    exact ⟨[], rfl, .absent⟩

/-- The value of a number is refused for one reason only. -/
theorem tooLarge_of_numberValue {negative : Bool} {whole frac : List Char} {exp : Option Int}
    {e : ReadError} (h : numberValue negative whole frac exp = .error e) :
    TooLarge (digitsValue 0 (whole ++ frac)) (exp.getD 0 - frac.length) := by
  by_contra hnot
  have hfinite := (isFinite_iff _ _).mpr hnot
  unfold numberValue at h
  cases frac with
  | nil =>
      cases exp with
      | none =>
          have hwhole : isFinite (digitsValue 0 (whole ++ [])) 0 = true := hfinite
          simp only [hwhole, if_true] at h
          split_ifs at h
      | some i =>
          simp only [hfinite, if_true] at h
          exact absurd h (by simp)
  | cons d frac =>
      simp only [hfinite, if_true] at h
      exact absurd h (by simp)

/-! ## What a reader may answer -/

/-- An answer to a text stays within the text: what is left to read is the end of the text, and a
number that is reported as too large stands in the text. -/
def Within {α : Type} (cs : List Char) : Except ReadError (α × List Char) → Prop
  | .ok (_, rest) => rest <:+ cs
  | .error .malformed => True
  | .error .numberTooLarge => HoldsTooLarge cs

/-- What is within the end of a text is within the text. -/
theorem Within.mono {α : Type} {answer : Except ReadError (α × List Char)} (h : Within cs answer)
    (hs : cs <:+ ds) : Within ds answer := by
  match answer, h with
  | .ok (_, _), h => exact List.IsSuffix.trans h hs
  | .error .malformed, _ => trivial
  | .error .numberTooLarge, h => exact HoldsTooLarge.mono h hs

/-- A complaint is handed on. -/
theorem Within.error {α β : Type} {e : ReadError}
    (h : Within cs (.error e : Except ReadError (α × List Char))) (hs : cs <:+ ds) :
    Within ds (.error e : Except ReadError (β × List Char)) := by
  cases e with
  | malformed => trivial
  | numberTooLarge => exact HoldsTooLarge.mono h hs

theorem within_readMagnitude (negative : Bool) (cs : List Char) :
    Within cs (readMagnitude negative cs) := by
  unfold readMagnitude
  split
  · trivial
  rename_i whole rest hwhole
  obtain ⟨rfl, hw⟩ := wholePart_eq hwhole
  split
  · trivial
  rename_i frac rest' hfraction
  obtain ⟨fractionText, rfl, hf⟩ := fraction_eq hfraction
  split
  · trivial
  rename_i exp rest'' hexponent
  obtain ⟨exponentText, rfl, he⟩ := exponent?_eq hexponent
  split
  · rename_i e hvalue
    cases e with
    | malformed => trivial
    | numberTooLarge =>
        exact ⟨[], whole ++ fractionText ++ exponentText, rest'', _, _, by simp, .parts hw hf he,
          tooLarge_of_numberValue hvalue⟩
  · exact ⟨whole ++ fractionText ++ exponentText, by simp⟩

theorem within_readNumber (cs : List Char) : Within cs (readNumber cs) := by
  unfold readNumber
  split
  · exact (within_readMagnitude true _).mono (List.suffix_cons _ _)
  · exact within_readMagnitude false cs

theorem within_readScalar (cs : List Char) : Within cs (readScalar cs) := by
  unfold readScalar
  split
  · exact ⟨['t', 'r', 'u', 'e'], rfl⟩
  · exact ⟨['f', 'a', 'l', 's', 'e'], rfl⟩
  · exact ⟨['n', 'u', 'l', 'l'], rfl⟩
  · exact within_readNumber cs

theorem skipBlank_suffix (cs : List Char) : skipBlank cs <:+ cs := by
  induction cs with
  | nil => exact List.suffix_refl _
  | cons c cs ih =>
      unfold skipBlank
      split
      · exact ih.trans (List.suffix_cons c cs)
      · exact List.suffix_refl _

theorem decode_of_map {f : List Char → List Char} {s : List Char}
    (h : ((decode cs).map fun (s, r) => (f s, r)) = some (s, rest)) :
    ∃ s, decode cs = some (s, rest) := by
  obtain ⟨⟨s', rest'⟩, hread, heq⟩ := Option.map_eq_some_iff.mp h
  obtain ⟨-, rfl⟩ := Prod.mk.inj heq
  exact ⟨s', hread⟩

theorem decode_suffix {s : List Char} (h : decode cs = some (s, rest)) : rest <:+ cs := by
  fun_induction decode cs generalizing s with
  | case2 rest' =>
      obtain ⟨-, rfl⟩ := Prod.mk.inj (Option.some.inj h)
      exact List.suffix_cons _ _
  | case5 a b c d high _ _ e f g i rest' low _ _ ih =>
      obtain ⟨s', hread⟩ := decode_of_map h
      exact (ih hread).trans ⟨['\\', 'u', a, b, c, d, '\\', 'u', e, f, g, i], rfl⟩
  | case9 a b c d rest' unit _ _ _ ih =>
      obtain ⟨s', hread⟩ := decode_of_map h
      exact (ih hread).trans ⟨['\\', 'u', a, b, c, d], rfl⟩
  | case11 l rest' _ c _ ih =>
      obtain ⟨s', hread⟩ := decode_of_map h
      exact (ih hread).trans ⟨['\\', l], rfl⟩
  | case13 c rest' _ _ _ _ ih =>
      obtain ⟨s', hread⟩ := decode_of_map h
      exact (ih hread).trans (List.suffix_cons c rest')
  | _ => exact absurd h (by simp)

/-! ## Values -/

theorem suffix_of_skipBlank {c : Char} (h : skipBlank cs = c :: rest) : rest <:+ cs :=
  (List.suffix_cons c rest).trans (h ▸ skipBlank_suffix cs)

variable {fuel : Nat}

theorem within_readValue (hitems : ∀ cs, Within cs (readItems fuel cs))
    (hfields : ∀ cs, Within cs (readFields fuel cs)) (cs : List Char) :
    Within cs (readValue (fuel + 1) cs) := by
  unfold readValue
  split
  · split
    · trivial
    · rename_i hread
      exact (decode_suffix hread).trans (List.suffix_cons _ _)
  · rename_i rest
    have hinside : skipBlank rest <:+ '[' :: rest :=
      (skipBlank_suffix rest).trans (List.suffix_cons _ _)
    split
    · rename_i hclosed
      exact (suffix_of_skipBlank hclosed).trans (List.suffix_cons _ _)
    · have hread := (hitems (skipBlank rest)).mono hinside
      generalize readItems fuel (skipBlank rest) = answer at hread ⊢
      cases answer with
      | error e => exact hread.error (List.suffix_refl _)
      | ok answer => exact hread
  · rename_i rest
    have hinside : skipBlank rest <:+ '\x7b' :: rest :=
      (skipBlank_suffix rest).trans (List.suffix_cons _ _)
    split
    · rename_i hclosed
      exact (suffix_of_skipBlank hclosed).trans (List.suffix_cons _ _)
    · have hread := (hfields (skipBlank rest)).mono hinside
      generalize readFields fuel (skipBlank rest) = answer at hread ⊢
      cases answer with
      | error e => exact hread.error (List.suffix_refl _)
      | ok answer => exact hread
  · exact within_readScalar cs

theorem within_readItems (hvalue : ∀ cs, Within cs (readValue fuel cs))
    (hitems : ∀ cs, Within cs (readItems fuel cs)) (cs : List Char) :
    Within cs (readItems (fuel + 1) cs) := by
  unfold readItems
  have hread := hvalue cs
  split
  · rename_i e herror
    rw [herror] at hread
    exact hread.error (List.suffix_refl _)
  · rename_i item rest hok
    rw [hok] at hread
    have hrest : rest <:+ cs := hread
    split
    · rename_i hend
      exact (suffix_of_skipBlank hend).trans hrest
    · rename_i rest' hcomma
      have hmore := (hitems (skipBlank rest')).mono
        ((skipBlank_suffix rest').trans ((suffix_of_skipBlank hcomma).trans hrest))
      generalize readItems fuel (skipBlank rest') = answer at hmore ⊢
      cases answer with
      | error e => exact hmore.error (List.suffix_refl _)
      | ok answer => exact hmore
    · trivial

theorem within_readFields (hvalue : ∀ cs, Within cs (readValue fuel cs))
    (hfields : ∀ cs, Within cs (readFields fuel cs)) (cs : List Char) :
    Within cs (readFields (fuel + 1) cs) := by
  unfold readFields
  split
  · split
    · trivial
    rename_i hkey
    have hkey := (decode_suffix hkey).trans (List.suffix_cons '"' _)
    split
    · rename_i behind hcolon
      have hbehind := (skipBlank_suffix behind).trans ((suffix_of_skipBlank hcolon).trans hkey)
      have hread := (hvalue (skipBlank behind)).mono hbehind
      split
      · rename_i e herror
        rw [herror] at hread
        exact hread.error (List.suffix_refl _)
      · rename_i v rest hok
        rw [hok] at hread
        have hrest : rest <:+ _ := hread
        split
        · rename_i hend
          exact (suffix_of_skipBlank hend).trans hrest
        · rename_i rest' hcomma
          have hmore := (hfields (skipBlank rest')).mono
            ((skipBlank_suffix rest').trans ((suffix_of_skipBlank hcomma).trans hrest))
          generalize readFields fuel (skipBlank rest') = answer at hmore ⊢
          cases answer with
          | error e => exact hmore.error (List.suffix_refl _)
          | ok answer => exact hmore
        · trivial
    · trivial
  · trivial

/-- **No reader answers beyond its text.** -/
theorem within_read (fuel : Nat) :
    (∀ cs, Within cs (readValue fuel cs)) ∧ (∀ cs, Within cs (readItems fuel cs)) ∧
      ∀ cs, Within cs (readFields fuel cs) := by
  induction fuel with
  | zero => exact ⟨fun cs => trivial, fun cs => trivial, fun cs => trivial⟩
  | succ fuel ih =>
      obtain ⟨hvalue, hitems, hfields⟩ := ih
      exact ⟨within_readValue hitems hfields, within_readItems hvalue hitems,
        within_readFields hvalue hfields⟩

theorem withoutMark_suffix (cs : List Char) : withoutMark cs <:+ cs := by
  unfold withoutMark
  split
  · exact List.suffix_cons _ _
  · exact List.suffix_refl _

/-- **A text whose reading reports a number as too large holds one.** -/
theorem holdsTooLarge_of_readFirst {s : String} (h : readFirst s = .error .numberTooLarge) :
    HoldsTooLarge s.toList := by
  have hread := (within_read (fuelFor (skipBlank (withoutMark s.toList)))).1
    (skipBlank (withoutMark s.toList))
  rw [readFirst] at h
  rw [h] at hread
  exact hread.mono ((skipBlank_suffix _).trans (withoutMark_suffix _))

theorem readFirst_of_parse {s : String} (h : parse s = .error .numberTooLarge) :
    readFirst s = .error .numberTooLarge := by
  unfold parse at h
  split at h
  · rename_i e herror
    rw [herror, Except.error.inj h]
  · split at h
    · exact absurd h (by simp)
    · exact absurd h (by simp)

end FleetScaler.Json
