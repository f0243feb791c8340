import FleetScaler.Proofs.CommandLine.Groups
import FleetScaler.Proofs.Json.RoundTrip
import FleetScaler.Proofs.Settings.Overlay
import Mathlib.Algebra.Ring.Int.Defs
import Mathlib.Algebra.Ring.Nat

/-!
# Numbers on the command line and in the file

Four settings are numbers that can be given in two places: behind a flag, and under a key of the
configuration file. A file is held to the range of 32 bits. A flag is held to 64 bits only, and
keeps the lowest 32 of them, so that a number beyond them, or below zero, comes out as another one.
-/

namespace FleetScaler

namespace CommandLine

/-! ## Numerals -/

/-- The text is blanks, then one sign or none, then digits that denote the number with the sign. -/
def Numeral (s : String) (i : Int) : Prop :=
  ∃ blanks sign digits, s.toList = blanks ++ (sign ++ digits)
    ∧ (∀ c ∈ blanks, isLeadingBlank c = true)
    ∧ digits ≠ [] ∧ (∀ c ∈ digits, Json.isDigit c = true)
    ∧ (sign = ['-'] ∧ i = -(Json.digitsValue 0 digits : Int)
      ∨ (sign = [] ∨ sign = ['+']) ∧ i = Json.digitsValue 0 digits)

theorem magnitude?_eq_some_iff {cs : List Char} {n : Nat} :
    magnitude? cs = some n
      ↔ cs ≠ [] ∧ (∀ c ∈ cs, Json.isDigit c = true) ∧ n = Json.digitsValue 0 cs := by
  have hall : cs.all (fun c => '0' ≤ c && c ≤ '9') = true ↔ ∀ c ∈ cs, Json.isDigit c = true :=
    List.all_eq_true
  unfold magnitude?
  split
  · rename_i h
    have hdigits := hall.mp h.2
    exact ⟨fun e => ⟨h.1, hdigits, (Option.some.inj e).symm⟩, fun e => congrArg some e.2.2.symm⟩
  · rename_i h
    constructor
    · intro e
      exact absurd e (by simp)
    · rintro ⟨hne, hdigits, -⟩
      exact absurd ⟨hne, hall.mpr hdigits⟩ h

/-- What the sign makes of a magnitude. -/
def signedValue (negative : Bool) (n : Nat) : Int := if negative then -(n : Int) else n

/-- The sign is split off exactly where one stands. -/
theorem splitSign_eq {cs : List Char} {negative : Bool} {digits : List Char}
    (h : splitSign cs = (negative, digits)) :
    ∃ sign, cs = sign ++ digits
      ∧ (sign = ['-'] ∧ negative = true ∨ (sign = [] ∨ sign = ['+']) ∧ negative = false) := by
  unfold splitSign at h
  split at h
  all_goals
    obtain ⟨rfl, rfl⟩ := Prod.mk.inj h
  · exact ⟨['-'], rfl, .inl ⟨rfl, rfl⟩⟩
  · exact ⟨['+'], rfl, .inr ⟨.inr rfl, rfl⟩⟩
  · exact ⟨[], rfl, .inr ⟨.inl rfl, rfl⟩⟩

theorem splitSign_append {sign digits : List Char} {negative : Bool}
    (hsign : sign = ['-'] ∧ negative = true ∨ (sign = [] ∨ sign = ['+']) ∧ negative = false)
    (hne : digits ≠ []) (hdigits : ∀ c ∈ digits, Json.isDigit c = true) :
    splitSign (sign ++ digits) = (negative, digits) := by
  obtain ⟨rfl, rfl⟩ | ⟨rfl | rfl, rfl⟩ := hsign
  · rfl
  · obtain ⟨c, cs, rfl⟩ := List.exists_cons_of_ne_nil hne
    have hc : Json.isDigit c = true := hdigits c (List.mem_cons_self ..)
    have hminus : c ≠ '-' := by
      rintro rfl
      exact absurd hc (by decide)
    have hplus : c ≠ '+' := by
      rintro rfl
      exact absurd hc (by decide)
    simp [splitSign, hminus, hplus]
  · rfl

/-- What the blanks at the front leave is unchanged by them. -/
theorem dropWhile_blanks {blanks sign digits : List Char}
    (hblanks : ∀ c ∈ blanks, isLeadingBlank c = true)
    (hsign : sign = ['-'] ∨ sign = [] ∨ sign = ['+']) (hne : digits ≠ [])
    (hdigits : ∀ c ∈ digits, Json.isDigit c = true) :
    (blanks ++ (sign ++ digits)).dropWhile isLeadingBlank = sign ++ digits := by
  rw [List.dropWhile_append_of_pos hblanks]
  obtain ⟨c, cs, rfl⟩ := List.exists_cons_of_ne_nil hne
  have hc : Json.isDigit c = true := hdigits c (List.mem_cons_self ..)
  have hnotBlank : isLeadingBlank c = false := by
    refine Bool.eq_false_iff.mpr fun hblank => ?_
    simp only [isLeadingBlank, Bool.or_eq_true, decide_eq_true_eq] at hblank
    obtain ((((rfl | rfl) | rfl) | rfl) | rfl) | rfl := hblank <;> exact absurd hc (by decide)
  obtain rfl | rfl | rfl := hsign
  · rfl
  · simp [hnotBlank]
  · rfl

/-- A text is a numeral exactly if its digits have a magnitude once blanks and sign are off. -/
theorem numeral_iff {s : String} {i : Int} :
    Numeral s i ↔ ∃ negative digits n,
      splitSign (s.toList.dropWhile isLeadingBlank) = (negative, digits)
        ∧ magnitude? digits = some n ∧ i = signedValue negative n := by
  constructor
  · rintro ⟨blanks, sign, digits, hs, hblanks, hne, hdigits, hvalue⟩
    have hdrop : s.toList.dropWhile isLeadingBlank = sign ++ digits := by
      rw [hs]
      refine dropWhile_blanks hblanks ?_ hne hdigits
      obtain ⟨rfl, -⟩ | ⟨h, -⟩ := hvalue
      · exact .inl rfl
      · exact .inr h
    rw [hdrop]
    obtain ⟨rfl, rfl⟩ | ⟨hsign, rfl⟩ := hvalue
    · exact ⟨true, digits, _, splitSign_append (.inl ⟨rfl, rfl⟩) hne hdigits,
        magnitude?_eq_some_iff.mpr ⟨hne, hdigits, rfl⟩, rfl⟩
    · exact ⟨false, digits, _, splitSign_append (.inr ⟨hsign, rfl⟩) hne hdigits,
        magnitude?_eq_some_iff.mpr ⟨hne, hdigits, rfl⟩, rfl⟩
  · rintro ⟨negative, digits, n, hsplit, hmagnitude, rfl⟩
    obtain ⟨sign, hdrop, hsign⟩ := splitSign_eq hsplit
    obtain ⟨hne, hdigits, rfl⟩ := magnitude?_eq_some_iff.mp hmagnitude
    refine ⟨s.toList.takeWhile isLeadingBlank, sign, digits, ?_, ?_, hne, hdigits, ?_⟩
    · rw [← hdrop, List.takeWhile_append_dropWhile]
    · exact List.all_eq_true.mp List.all_takeWhile
    · obtain ⟨rfl, rfl⟩ | ⟨hsign, rfl⟩ := hsign
      · exact .inl ⟨rfl, rfl⟩
      · exact .inr ⟨hsign, rfl⟩

/-- The low 32 bits of an integer, as a number. -/
theorem toNat_ofInt (i : Int) : ((UInt32.ofInt i).toNat : Int) = i % 2 ^ 32 := by
  simp only [UInt32.ofInt, UInt32.toNat_ofNat']
  omega

/-- A numeral is accepted if it fits 64 bits besides its sign. -/
theorem word?_of_numeral {s : String} {i : Int} (h : Numeral s i) :
    word? s = if i.natAbs < 2 ^ 64 then some (UInt32.ofInt i) else none := by
  obtain ⟨negative, digits, n, hsplit, hn, rfl⟩ := numeral_iff.mp h
  have habs : (signedValue negative n).natAbs = n := by
    cases negative <;> simp [signedValue]
  have hbits : n < 2 ^ 64 → UInt32.ofNat ((2 ^ 64 - n) % 2 ^ 64) = UInt32.ofInt (-(n : Int)) := by
    intro hlt
    apply UInt32.toNat_inj.mp
    simp only [UInt32.ofInt, UInt32.toNat_ofNat']
    omega
  have hword : UInt32.ofNat n = UInt32.ofInt (n : Int) := by
    apply UInt32.toNat_inj.mp
    simp only [UInt32.ofInt, UInt32.toNat_ofNat']
    omega
  have hheld : word? s = if Nat.pow 2 64 ≤ n then none
      else if negative then some (UInt32.ofNat ((Nat.pow 2 64 - n) % Nat.pow 2 64))
      else some (UInt32.ofNat n) := by
    simp only [word?, hsplit, hn]
  rw [hheld, habs]
  by_cases hlt : n < 2 ^ 64
  · have hfits : ¬ Nat.pow 2 64 ≤ n := Nat.not_le.mpr hlt
    rw [if_neg hfits, if_pos hlt]
    cases negative with
    | false => exact congrArg some hword
    | true => exact congrArg some (hbits hlt)
  · have hlarge : Nat.pow 2 64 ≤ n := Nat.not_lt.mp hlt
    rw [if_pos hlarge, if_neg hlt]

/-- **The texts that are numbers for a flag**, and what is held: numerals that fit 64 bits besides
their sign, of which the lowest 32 bits are kept. -/
theorem word?_eq_some_iff {s : String} {w : UInt32} :
    word? s = some w ↔ ∃ i, Numeral s i ∧ i.natAbs < 2 ^ 64 ∧ (w.toNat : Int) = i % 2 ^ 32 := by
  constructor
  · intro h
    obtain ⟨i, hi⟩ : ∃ i, Numeral s i := by
      rcases hsplit : splitSign (s.toList.dropWhile isLeadingBlank) with ⟨negative, digits⟩
      cases hn : magnitude? digits with
      | none => simp [word?, hsplit, hn] at h
      | some n => exact ⟨signedValue negative n, numeral_iff.mpr ⟨_, _, _, hsplit, hn, rfl⟩⟩
    rw [word?_of_numeral hi] at h
    split at h
    · rename_i hlt
      exact ⟨i, hi, hlt, by rw [← Option.some.inj h, toNat_ofInt]⟩
    · exact absurd h (by simp)
  · rintro ⟨i, hi, hlt, hw⟩
    rw [word?_of_numeral hi, if_pos hlt]
    refine congrArg some (UInt32.toNat_inj.mp (Int.ofNat.inj ?_))
    exact (toNat_ofInt i).trans hw.symm

/-! ## Integers in decimal -/

/-- An integer in decimal, with a minus sign if it is below zero. -/
def decimal (n : Int) : String := String.ofList (Json.intChars n)

theorem numeral_decimal (n : Int) : Numeral (decimal n) n := by
  have hdigits : ∀ c ∈ Nat.toDigits 10 n.natAbs, Json.isDigit c = true := fun c hc =>
    Json.isDigit_of_mem_toDigits hc
  have hne : Nat.toDigits 10 n.natAbs ≠ [] := by
    obtain ⟨c, cs, heq, -⟩ := Json.toDigits_eq_cons n.natAbs
    simp [heq]
  by_cases hneg : n < 0
  · refine ⟨[], ['-'], Nat.toDigits 10 n.natAbs, ?_, by simp, hne, hdigits, .inl ⟨rfl, ?_⟩⟩
    · simp [decimal, Json.intChars, hneg]
    · rw [Json.digitsValue_toDigits]
      omega
  · refine ⟨[], [], Nat.toDigits 10 n.natAbs, ?_, by simp, hne, hdigits, .inr ⟨.inl rfl, ?_⟩⟩
    · simp [decimal, Json.intChars, hneg]
    · rw [Json.digitsValue_toDigits]
      omega

end CommandLine

/-! ## A number in a file -/

namespace Json

variable {rest : List Char} {n : Int}

/-- A written integer is read as what its digits come to under its sign, even if it is too large
to be kept whole. -/
theorem readNumber_intChars_eq (hr : EndsNumber rest) :
    readNumber (intChars n ++ rest)
      = (numberValue (n < 0) (Nat.toDigits 10 n.natAbs) [] none).map fun v => (v, rest) := by
  have hmagnitude : ∀ negative, readMagnitude negative (Nat.toDigits 10 n.natAbs ++ rest)
      = (numberValue negative (Nat.toDigits 10 n.natAbs) [] none).map fun v => (v, rest) := by
    intro negative
    rw [readMagnitude, wholePart_toDigits _ hr]
    simp only [fraction_of_endsNumber hr, exponent?_of_endsNumber hr]
    cases numberValue negative (Nat.toDigits 10 n.natAbs) [] none <;> rfl
  by_cases hneg : n < 0
  · simp only [intChars, hneg, if_true, decide_true]
    exact hmagnitude true
  · obtain ⟨c, cs, heq, hdigit, -⟩ := toDigits_eq_cons n.natAbs
    have hread := hmagnitude false
    simp only [intChars, hneg, if_false, decide_false]
    rw [heq, List.cons_append] at hread ⊢
    rw [readNumber_of_digit hdigit, hread]

/-- Of the numbers that are read, those of 32 bits without a sign are the integers of that range:
what is too large to be kept whole is none of them. -/
theorem numberValue_word? :
    (numberValue (n < 0) (Nat.toDigits 10 n.natAbs) [] none).toOption.bind word?
      = (signed n).word? := by
  have hlarge : ∀ (c : Prop) [Decidable c] (d : Json), d.word? = none →
      (if c then Except.ok d else .error ReadError.numberTooLarge).toOption.bind word? = none := by
    intro c _ d hd
    split
    · exact hd
    · rfl
  have hout : ¬ (0 ≤ n ∧ n ≤ 4294967295) → (signed n).word? = none := by
    intro h
    simp [word?, int?, h]
  simp only [numberValue, List.append_nil, digitsValue_toDigits, Nat.pow_eq]
  by_cases hneg : n < 0
  · simp only [hneg, decide_true, Bool.true_and, decide_eq_true_eq]
    split
    · rw [show -(n.natAbs : Int) = n by omega]
      rfl
    · rw [hout (by omega)]
      simpa using hlarge _ _ rfl
  · simp only [hneg, decide_false, Bool.false_and, Bool.false_eq_true, if_false, Bool.not_false,
      Bool.true_and, decide_eq_true_eq]
    split
    · have hn : (n.natAbs : Int) = n := by omega
      simp [Except.toOption, word?, int?, hn]
    · rw [hout (by omega)]
      exact hlarge _ _ rfl

theorem readFields_error {fuel : Nat} {key : String} {cs cs' cs'' : List Char} {e : ReadError}
    (hk : decode cs = some (key.toList, cs')) (hc : skipBlank cs' = ':' :: cs'')
    (hv : readValue fuel (skipBlank cs'') = .error e) :
    readFields (fuel + 1) ('"' :: cs) = .error e := by
  simp [readFields, hk, hc, hv]

theorem readValue_fields_error {fuel : Nat} {c : Char} {cs : List Char} {e : ReadError}
    (h : skipBlank cs = c :: rest) (hc : c ≠ '\x7d')
    (hf : readFields fuel (c :: rest) = .error e) :
    readValue (fuel + 1) ('\x7b' :: cs) = .error e := by
  unfold readValue
  simp [h, hc, hf]

/-- An object of one integer is read as one, or is an error, as its number is. -/
theorem parseFirst_line_field (key : String) :
    parseFirst (line (.object [(key, .signed n)]))
      = (numberValue (n < 0) (Nat.toDigits 10 n.natAbs) [] none).map
          fun v => .object [(key, v)] := by
  have htext : (line (.object [(key, .signed n)])).toList
      = '\x7b' :: '"' :: (encode Letters.document key.toList ++ '"' :: ':' ::
          (intChars n ++ ['\x7d'])) := by
    simp [line, writeLine, writeLineFields, write, quote]
  have hends : EndsNumber ['\x7d'] := by
    simp [EndsNumber, isDigit]
  have hblank : skipBlank (intChars n ++ ['\x7d']) = intChars n ++ ['\x7d'] :=
    skipBlank_write 0 (.signed n) ['\x7d']
  have hnumber : ∀ fuel, readValue (fuel + 1) (intChars n ++ ['\x7d'])
      = (numberValue (n < 0) (Nat.toDigits 10 n.natAbs) [] none).map fun v => (v, ['\x7d']) := by
    intro fuel
    obtain ⟨c, cs, heq, hstart⟩ := intChars_eq_cons n
    rw [← readNumber_intChars_eq hends, heq, List.cons_append, readValue_number hstart]
  have hplain : ∀ cs, skipBlank (withoutMark ('\x7b' :: cs)) = '\x7b' :: cs := fun _ => rfl
  obtain ⟨fuel, hfuel⟩ : ∃ k, fuelFor ('\x7b' :: '"' :: (encode Letters.document key.toList ++
      '"' :: ':' :: (intChars n ++ ['\x7d']))) = k + 3 :=
    ⟨_, (Nat.sub_add_cancel (by simp [fuelFor]; omega)).symm⟩
  have hkey := decode_document key (':' :: (intChars n ++ ['\x7d']))
  have hcolon : skipBlank (':' :: (intChars n ++ ['\x7d'])) = ':' :: (intChars n ++ ['\x7d']) := rfl
  have hvalue := hnumber fuel
  rw [parseFirst, readFirst, htext, hplain, hfuel]
  cases hn : numberValue (n < 0) (Nat.toDigits 10 n.natAbs) [] none with
  | error e =>
      rw [hn, ← hblank] at hvalue
      rw [readValue_fields_error rfl (by decide) (readFields_error hkey hcolon hvalue)]
      rfl
  | ok v =>
      rw [hn, ← hblank] at hvalue
      rw [readValue_fields rfl (by decide) (readFields_last hkey hcolon hvalue rfl)]
      rfl

end Json

/-! ## The settings that are numbers -/

/-- The settings that are numbers and can be given in both places. -/
inductive Quantity where
  | pollInterval
  | nodes
  | runSeconds
  | failoverAfter
  deriving DecidableEq, Repr

namespace Quantity

/-- The flag of the setting. -/
def flag : Quantity → Flag
  | pollInterval => .pollInterval
  | nodes => .nodes
  | runSeconds => .runSeconds
  | failoverAfter => .failoverAfter

/-- The key of the setting in a file. -/
def key : Quantity → String
  | pollInterval => "pollIntervalMs"
  | nodes => "nodes"
  | runSeconds => "runSeconds"
  | failoverAfter => "failoverAfterSeconds"

/-- What a command line says about the setting. -/
def noted : Quantity → CommandLine → Option UInt32
  | pollInterval => CommandLine.pollIntervalMs
  | nodes => CommandLine.nodes
  | runSeconds => CommandLine.runSeconds
  | failoverAfter => CommandLine.failoverAfterSeconds

/-- What the setting is. -/
def held : Quantity → Settings → UInt32
  | pollInterval => Settings.pollIntervalMs
  | nodes => Settings.nodes
  | runSeconds => Settings.runSeconds
  | failoverAfter => Settings.failoverAfterSeconds

variable {q : Quantity} {n : Int}

/-- The number held after a command line that gives the setting a text, if it is accepted. -/
def fromFlag (q : Quantity) (text : String) : Option UInt32 :=
  match CommandLine.parse [q.flag.name, text] with
  | .ok (.run line) => q.noted line
  | _ => none

/-- The number held after a file that gives the setting an integer, if it is accepted. -/
def fromFile (q : Quantity) (n : Int) : Option UInt32 :=
  match (Settings.load {} "fleet.json" (.text (Json.line (.object [(q.key, .signed n)])))).1 with
  | .ok s => some (q.held s)
  | .error _ => none

theorem fromFlag_eq (text : String) : q.fromFlag text = CommandLine.word? text := by
  have hread : CommandLine.parse [q.flag.name, text] = _ := CommandLine.parseFrom_value
  rw [fromFlag, hread]
  cases hw : CommandLine.word? text <;> cases q <;>
    simp [CommandLine.set, flag, CommandLine.number, hw, Except.map, CommandLine.parseFrom, noted]

/-- An object that gives the setting a value is well typed if the value is a number of 32 bits. -/
theorem wellTyped_field {v : Json} :
    Settings.WellTyped (.object [(q.key, v)]) ↔ v.word?.isSome = true := by
  cases q <;> simp [Settings.wellTyped_iff, Settings.wordKeys, Settings.textKeys,
    Settings.boolKeys, Settings.Readable, Json.isObject, Json.get?, Json.lookup, key]

theorem held_overlaid_field {base : Settings} {v : Json} :
    q.held (base.overlaid (.object [(q.key, v)])) = v.word?.getD (q.held base) := by
  cases q <;> simp [Settings.overlaid, Settings.stated, Json.get?, Json.lookup, held, key]

theorem fromFile_eq : q.fromFile n = (Json.signed n).word? := by
  rw [← Json.numberValue_word?]
  cases hn : Json.numberValue (n < 0) (Nat.toDigits 10 n.natAbs) [] none with
  | error e => simp [fromFile, Settings.load, Json.parseFirst_line_field, hn, Except.map,
      Except.toOption]
  | ok v =>
      simp only [fromFile, Settings.load, Json.parseFirst_line_field, hn, Except.map,
        Except.toOption, Option.bind_some]
      cases hv : v.word? with
      | some w =>
          have htyped := (wellTyped_field (q := q) (v := v)).mpr (by simp [hv])
          have hoverlay : Settings.overlay {} (.object [(q.key, v)]) = .ok _ :=
            Settings.overlay_eq_ok_iff.mpr ⟨htyped, rfl⟩
          rw [hoverlay]
          simp [held_overlaid_field, hv]
      | none =>
          cases hoverlay : Settings.overlay {} (.object [(q.key, v)]) with
          | error e => rfl
          | ok s =>
              have htyped := wellTyped_field.mp (Settings.overlay_eq_ok_iff.mp hoverlay).1
              exact absurd htyped (by simp [hv])

/-- The flag and the file treat the integer alike, and hold nothing but the integer itself. -/
def Agrees (q : Quantity) (n : Int) : Prop :=
  q.fromFlag (CommandLine.decimal n) = q.fromFile n
    ∧ ∀ w ∈ q.fromFlag (CommandLine.decimal n), (w.toNat : Int) = n

theorem fromFlag_decimal :
    q.fromFlag (CommandLine.decimal n)
      = if n.natAbs < 2 ^ 64 then some (UInt32.ofInt n) else none := by
  rw [fromFlag_eq, CommandLine.word?_of_numeral (CommandLine.numeral_decimal n)]

theorem fromFile_decimal :
    q.fromFile n = if 0 ≤ n ∧ n < 2 ^ 32 then some (UInt32.ofNat n.toNat) else none := by
  rw [fromFile_eq, Json.word?, Json.int?, Option.bind_some]
  by_cases h : 0 ≤ n ∧ n < 2 ^ 32
  · rw [if_pos h, if_pos (by omega)]
  · rw [if_neg h, if_neg (by omega)]

/-- **Where flag and file agree on a number**: at the integers of 32 bits, and at those that not
even 64 bits hold, which neither accepts. A flag accepts every other integer, which no file does,
as what its lowest 32 bits are, and does so for any text that is a numeral for the integer. -/
theorem agrees_iff (q : Quantity) (n : Int) :
    (q.Agrees n ↔ 0 ≤ n ∧ n < 2 ^ 32 ∨ 2 ^ 64 ≤ n.natAbs)
      ∧ (¬ q.Agrees n → q.fromFile n = none
          ∧ ∃ w, q.fromFlag (CommandLine.decimal n) = some w ∧ (w.toNat : Int) = n % 2 ^ 32)
      ∧ ∀ s, CommandLine.Numeral s n →
          q.fromFlag s = q.fromFlag (CommandLine.decimal n) := by
  have hword : (((UInt32.ofInt n).toNat : Nat) : Int) = n % 2 ^ 32 := CommandLine.toNat_ofInt n
  have hiff : q.Agrees n ↔ 0 ≤ n ∧ n < 2 ^ 32 ∨ 2 ^ 64 ≤ n.natAbs := by
    rw [Agrees, fromFlag_decimal, fromFile_decimal]
    by_cases hbits : n.natAbs < 2 ^ 64
    · by_cases hrange : 0 ≤ n ∧ n < 2 ^ 32
      · have hsame : UInt32.ofInt n = UInt32.ofNat n.toNat := by
          rw [UInt32.ofInt, Int.emod_eq_of_lt hrange.1 hrange.2]
        simp only [hbits, hrange, and_self, if_true, hsame, true_and, true_or, iff_true,
          Option.mem_some_iff, forall_eq']
        rw [← hsame, hword, Int.emod_eq_of_lt hrange.1 hrange.2]
      · have hneither : ¬ (0 ≤ n ∧ n < 2 ^ 32 ∨ 2 ^ 64 ≤ n.natAbs) := by omega
        rw [if_pos hbits, if_neg hrange, iff_false_intro hneither, iff_false]
        exact fun h => absurd h.1 (by simp)
    · have hrange : ¬ (0 ≤ n ∧ n < 2 ^ 32) := by omega
      rw [if_neg hbits, if_neg hrange]
      exact iff_of_true ⟨rfl, by simp⟩ (.inr (Nat.not_lt.mp hbits))
  refine ⟨hiff, fun hdiffer => ?_, fun s hs => ?_⟩
  · have hrange := mt hiff.mpr hdiffer
    rw [fromFile_decimal, fromFlag_decimal, if_neg (by omega), if_pos (by omega)]
    exact ⟨rfl, _, rfl, hword⟩
  · rw [fromFlag_decimal, fromFlag_eq, CommandLine.word?_of_numeral hs]

/-- One more than 32 bits hold, and one below zero: a flag takes them for 1 and for the largest
number, and a file with either of them is refused. -/
theorem flag_wraps_around :
    (¬ nodes.Agrees 4294967297 ∧ nodes.fromFlag "4294967297" = some 1
        ∧ nodes.fromFile 4294967297 = none)
      ∧ ¬ nodes.Agrees (-1) ∧ nodes.fromFlag "-1" = some 4294967295
        ∧ nodes.fromFile (-1) = none := by
  have hlarge : CommandLine.decimal 4294967297 = "4294967297" := by decide +kernel
  have hnegative : CommandLine.decimal (-1) = "-1" := by decide +kernel
  rw [← hlarge, ← hnegative]
  simp only [Agrees, fromFlag_decimal, fromFile_decimal]
  decide +kernel

end Quantity

end FleetScaler
