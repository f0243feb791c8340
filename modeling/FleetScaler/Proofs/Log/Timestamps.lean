import Mathlib.Algebra.Order.Ring.Int
import Mathlib.Data.List.Forall2
import Mathlib.Data.List.Lex
import Mathlib.Data.String.Basic
import Mathlib.Tactic.Positivity
import Mathlib.Tactic.Ring
import FleetScaler.Proofs.Calendar
import FleetScaler.Proofs.Log.JsonLine

/-!
# Times in log lines

The time in a log line is read back as the time that was written, and where two JSON lines bear
times, the earlier time is the earlier text. Both rest on numbers of a fixed width: filled up with
zeros, they have as many digits as the width says, these digits are read as the number, and of two
such numbers the smaller is the earlier text.

A time is a row of such numbers with a mark behind each (`row`), from the year down to the
millisecond, so rows are compared number by number and it is enough that an earlier time has the
earlier row of numbers.
-/

namespace FleetScaler

open Json (isDigit digitsValue toNat_of_isDigit)

/-! ## Numbers of a fixed width -/

variable {width : Nat} {i j : Int}

/-- The number is written with no more digits than the width. -/
structure Fills (width : Nat) (i : Int) : Prop where
  width_pos : 0 < width
  nonneg : 0 ≤ i
  lt : i < 10 ^ width

theorem zeroFilled_of_nonneg (h : 0 ≤ i) :
    zeroFilled width i =
      List.replicate (width - (Nat.toDigits 10 i.toNat).length) '0' ++ Nat.toDigits 10 i.toNat := by
  have habs : i.natAbs = i.toNat := by omega
  rw [zeroFilled, if_neg (by omega), habs]

theorem isDigit_of_mem_zeroFilled (h : 0 ≤ i) : ∀ c ∈ zeroFilled width i, isDigit c = true := by
  intro c hc
  rw [zeroFilled_of_nonneg h, List.mem_append, List.mem_replicate] at hc
  rcases hc with ⟨-, rfl⟩ | hc
  · decide
  · exact Json.isDigit_of_mem_toDigits hc

theorem Fills.length_zeroFilled (h : Fills width i) : (zeroFilled width i).length = width := by
  have hlt : i.toNat < 10 ^ width := (Int.toNat_lt h.nonneg).mpr (by exact_mod_cast h.lt)
  have hle := (Nat.length_toDigits_le_iff (b := 10) (by decide) h.width_pos).mpr hlt
  rw [zeroFilled_of_nonneg h.nonneg, List.length_append, List.length_replicate]
  omega

theorem digitsValue_append (n : Nat) (ds es : List Char) :
    digitsValue n (ds ++ es) = digitsValue (digitsValue n ds) es :=
  List.foldl_append

theorem digitsValue_replicate_zero (n : Nat) : digitsValue 0 (List.replicate n '0') = 0 := by
  induction n with
  | zero => rfl
  | succ n ih =>
      rw [List.replicate_succ]
      exact ih

theorem digitsValue_zeroFilled (h : 0 ≤ i) : digitsValue 0 (zeroFilled width i) = i.toNat := by
  rw [zeroFilled_of_nonneg h, digitsValue_append, digitsValue_replicate_zero,
    Json.digitsValue_toDigits]

/-! ### Their order -/

theorem digitsValue_cons (n : Nat) (d : Char) (ds : List Char) :
    digitsValue n (d :: ds) = digitsValue (10 * n + (d.toNat - 48)) ds := by
  rw [digitsValue, digitsValue, List.foldl_cons]

theorem digitsValue_eq (n : Nat) (ds : List Char) :
    digitsValue n ds = n * 10 ^ ds.length + digitsValue 0 ds := by
  induction ds generalizing n with
  | nil => simp [digitsValue]
  | cons d ds ih =>
      rw [digitsValue_cons, digitsValue_cons, ih (10 * n + (d.toNat - 48)),
        ih (10 * 0 + (d.toNat - 48)), List.length_cons, Nat.pow_succ]
      generalize d.toNat - 48 = digit
      ring

theorem digitsValue_lt {ds : List Char} (h : ∀ c ∈ ds, isDigit c = true) :
    digitsValue 0 ds < 10 ^ ds.length := by
  induction ds with
  | nil => decide
  | cons d ds ih =>
      obtain ⟨hd, hds⟩ := List.forall_mem_cons.mp h
      have hdigit := toNat_of_isDigit hd
      have hrest := ih hds
      have hle : (10 * 0 + (d.toNat - 48)) * 10 ^ ds.length ≤ 9 * 10 ^ ds.length :=
        Nat.mul_le_mul_right _ (by omega)
      rw [digitsValue_cons, digitsValue_eq, List.length_cons, Nat.pow_succ]
      omega

/-- Of two rows of digits of one length, the one of smaller value is the earlier text. -/
theorem lt_of_digitsValue_lt {ds es : List Char} (hlength : ds.length = es.length)
    (hd : ∀ c ∈ ds, isDigit c = true) (he : ∀ c ∈ es, isDigit c = true)
    (hlt : digitsValue 0 ds < digitsValue 0 es) : ds < es := by
  induction ds generalizing es with
  | nil =>
      obtain rfl : es = [] := List.length_eq_zero_iff.mp hlength.symm
      exact absurd hlt (Nat.lt_irrefl _)
  | cons d ds ih =>
      obtain ⟨e, es, rfl⟩ := List.exists_cons_of_length_eq_add_one hlength.symm
      obtain ⟨hd, hds⟩ := List.forall_mem_cons.mp hd
      obtain ⟨he, hes⟩ := List.forall_mem_cons.mp he
      have hlength : ds.length = es.length := Nat.succ.inj hlength
      have hdigit := toNat_of_isDigit hd
      have hdigit' := toNat_of_isDigit he
      have hbound := digitsValue_lt hes
      rw [digitsValue_cons, digitsValue_cons, digitsValue_eq, digitsValue_eq (10 * 0 + _) es,
        hlength] at hlt
      rw [List.cons_lt_cons_iff]
      rcases Nat.lt_trichotomy d.toNat e.toNat with hless | heq | hmore
      · exact .inl (UInt32.lt_iff_toNat_lt.mpr hless)
      · refine .inr ⟨Char.toNat_inj.mp heq, ih hlength hds hes ?_⟩
        rw [heq] at hlt
        omega
      · -- the first digit outweighs all that follow
        have hmul : (10 * 0 + (e.toNat - 48) + 1) * 10 ^ es.length
            ≤ (10 * 0 + (d.toNat - 48)) * 10 ^ es.length := Nat.mul_le_mul_right _ (by omega)
        rw [Nat.add_mul] at hmul
        omega

theorem Fills.zeroFilled_lt (h : Fills width i) (h' : Fills width j) (hlt : i < j) :
    zeroFilled width i < zeroFilled width j := by
  refine lt_of_digitsValue_lt (by rw [h.length_zeroFilled, h'.length_zeroFilled])
    (isDigit_of_mem_zeroFilled h.nonneg) (isDigit_of_mem_zeroFilled h'.nonneg) ?_
  have := h.nonneg
  rw [digitsValue_zeroFilled h.nonneg, digitsValue_zeroFilled h'.nonneg]
  omega

/-- What comes behind two lists of one length does not matter if they differ. -/
theorem append_lt_append_of_lt {α : Type} [LT α] {cs ds : List α}
    (hlength : cs.length = ds.length) (h : cs < ds) (rest rest' : List α) :
    cs ++ rest < ds ++ rest' := by
  induction cs generalizing ds with
  | nil =>
      obtain rfl : ds = [] := List.length_eq_zero_iff.mp hlength.symm
      exact absurd h (List.not_lt_nil _)
  | cons c cs ih =>
      obtain ⟨d, ds, rfl⟩ := List.exists_cons_of_length_eq_add_one hlength.symm
      rw [List.cons_lt_cons_iff] at h
      rw [List.cons_append, List.cons_append, List.cons_lt_cons_iff]
      exact h.imp_right fun ⟨hc, hcs⟩ => ⟨hc, ih (Nat.succ.inj hlength) hcs⟩

/-! ## Rows of numbers -/

/-- The widths of the numbers of a row, each with the mark that follows the number. -/
abbrev Layout := List (Nat × Char)

/-- Numbers of fixed widths with a mark behind each. -/
def row : Layout → List Int → List Char
  | (width, mark) :: layout, i :: values => zeroFilled width i ++ mark :: row layout values
  | _, _ => []

/-- Each number is written with no more digits than there is room for. -/
def FillsRow (layout : Layout) (values : List Int) : Prop :=
  List.Forall₂ (fun part i => Fills part.1 i) layout values

/-- **Rows are ordered as the numbers in them.** -/
theorem row_lt_row {layout : Layout} {values values' : List Int} (h : FillsRow layout values)
    (h' : FillsRow layout values') (hlt : values < values') :
    row layout values < row layout values' := by
  induction h generalizing values' with
  | nil =>
      cases h'
      exact absurd hlt (List.not_lt_nil _)
  | @cons part i layout values hi _ ih =>
      obtain _ | @⟨_, j, _, values', hj, hrest⟩ := h'
      simp only [row]
      rcases List.cons_lt_cons_iff.mp hlt with hless | ⟨rfl, hless⟩
      · refine append_lt_append_of_lt ?_ (hi.zeroFilled_lt hj hless) _ _
        rw [hi.length_zeroFilled, hj.length_zeroFilled]
      · refine List.append_left_lt ?_
        rw [List.cons_lt_cons_iff]
        exact .inr ⟨rfl, ih hrest hless⟩

/-! ### Reading them -/

/-- Reads a number of exactly `width` digits. -/
def readNumber? (width : Nat) (cs : List Char) : Option (Nat × List Char) :=
  if (cs.take width).length = width ∧ (cs.take width).all isDigit then
    some (digitsValue 0 (cs.take width), cs.drop width)
  else none

/-- Reads a row: every number with all its digits, and every mark. -/
def readRow? : Layout → List Char → Option (List Int × List Char)
  | [], cs => some ([], cs)
  | (width, mark) :: layout, cs =>
    match readNumber? width cs with
    | some (n, c :: cs) =>
      if c = mark then
        match readRow? layout cs with
        | some (values, cs) => some (n :: values, cs)
        | none => none
      else none
    | _ => none

theorem Fills.readNumber? (h : Fills width i) (rest : List Char) :
    readNumber? width (zeroFilled width i ++ rest) = some (i.toNat, rest) := by
  have htake : (zeroFilled width i ++ rest).take width = zeroFilled width i :=
    List.take_left' h.length_zeroFilled
  have hdrop : (zeroFilled width i ++ rest).drop width = rest :=
    List.drop_left' h.length_zeroFilled
  rw [FleetScaler.readNumber?, htake, hdrop, digitsValue_zeroFilled h.nonneg,
    if_pos ⟨h.length_zeroFilled, List.all_eq_true.mpr (isDigit_of_mem_zeroFilled h.nonneg)⟩]

/-- **A row is read as the numbers in it.** -/
theorem readRow?_row {layout : Layout} {values : List Int} (h : FillsRow layout values)
    (rest : List Char) : readRow? layout (row layout values ++ rest) = some (values, rest) := by
  induction h with
  | nil => rfl
  | @cons part i layout values hi _ ih =>
      have hcast : (i.toNat : Int) = i := Int.toNat_of_nonneg hi.nonneg
      simp only [row, List.append_assoc, List.cons_append, readRow?, hi.readNumber?, if_true, ih,
        hcast]

/-! ### Their form -/

/-- A character has its place in a form, where a digit stands for any digit. -/
def Fits (place c : Char) : Prop :=
  if isDigit place then isDigit c = true else c = place

instance (place c : Char) : Decidable (Fits place c) :=
  inferInstanceAs (Decidable (if isDigit place then isDigit c = true else c = place))

theorem fits_self (c : Char) : Fits c c := by
  unfold Fits
  split <;> trivial

theorem fits_digits {ds es : List Char} (hlength : ds.length = es.length)
    (hd : ∀ c ∈ ds, isDigit c = true) (he : ∀ c ∈ es, isDigit c = true) :
    List.Forall₂ Fits ds es := by
  induction ds generalizing es with
  | nil =>
      obtain rfl : es = [] := List.length_eq_zero_iff.mp hlength.symm
      exact .nil
  | cons d ds ih =>
      obtain ⟨e, es, rfl⟩ := List.exists_cons_of_length_eq_add_one hlength.symm
      obtain ⟨hd, hds⟩ := List.forall_mem_cons.mp hd
      obtain ⟨he, hes⟩ := List.forall_mem_cons.mp he
      exact .cons (by rwa [Fits, if_pos hd]) (ih (Nat.succ.inj hlength) hds hes)

/-- Rows of one layout are of one form. -/
theorem fits_row {layout : Layout} {values values' : List Int} (h : FillsRow layout values)
    (h' : FillsRow layout values') :
    List.Forall₂ Fits (row layout values) (row layout values') := by
  induction h generalizing values' with
  | nil =>
      cases h'
      exact .nil
  | @cons part i layout values hi _ ih =>
      obtain _ | @⟨_, j, _, values', hj, hrest⟩ := h'
      refine List.rel_append ?_ (.cons (fits_self _) (ih hrest))
      exact fits_digits (by rw [hi.length_zeroFilled, hj.length_zeroFilled])
        (isDigit_of_mem_zeroFilled hi.nonneg) (isDigit_of_mem_zeroFilled hj.nonneg)

/-! ## The numbers of a time -/

namespace DateTime

/-- The numbers of a date and time, the widest unit first. -/
def values (t : DateTime) : List Int :=
  [t.date.year, t.date.month, t.date.day, t.hour, t.minute, t.second]

/-- `YYYY-MM-DD hh:mm:ss` with a mark of choice between the date and the time and another one
behind. -/
def layout (between behind : Char) : Layout :=
  [(4, '-'), (2, '-'), (2, between), (2, ':'), (2, ':'), (2, behind)]

theorem row_values (t : DateTime) (between behind : Char) :
    row (layout between behind) t.values =
      t.dateChars ++ between :: (t.timeChars ++ [behind]) := by
  simp [row, layout, values, dateChars, timeChars]

end DateTime

/-- The milliseconds from the start of 1970 to the end of the year 9999. -/
def InRange (t : Int) : Prop := 0 ≤ t ∧ t < Date.toDays ⟨10000, 1, 1⟩ * 86400000

instance (t : Int) : Decidable (InRange t) := inferInstanceAs (Decidable (_ ∧ _))

theorem Date.monthLength_le (year month : Int) : monthLength year month ≤ 31 := by
  unfold monthLength
  split
  · split <;> decide
  · split <;> decide

theorem Date.year_ofDays {n : Int} (h : 0 ≤ n) (h' : n < toDays ⟨10000, 1, 1⟩) :
    1970 ≤ (ofDays n).year ∧ (ofDays n).year < 10000 := by
  have hvalid := valid_ofDays n
  -- an earlier or later year would make fewer or more days than there are
  have hstart : ¬ (ofDays n).Before epoch := by
    rw [← toDays_lt_iff hvalid (by decide), toDays_ofDays]
    exact not_lt.mpr h
  have hend : (ofDays n).Before ⟨10000, 1, 1⟩ := by
    rwa [← toDays_lt_iff hvalid (by decide), toDays_ofDays]
  have := hvalid.month_pos
  have := hvalid.day_pos
  simp only [Before, epoch] at hstart hend
  omega

theorem DateTime.fillsRow_ofSeconds {t : Int} (h : InRange t) (between behind : Char) :
    FillsRow (layout between behind) (ofSeconds (t / 1000)).values := by
  have hyear : 1970 ≤ (Date.ofDays (t / 1000 / 86400)).year ∧
      (Date.ofDays (t / 1000 / 86400)).year < 10000 := by
    have := h.1
    have := h.2
    exact Date.year_ofDays (by omega) (by omega)
  have hvalid := Date.valid_ofDays (t / 1000 / 86400)
  have := hvalid.month_pos
  have := hvalid.month_le
  have := hvalid.day_pos
  have := hvalid.day_le
  have := Date.monthLength_le (Date.ofDays (t / 1000 / 86400)).year
    (Date.ofDays (t / 1000 / 86400)).month
  refine .cons ⟨Nat.succ_pos 3, ?_, ?_⟩ (.cons ⟨Nat.two_pos, ?_, ?_⟩
    (.cons ⟨Nat.two_pos, ?_, ?_⟩ (.cons ⟨Nat.two_pos, ?_, ?_⟩ (.cons ⟨Nat.two_pos, ?_, ?_⟩
      (.cons ⟨Nat.two_pos, ?_, ?_⟩ .nil))))) <;>
    simp only [ofSeconds] <;> omega

/-- **A later second has the later row of numbers.** -/
theorem DateTime.values_lt {s s' : Int} (hlt : s < s') :
    (ofSeconds s).values < (ofSeconds s').values := by
  -- on different days the dates decide, on one day the time of day
  rcases lt_or_eq_of_le (show s / 86400 ≤ s' / 86400 by omega) with hday | hday
  · have hbefore : (Date.ofDays (s / 86400)).Before (Date.ofDays (s' / 86400)) := by
      rwa [← Date.toDays_lt_iff (Date.valid_ofDays _) (Date.valid_ofDays _), Date.toDays_ofDays,
        Date.toDays_ofDays]
    simp only [values, ofSeconds, List.cons_lt_cons_iff]
    rcases hbefore with hyear | ⟨hyear, hmonth | ⟨hmonth, hday⟩⟩
    · exact .inl hyear
    · exact .inr ⟨hyear, .inl hmonth⟩
    · exact .inr ⟨hyear, .inr ⟨hmonth, .inl hday⟩⟩
  · simp only [values, ofSeconds, hday, List.cons_lt_cons_iff, and_false, or_false,
      lt_irrefl, true_and, false_or]
    omega

namespace Log.Entry

/-- The numbers of a time in milliseconds. -/
def stampValues (t : Int) : List Int := (DateTime.ofSeconds (t / 1000)).values ++ [t % 1000]

/-- `YYYY-MM-DDThh:mm:ss.mmmZ`. -/
def stampLayout : Layout := DateTime.layout 'T' '.' ++ [(3, 'Z')]

theorem fillsRow_stampValues {t : Int} (h : InRange t) :
    FillsRow stampLayout (stampValues t) :=
  List.rel_append (DateTime.fillsRow_ofSeconds h 'T' '.')
    (.cons ⟨Nat.succ_pos 2, by omega, by simp only; omega⟩ .nil)

/-- **A later time has the later row of numbers.** -/
theorem stampValues_lt {t t' : Int} (hlt : t < t') : stampValues t < stampValues t' := by
  rcases lt_or_eq_of_le (show t / 1000 ≤ t' / 1000 by omega) with hsecond | hsecond
  · refine append_lt_append_of_lt ?_ (DateTime.values_lt hsecond) _ _
    rfl
  · rw [stampValues, stampValues, hsecond]
    refine List.append_left_lt (List.cons_lt_cons_iff.mpr (.inl ?_))
    omega

theorem dateTime_of_inRange {e : Entry} (h : InRange e.timestamp) :
    e.dateTime = DateTime.ofSeconds (e.timestamp / 1000) := by
  rw [dateTime, Int.tdiv_eq_ediv_of_nonneg h.1]

theorem timestampChars_eq_row {e : Entry} (h : InRange e.timestamp) :
    e.timestampChars = row stampLayout (stampValues e.timestamp) := by
  simp [timestampChars, dateTime_of_inRange h, Int.tmod_eq_emod_of_nonneg h.1, row, stampLayout,
    stampValues, DateTime.layout, DateTime.values, DateTime.dateChars, DateTime.timeChars]

/-- **The earlier time is the earlier text.** -/
theorem timestampChars_lt_iff {e e' : Entry} (h : InRange e.timestamp)
    (h' : InRange e'.timestamp) :
    e.timestampChars < e'.timestampChars ↔ e.timestamp < e'.timestamp := by
  have hlt : ∀ {t t' : Int}, InRange t → InRange t' → t < t' →
      row stampLayout (stampValues t) < row stampLayout (stampValues t') := fun ht ht' hlt =>
    row_lt_row (fillsRow_stampValues ht) (fillsRow_stampValues ht') (stampValues_lt hlt)
  rw [timestampChars_eq_row h, timestampChars_eq_row h']
  -- times are in one order, so the texts cannot be in another
  refine ⟨fun htext => ?_, hlt h h'⟩
  rcases lt_trichotomy e.timestamp e'.timestamp with hless | heq | hmore
  · exact hless
  · rw [heq] at htext
    exact absurd htext (lt_irrefl _)
  · exact absurd htext (lt_asymm (hlt h' h hmore))

/-! ## Reading a time back -/

/-- The second of a date and time of day, if there is such a date from 1970 on and such a time of
day. -/
def second? : List Int → Option Int
  | [year, month, day, hour, minute, second] =>
    if Date.Valid ⟨year, month, day⟩ ∧ 1970 ≤ year ∧ hour < 24 ∧ minute < 60 ∧ second < 60 then
      some (Date.count ⟨year, month, day⟩ * 86400 + hour * 3600 + minute * 60 + second)
    else none
  | _ => none

/-- Reads `YYYY-MM-DDThh:mm:ss.mmmZ` and nothing else, as milliseconds from the start of 1970. -/
def readStamp? (cs : List Char) : Option Int :=
  match readRow? (DateTime.layout 'T' '.') cs with
  | some (values, cs) =>
    match readRow? [(3, 'Z')] cs with
    | some ([milliseconds], []) => (second? values).map fun s => s * 1000 + milliseconds
    | _ => none
  | none => none

/-- Reads the time at the front of a plain line, `[YYYY-MM-DD hh:mm:ss]`, as seconds from the start
of 1970. -/
def readPlain? : List Char → Option Int
  | '[' :: cs =>
    match readRow? (DateTime.layout ' ' ']') cs with
    | some (values, _) => second? values
    | none => none
  | _ => none

/-- The text of the time in a JSON line. -/
def stampOf? (line : String) : Option String :=
  match Json.parse line with
  | .ok v =>
    match v.get? "timestamp" with
    | some (.text s) => some s
    | _ => none
  | .error _ => none

theorem second?_values {t : Int} (h : InRange t) :
    second? (DateTime.ofSeconds (t / 1000)).values = some (t / 1000) := by
  have hvalid := Date.valid_ofDays (t / 1000 / 86400)
  have hyear : 1970 ≤ (Date.ofDays (t / 1000 / 86400)).year := by
    have := h.1
    have := h.2
    exact (Date.year_ofDays (by omega) (by omega)).1
  have hcount := Date.count_eq_toDays hvalid hyear
  rw [Date.toDays_ofDays] at hcount
  simp only [DateTime.values, DateTime.ofSeconds, second?]
  rw [if_pos ⟨hvalid, hyear, by omega, by omega, by omega⟩, hcount, Option.some.injEq]
  omega

/-- **The time of a JSON line is read back to the millisecond.** -/
theorem readStamp?_timestampChars {e : Entry} (h : InRange e.timestamp) :
    readStamp? e.timestampChars = some e.timestamp := by
  have hseconds := DateTime.fillsRow_ofSeconds h 'T' '.'
  have hrest : FillsRow [(3, 'Z')] [e.timestamp % 1000] :=
    .cons ⟨Nat.succ_pos 2, by omega, by simp only; omega⟩ .nil
  have hrow : e.timestampChars =
      row (DateTime.layout 'T' '.') (DateTime.ofSeconds (e.timestamp / 1000)).values ++
        (row [(3, 'Z')] [e.timestamp % 1000] ++ []) := by
    rw [DateTime.row_values]
    simp [timestampChars, dateTime_of_inRange h, Int.tmod_eq_emod_of_nonneg h.1, row]
  have hsum : e.timestamp / 1000 * 1000 + e.timestamp % 1000 = e.timestamp := by omega
  rw [hrow, readStamp?, readRow?_row hseconds]
  simp only [readRow?_row hrest, second?_values h, Option.map_some, hsum]

/-- **The time of a plain line is read back to the second.** -/
theorem readPlain?_textLine {e : Entry} (h : InRange e.timestamp) :
    readPlain? e.textLine.toList = some (e.timestamp / 1000) := by
  obtain ⟨rest, hline⟩ : ∃ rest, e.textLine.toList = '[' :: (row (DateTime.layout ' ' ']')
      (DateTime.ofSeconds (e.timestamp / 1000)).values ++ rest) := by
    rw [DateTime.row_values, ← dateTime_of_inRange h]
    exact ⟨(" [" ++ e.level.name ++ "] [" ++ e.source ++ "] " ++ e.message ++
      contextText e.context).toList, by simp [textLine]⟩
  rw [hline, readPlain?, readRow?_row (DateTime.fillsRow_ofSeconds h ' ' ']')]
  exact second?_values h

/-- The text of the time is found in the JSON line. -/
theorem stampOf?_jsonLine (e : Entry) :
    stampOf? e.jsonLine = some (String.ofList e.timestampChars) := by
  simp only [stampOf?, parse_jsonLine, (get?_texts e).1]

/-- The time has the form `YYYY-MM-DDThh:mm:ss.mmmZ`. -/
theorem fits_timestampChars {e : Entry} (h : InRange e.timestamp) :
    List.Forall₂ Fits "0000-00-00T00:00:00.000Z".toList e.timestampChars := by
  have hzero : ∀ {width : Nat}, 0 < width → Fills width 0 := fun hpos =>
    ⟨hpos, Int.le_refl 0, by positivity⟩
  have hzeros : FillsRow stampLayout [0, 0, 0, 0, 0, 0, 0] := by
    simp [FillsRow, stampLayout, DateTime.layout, hzero]
  have hform := fits_row hzeros (fillsRow_stampValues h)
  rwa [← timestampChars_eq_row h] at hform

/--
**Times in log lines are faithful and sort as times.** For two entries of 1970 to 9999, whatever
else they hold:

* the JSON line of each has a time of the form `YYYY-MM-DDThh:mm:ss.mmmZ`, whose date is one of the
  calendar, and reading it back by the rules of the calendar gives the millisecond of the entry;
* of the two times in the JSON lines, the one that is the earlier text is the earlier time;
* the date and the time of day in the plain line are those of the second the entry falls in.
-/
theorem times_are_read_back_and_sorted (e e' : Entry) (h : InRange e.timestamp)
    (h' : InRange e'.timestamp) :
    ∃ stamp stamp' : String,
      stampOf? e.jsonLine = some stamp ∧ stampOf? e'.jsonLine = some stamp' ∧
      List.Forall₂ Fits "0000-00-00T00:00:00.000Z".toList stamp.toList ∧
      e.dateTime.date.Valid ∧
      readStamp? stamp.toList = some e.timestamp ∧
      (stamp < stamp' ↔ e.timestamp < e'.timestamp) ∧
      readPlain? e.textLine.toList = some (e.timestamp / 1000) := by
  have hchars : ∀ e : Entry, (String.ofList e.timestampChars).toList = e.timestampChars :=
    fun e => String.toList_ofList
  refine ⟨String.ofList e.timestampChars, String.ofList e'.timestampChars, stampOf?_jsonLine e,
    stampOf?_jsonLine e', ?_, Date.valid_ofDays _, ?_, ?_, readPlain?_textLine h⟩
  · rw [hchars]
    exact fits_timestampChars h
  · rw [hchars]
    exact readStamp?_timestampChars h
  · rw [String.lt_iff_toList_lt, hchars, hchars]
    exact timestampChars_lt_iff h h'

/-- An entry of the last millisecond before a leap day. -/
def beforeLeapDay : Entry where
  level := .info
  source := "scheduler"
  message := "pass complete"
  timestamp := 951782399999
  threadId := "1"

/-- An entry of the first millisecond of the leap day. -/
def onLeapDay : Entry := { beforeLeapDay with timestamp := 951782400000 }

theorem leap_day_is_read_back_and_sorted :
    InRange beforeLeapDay.timestamp ∧ InRange onLeapDay.timestamp ∧
      stampOf? beforeLeapDay.jsonLine = some "2000-02-28T23:59:59.999Z" ∧
      stampOf? onLeapDay.jsonLine = some "2000-02-29T00:00:00.000Z" ∧
      readStamp? "2000-02-28T23:59:59.999Z".toList = some 951782399999 ∧
      "2000-02-28T23:59:59.999Z" < "2000-02-29T00:00:00.000Z" ∧
      readPlain? beforeLeapDay.textLine.toList = some 951782399 := by
  have h : InRange beforeLeapDay.timestamp := by decide
  have h' : InRange onLeapDay.timestamp := by decide
  obtain ⟨stamp, stamp', hstamp, hstamp', -, -, hread, hlt, hplain⟩ :=
    times_are_read_back_and_sorted beforeLeapDay onLeapDay h h'
  obtain rfl : stamp = "2000-02-28T23:59:59.999Z" := by
    rw [stampOf?_jsonLine] at hstamp
    exact (Option.some.inj hstamp).symm.trans (by decide)
  obtain rfl : stamp' = "2000-02-29T00:00:00.000Z" := by
    rw [stampOf?_jsonLine] at hstamp'
    exact (Option.some.inj hstamp').symm.trans (by decide)
  exact ⟨h, h', hstamp, hstamp', hread, hlt.mpr (by decide), hplain⟩

end Log.Entry

end FleetScaler
