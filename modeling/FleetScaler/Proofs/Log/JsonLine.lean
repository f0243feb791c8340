import FleetScaler.Log.Entry
import FleetScaler.Proofs.Json.RoundTrip

/-!
# A JSON line is the entry

A log entry that is written as a JSON line is one JSON object, and reading the line gives the texts
of the entry back, whatever characters they hold. No text can end the string in which it stands, add
a field or begin a second line: what could is escaped, and what is left is printable.

The line is a row of fields between braces, and the context a second one inside it. Both are read
field by field (`readFields_field_next`), each from the quotes of its own text.
-/

namespace FleetScaler

namespace Json

theorem Letters.readable_logLine : Letters.logLine.Readable where
  known c l h := by
    unfold Letters.logLine at h
    split at h <;> first | (obtain rfl := Option.some.inj h; rfl) | exact absurd h (by simp)
  quotationMark := by decide
  backslash := by decide

/-! ## What stands between quotes -/

/-- A character that is no control character. -/
def IsPrintable (c : Char) : Prop := 0x20 ≤ c.toNat

instance (c : Char) : Decidable (IsPrintable c) := Nat.decLe _ _

theorem toNat_of_isDigit {c : Char} (h : isDigit c = true) : 48 ≤ c.toNat ∧ c.toNat ≤ 57 := by
  have hc : '0' ≤ c ∧ c ≤ '9' := by simpa [isDigit] using h
  exact ⟨UInt32.le_iff_toNat_le.mp hc.1, UInt32.le_iff_toNat_le.mp hc.2⟩

theorem isPrintable_of_unletter? {l c : Char} (h : unletter? l = some c) : IsPrintable l := by
  unfold unletter? at h
  split at h <;> first | (simp [IsPrintable]; done) | exact absurd h (by simp)

theorem isPrintable_hexDigit : ∀ n < 16, IsPrintable (hexDigit n) := by decide

/-- Quoted text holds no control character. -/
theorem Letters.Readable.isPrintable_encode {letters : Letters} (hl : letters.Readable)
    (s : List Char) : ∀ c ∈ encode letters s, IsPrintable c := by
  intro c hc
  obtain ⟨d, -, hd⟩ := List.mem_flatMap.mp hc
  unfold encodeChar at hd
  cases h : letters d with
  | some l =>
      have hprint := isPrintable_of_unletter? (hl.known d l h)
      simp only [h, List.mem_cons, List.not_mem_nil, or_false] at hd
      rcases hd with rfl | rfl
      · simp [IsPrintable]
      · exact hprint
  | none =>
      simp only [h] at hd
      by_cases hcontrol : d.toNat < 0x20
      · simp only [hcontrol, if_true, List.mem_cons, List.not_mem_nil, or_false] at hd
        rcases hd with rfl | rfl | rfl | rfl | rfl | rfl
        · simp [IsPrintable]
        · simp [IsPrintable]
        · simp [IsPrintable]
        · simp [IsPrintable]
        · exact isPrintable_hexDigit _ (by omega)
        · exact isPrintable_hexDigit _ (by omega)
      · simp only [hcontrol, if_false, List.mem_singleton] at hd
        rw [hd, IsPrintable]
        omega

/-- A text that needs no escape stands between the quotes as it is. -/
theorem encode_eq_self {letters : Letters} {s : List Char}
    (h : ∀ c ∈ s, letters c = none ∧ IsPrintable c) : encode letters s = s := by
  induction s with
  | nil => rfl
  | cons c s ih =>
      obtain ⟨hnone, hprint⟩ := h c List.mem_cons_self
      have hc : ¬ c.toNat < 0x20 := Nat.not_lt.mpr hprint
      rw [encode, List.flatMap_cons, encodeChar, hnone]
      simp only [hc, if_false, List.singleton_append, List.cons.injEq, true_and]
      exact ih fun d hd => h d (List.mem_cons_of_mem _ hd)

end Json

namespace Log.Entry

open Json

/-! ## Fields -/

theorem isPrintable_quoted (s : String) : ∀ c ∈ quoted s, IsPrintable c := by
  intro c hc
  simp only [quoted, quote, List.mem_cons, List.cons_append, List.mem_append, List.not_mem_nil,
    or_false] at hc
  rcases hc with rfl | hc | rfl
  · simp [IsPrintable]
  · exact Letters.readable_logLine.isPrintable_encode _ c hc
  · simp [IsPrintable]

theorem isPrintable_field (key value : String) : ∀ c ∈ field key value, IsPrintable c := by
  intro c hc
  rw [field, List.mem_append, List.mem_cons] at hc
  rcases hc with hc | rfl | hc
  · exact isPrintable_quoted key c hc
  · simp [IsPrintable]
  · exact isPrintable_quoted value c hc

variable {fuel : Nat} {rest rest' : List Char}

theorem field_append (key value : String) (rest : List Char) :
    field key value ++ rest =
      '"' :: (encode Letters.logLine key.toList ++ '"' :: ':' ::
        '"' :: (encode Letters.logLine value.toList ++ '"' :: rest)) := by
  simp [field, quoted, quote]

theorem decode_logLine (s : String) (rest : List Char) :
    decode (encode Letters.logLine s.toList ++ '"' :: rest) = some (s.toList, rest) :=
  Letters.readable_logLine.decode_encode s.toList rest

/-- The last field before the closing brace. -/
theorem readFields_field_last (key value : String) :
    readFields (fuel + 2) (field key value ++ '\x7d' :: rest) =
      .ok ([(key, .text value)], rest) := by
  rw [field_append]
  exact readFields_last (decode_logLine key _) (skipBlank_of_not_blank (by decide))
    (readValue_text (decode_logLine value _)) (skipBlank_of_not_blank (by decide))

/-- A field with another one behind it. -/
theorem readFields_field_next {fields : List (String × Json)} (key value : String)
    (h : readFields (fuel + 1) ('"' :: rest) = .ok (fields, rest')) :
    readFields (fuel + 2) (field key value ++ ',' :: '"' :: rest) =
      .ok ((key, .text value) :: fields, rest') := by
  rw [field_append]
  refine readFields_next (decode_logLine key _) (skipBlank_of_not_blank (by decide))
    (readValue_text (decode_logLine value _)) (skipBlank_of_not_blank (by decide)) ?_
  rw [skipBlank_of_not_blank (by decide)]
  exact h

theorem readFields_field_field {fields : List (String × Json)} (key value key' value' : String)
    (h : readFields (fuel + 1) (field key' value' ++ rest) = .ok (fields, rest')) :
    readFields (fuel + 2) (field key value ++ ',' :: (field key' value' ++ rest)) =
      .ok ((key, .text value) :: fields, rest') := by
  rw [field_append key'] at h ⊢
  exact readFields_field_next key value h

/-! ## The context -/

/-- The named values of an entry as JSON. -/
def contextValues (context : List (String × String)) : List (String × Json) :=
  context.map fun (key, value) => (key, .text value)

theorem contextFields_cons (key value : String) (next : String × String)
    (context : List (String × String)) :
    contextFields ((key, value) :: next :: context)
      = field key value ++ ',' :: contextFields (next :: context) := by
  simp [contextFields, List.intercalate]

theorem contextFields_eq_cons (next : String × String) (context : List (String × String)) :
    ∃ cs, contextFields (next :: context) = '"' :: cs := by
  obtain ⟨key, value⟩ := next
  cases context with
  | nil => exact ⟨_, by simpa [contextFields, List.intercalate] using field_append key value []⟩
  | cons next context =>
      rw [contextFields_cons, field_append]
      exact ⟨_, rfl⟩

/-- The named values are read as they are. -/
theorem readFields_contextFields (next : String × String) (context : List (String × String))
    (hfuel : context.length + 2 ≤ fuel) :
    readFields fuel (contextFields (next :: context) ++ '\x7d' :: rest) =
      .ok (contextValues (next :: context), rest) := by
  obtain ⟨fuel, rfl⟩ : ∃ n, fuel = n + 2 := ⟨fuel - 2, by omega⟩
  -- by the context: a field spends one unit of fuel, the last of them two
  induction context generalizing next fuel with
  | nil =>
      obtain ⟨key, value⟩ := next
      have hone : contextFields [(key, value)] = field key value := by
        simp [contextFields, List.intercalate]
      rw [hone]
      exact readFields_field_last key value
  | cons next' context ih =>
      obtain ⟨key, value⟩ := next
      rw [List.length_cons] at hfuel
      obtain ⟨fuel, rfl⟩ : ∃ n, fuel = n + 1 := ⟨fuel - 1, by omega⟩
      have hread := ih next' fuel (by omega)
      obtain ⟨cs, hcs⟩ := contextFields_eq_cons next' context
      rw [hcs, List.cons_append] at hread
      rw [contextFields_cons, hcs, List.append_assoc, List.cons_append, List.cons_append]
      exact readFields_field_next key value hread

theorem length_contextFields (next : String × String) (context : List (String × String)) :
    context.length < (contextFields (next :: context)).length := by
  induction context generalizing next with
  | nil =>
      obtain ⟨cs, hcs⟩ := contextFields_eq_cons next []
      simp [hcs]
  | cons next' context ih =>
      have hrest := ih next'
      rw [contextFields_cons, List.length_append, List.length_cons, List.length_cons]
      omega

/-! ## The line -/

/-- The last field of the entry as JSON; nothing if there are no named values. -/
def contextValue : List (String × String) → List (String × Json)
  | [] => []
  | context => [("context", .object (contextValues context))]

/-- The entry as a JSON object. -/
def toJson (e : Entry) : Json :=
  .object ([("timestamp", .text (String.ofList e.timestampChars)), ("level", .text e.level.name),
    ("module", .text e.source), ("thread_id", .text e.threadId), ("message", .text e.message)] ++
    contextValue e.context)

theorem isDigit_or_minus_of_mem_zeroFilled {width : Nat} {i : Int} {c : Char}
    (h : c ∈ zeroFilled width i) : isDigit c = true ∨ c = '-' := by
  have hdigits : ∀ c ∈ Nat.toDigits 10 i.natAbs, isDigit c = true := fun c hc =>
    isDigit_of_mem_toDigits hc
  rw [zeroFilled, List.mem_append, List.mem_replicate] at h
  rcases h with ⟨-, rfl⟩ | h
  · exact .inl (by decide)
  · split at h
    · rw [List.mem_cons] at h
      exact h.symm.imp_left (hdigits c)
    · exact .inl (hdigits c h)

theorem plain_of_isDigit {c : Char} (h : isDigit c = true) :
    Letters.logLine c = none ∧ IsPrintable c := by
  have hdigit := toNat_of_isDigit h
  refine ⟨?_, by rw [IsPrintable]; omega⟩
  unfold Letters.logLine
  split <;> first | rfl | exact absurd h (by decide)

/-- A time holds nothing that needs an escape. -/
theorem encode_timestampChars (e : Entry) :
    encode Letters.logLine e.timestampChars = e.timestampChars := by
  refine encode_eq_self ?_
  have hnumber : ∀ (width : Nat) (i : Int), ∀ c ∈ zeroFilled width i,
      Letters.logLine c = none ∧ IsPrintable c := by
    intro width i c hc
    rcases isDigit_or_minus_of_mem_zeroFilled hc with h | rfl
    · exact plain_of_isDigit h
    · exact ⟨rfl, by decide⟩
  have hmark : ∀ c ∈ ['-', ':', 'T', '.', 'Z'], Letters.logLine c = none ∧ IsPrintable c := by
    simp [Letters.logLine, IsPrintable]
  intro c hc
  simp only [timestampChars, DateTime.dateChars, DateTime.timeChars, List.mem_append,
    List.mem_cons, List.not_mem_nil, or_false] at hc
  rcases hc with ((((hc | rfl | hc) | rfl | hc) | rfl | (hc | rfl | hc) | rfl | hc) |
    rfl | hc) | rfl
  all_goals first | exact hnumber _ _ _ hc | exact hmark _ (by simp)

/-- The line is a row of fields between braces. -/
theorem toList_jsonLine (e : Entry) :
    e.jsonLine.toList = '\x7b' ::
      (field "timestamp" (String.ofList e.timestampChars) ++ ',' :: (field "level" e.level.name ++
        ',' :: (field "module" e.source ++ ',' :: (field "thread_id" e.threadId ++
          ',' :: (field "message" e.message ++ (contextPart e.context ++ ['\x7d'])))))) := by
  simp [jsonLine, jsonFields, field, quoted, quote, encode_timestampChars]

theorem isPrintable_contextFields (context : List (String × String)) :
    ∀ c ∈ contextFields context, IsPrintable c := by
  intro c hc
  induction context with
  | nil => exact absurd hc (by simp [contextFields])
  | cons next context ih =>
      obtain ⟨key, value⟩ := next
      cases context with
      | nil =>
          refine isPrintable_field key value c ?_
          simpa [contextFields, List.intercalate] using hc
      | cons next' context =>
          rw [contextFields_cons, List.mem_append, List.mem_cons] at hc
          rcases hc with hc | rfl | hc
          · exact isPrintable_field key value c hc
          · decide
          · exact ih hc

/-- **The line holds no control character**, so it is a single one. -/
theorem isPrintable_jsonLine (e : Entry) : ∀ c ∈ e.jsonLine.toList, IsPrintable c := by
  have hcontext : ∀ c ∈ contextPart e.context, IsPrintable c := by
    intro c hc
    cases hcases : e.context with
    | nil => exact absurd hc (by simp [hcases, contextPart])
    | cons next context =>
        simp only [hcases, contextPart, List.mem_append, List.mem_cons, List.not_mem_nil,
          or_false] at hc
        rcases hc with ((rfl | hc) | rfl | rfl | hc) | rfl
        · decide
        · exact isPrintable_quoted "context" c hc
        · decide
        · decide
        · exact isPrintable_contextFields _ c hc
        · decide
  intro c hc
  simp only [toList_jsonLine, List.mem_append, List.mem_cons, List.not_mem_nil, or_false] at hc
  rcases hc with rfl | hc | rfl | hc | rfl | hc | rfl | hc | rfl | hc | hc | rfl
  · decide
  · exact isPrintable_field _ _ c hc
  · decide
  · exact isPrintable_field _ _ c hc
  · decide
  · exact isPrintable_field _ _ c hc
  · decide
  · exact isPrintable_field _ _ c hc
  · decide
  · exact isPrintable_field _ _ c hc
  · exact hcontext c hc
  · decide

/-- The context is read behind the last of the other fields. -/
theorem readFields_contextPart (key value : String) (context : List (String × String))
    (hfuel : context.length + 4 ≤ fuel) :
    readFields fuel (field key value ++ (contextPart context ++ '\x7d' :: rest)) =
      .ok ((key, .text value) :: contextValue context, rest) := by
  obtain ⟨fuel, rfl⟩ : ∃ n, fuel = n + 3 := ⟨fuel - 3, by omega⟩
  cases context with
  | nil => exact readFields_field_last key value
  | cons next context =>
      rw [List.length_cons] at hfuel
      have hread : readFields fuel (contextFields (next :: context) ++ '\x7d' :: '\x7d' :: rest) =
          .ok (contextValues (next :: context), '\x7d' :: rest) :=
        readFields_contextFields next context (by omega)
      obtain ⟨cs, hcs⟩ := contextFields_eq_cons next context
      have hobject : readValue (fuel + 1)
          ('\x7b' :: (contextFields (next :: context) ++ '\x7d' :: '\x7d' :: rest)) =
            .ok (.object (contextValues (next :: context)), '\x7d' :: rest) := by
        rw [hcs, List.cons_append] at hread ⊢
        exact readValue_fields (skipBlank_of_not_blank (by decide)) (by decide) hread
      have hlast : readFields (fuel + 2) ('"' :: (encode Letters.logLine "context".toList ++ '"' ::
          ':' :: '\x7b' :: (contextFields (next :: context) ++ '\x7d' :: '\x7d' :: rest))) =
            .ok ([("context", .object (contextValues (next :: context)))], rest) := by
        refine readFields_last (decode_logLine "context" _) (skipBlank_of_not_blank (by decide)) ?_
          (skipBlank_of_not_blank (by decide))
        rw [skipBlank_of_not_blank (by decide)]
        exact hobject
      have hpart : contextPart (next :: context) ++ '\x7d' :: rest = ',' :: '"' ::
          (encode Letters.logLine "context".toList ++ '"' ::
            ':' :: '\x7b' :: (contextFields (next :: context) ++ '\x7d' :: '\x7d' :: rest)) := by
        simp [contextPart, quoted, quote]
      rw [hpart]
      exact readFields_field_next key value hlast

theorem length_context_le (context : List (String × String)) :
    context.length ≤ (contextPart context).length := by
  cases context with
  | nil => exact Nat.le_refl 0
  | cons next context =>
      have hfields := length_contextFields next context
      simp only [contextPart, List.length_append, List.length_cons]
      omega

/-- The reader takes the line for the entry as JSON and leaves nothing of it. -/
theorem readFirst_jsonLine (e : Entry) : readFirst e.jsonLine = .ok (e.toJson, []) := by
  have hlong : e.context.length + 5 ≤ e.jsonLine.toList.length := by
    have hcontext := length_context_le e.context
    simp only [toList_jsonLine, List.length_append, List.length_cons, List.length_nil]
    omega
  obtain ⟨fuel, hfuel⟩ : ∃ n, 2 * e.jsonLine.toList.length + 2 = n + 7 :=
    ⟨2 * e.jsonLine.toList.length - 5, by omega⟩
  have hmessage : readFields (fuel + 2)
      (field "message" e.message ++ (contextPart e.context ++ ['\x7d'])) =
        .ok (("message", .text e.message) :: contextValue e.context, []) :=
    readFields_contextPart "message" e.message e.context (by omega)
  have hstart : skipBlank (withoutMark e.jsonLine.toList) = e.jsonLine.toList := by
    rw [toList_jsonLine]
    rfl
  have hfields : readFields (fuel + 6) (field "timestamp" (String.ofList e.timestampChars) ++
      ',' :: (field "level" e.level.name ++ ',' :: (field "module" e.source ++
        ',' :: (field "thread_id" e.threadId ++ ',' :: (field "message" e.message ++
          (contextPart e.context ++ ['\x7d'])))))) =
      .ok ([("timestamp", .text (String.ofList e.timestampChars)), ("level", .text e.level.name),
        ("module", .text e.source), ("thread_id", .text e.threadId),
        ("message", .text e.message)] ++ contextValue e.context, []) :=
    readFields_field_field _ _ _ _ (readFields_field_field _ _ _ _
      (readFields_field_field _ _ _ _ (readFields_field_field _ _ _ _ hmessage)))
  rw [readFirst, hstart, fuelFor, hfuel, toList_jsonLine]
  rw [field_append "timestamp"] at hfields ⊢
  exact readValue_fields (skipBlank_of_not_blank (by decide)) (by decide) hfields

theorem parse_jsonLine (e : Entry) : parse e.jsonLine = .ok e.toJson := by
  rw [parse, readFirst_jsonLine]
  rfl

/-- The texts of the object, apart from the context. -/
theorem get?_texts (e : Entry) :
    e.toJson.get? "timestamp" = some (.text (String.ofList e.timestampChars)) ∧
      e.toJson.get? "level" = some (.text e.level.name) ∧
      e.toJson.get? "module" = some (.text e.source) ∧
      e.toJson.get? "thread_id" = some (.text e.threadId) ∧
      e.toJson.get? "message" = some (.text e.message) := by
  cases hc : e.context <;> simp [toJson, contextValue, hc, get?, lookup]

theorem get?_context (e : Entry) : e.toJson.get? "context" =
    if e.context = [] then none else some (.object (contextValues e.context)) := by
  cases hc : e.context with
  | nil => simp [toJson, contextValue, hc, get?, lookup]
  | cons next context => simp [toJson, contextValue, hc, get?, lookup]

theorem contextValues_inj {context context' : List (String × String)}
    (h : contextValues context = contextValues context') : context = context' := by
  have hinj : ∀ (p q : String × String), (p.1, Json.text p.2) = (q.1, Json.text q.2) → p = q := by
    intro p q hpq
    rw [Prod.mk.injEq, Json.text.injEq] at hpq
    exact Prod.ext hpq.1 hpq.2
  exact (List.map_inj_right hinj).mp h

/-- The context is told by its field in the JSON line. -/
theorem context_eq_of_get? {e e' : Entry}
    (h : e'.toJson.get? "context" = e.toJson.get? "context") : e'.context = e.context := by
  rw [get?_context, get?_context] at h
  split at h <;> split at h
  · simp_all
  · exact absurd h (by simp)
  · exact absurd h (by simp)
  · exact contextValues_inj (Json.object.inj (Option.some.inj h))

/--
**A JSON line is one JSON object that holds the entry.** Whatever the time, the level and the texts
of an entry are:

* its line holds no control character, so it is a single one, and none of its texts can end it;
* the reader takes the whole line for one object and leaves nothing of it, not even a blank. Since
  the line starts with a brace and holds no NUL character, the reader has nothing to overlook: no
  mark at the start, no text after the end;
* the strings of the object are the texts of the entry and the name of its level. The context is
  there exactly if the entry has one, with its keys and values and no others;
* so two entries with one line are the same in all this.
-/
theorem json_line_holds_entry (e : Entry) :
    (∀ c ∈ e.jsonLine.toList, IsPrintable c) ∧
    e.jsonLine.toList.head? = some '\x7b' ∧
    readFirst e.jsonLine = .ok (e.toJson, []) ∧ parse e.jsonLine = .ok e.toJson ∧
    e.toJson.isObject = true ∧
    e.toJson.get? "level" = some (.text e.level.name) ∧
    e.toJson.get? "module" = some (.text e.source) ∧
    e.toJson.get? "thread_id" = some (.text e.threadId) ∧
    e.toJson.get? "message" = some (.text e.message) ∧
    (e.toJson.get? "context" =
      if e.context = [] then none
      else some (.object (e.context.map fun (key, value) => (key, .text value)))) ∧
    ∀ e' : Entry, e'.jsonLine = e.jsonLine →
      e'.level.name = e.level.name ∧ e'.source = e.source ∧ e'.threadId = e.threadId ∧
        e'.message = e.message ∧ e'.context = e.context := by
  obtain ⟨-, hlevel, hsource, hthread, hmessage⟩ := get?_texts e
  refine ⟨isPrintable_jsonLine e, by rw [toList_jsonLine]; rfl, readFirst_jsonLine e,
    parse_jsonLine e, rfl, hlevel, hsource, hthread, hmessage, get?_context e, fun e' h => ?_⟩
  have hjson : e'.toJson = e.toJson := by
    have hparse := parse_jsonLine e'
    rw [h, parse_jsonLine e] at hparse
    exact (Except.ok.inj hparse).symm
  obtain ⟨-, hlevel', hsource', hthread', hmessage'⟩ := get?_texts e'
  rw [hjson] at hlevel' hsource' hthread' hmessage'
  refine ⟨?_, ?_, ?_, ?_, context_eq_of_get? (congrArg (get? "context") hjson)⟩
  · exact Json.text.inj (Option.some.inj (hlevel'.symm.trans hlevel))
  · exact Json.text.inj (Option.some.inj (hsource'.symm.trans hsource))
  · exact Json.text.inj (Option.some.inj (hthread'.symm.trans hthread))
  · exact Json.text.inj (Option.some.inj (hmessage'.symm.trans hmessage))

end Log.Entry

end FleetScaler
