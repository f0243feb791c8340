import FleetScaler.Settings.Format

/-!
# What an overlay makes of settings

A JSON object states some settings: under a known key it holds a value of the right type. An object
can be laid over settings exactly if it holds no value of a wrong type under a known key, which is
what `WellTyped` says, and then each setting is the one that the object states, or else that of the
base.
-/

namespace FleetScaler

/-- The 32-bit number that the value holds, if it holds one. -/
def Json.word? (v : Json) : Option UInt32 :=
  v.int?.bind fun i => if 0 ≤ i ∧ i ≤ 4294967295 then some (UInt32.ofNat i.toNat) else none

namespace Settings

variable {α : Type}

/-- What the value states under a key, of the kind that `read` takes. -/
def stated (read : Json → Option α) (v : Json) (key : String) : Option α := (v.get? key).bind read

/-- The value states under a key what `read` takes, or has no such key. -/
def Readable (read : Json → Option α) (v : Json) (key : String) : Prop :=
  ∀ w, v.get? key = some w → (read w).isSome = true

/-- The keys of numbers. -/
def wordKeys : List String :=
  ["pollTime", "pollIntervalMs", "nodes", "runSeconds", "failoverAfterSeconds"]

/-- The keys of texts. -/
def textKeys : List String := ["groupPath", "nodeType", "nodeId", "logLevel", "requirementsPath"]

/-- The keys of truth values. -/
def boolKeys : List String := ["jsonLogs", "asyncLogging"]

/-- The value is an object with no value of a wrong type under a known key. -/
structure WellTyped (v : Json) : Prop where
  isObject : v.isObject = true
  words : ∀ key ∈ wordKeys, Readable Json.word? v key
  texts : ∀ key ∈ textKeys, Readable Json.text? v key
  bools : ∀ key ∈ boolKeys, Readable Json.bool? v key

/-- The settings that a value states, and those of the base where it states none. -/
def overlaid (base : Settings) (v : Json) : Settings where
  pollIntervalMs := ((stated Json.word? v "pollIntervalMs").or
    (stated Json.word? v "pollTime")).getD base.pollIntervalMs
  groupPath := (stated Json.text? v "groupPath").getD base.groupPath
  nodeType := (stated Json.text? v "nodeType").getD base.nodeType
  nodeId := (stated Json.text? v "nodeId").getD base.nodeId
  logLevel := (stated Json.text? v "logLevel").getD base.logLevel
  jsonLogs := (stated Json.bool? v "jsonLogs").getD base.jsonLogs
  asyncLogging := (stated Json.bool? v "asyncLogging").getD base.asyncLogging
  requirementsPath := (stated Json.text? v "requirementsPath").getD base.requirementsPath
  nodes := (stated Json.word? v "nodes").getD base.nodes
  runSeconds := (stated Json.word? v "runSeconds").getD base.runSeconds
  failoverAfterSeconds :=
    (stated Json.word? v "failoverAfterSeconds").getD base.failoverAfterSeconds

/-! ## Single keys -/

variable {v : Json} {key : String}

/-- A key that is read comes to what the value states under it, or else to what was there before. -/
theorem eq_ok_iff_of_read {ε : Type} {read : Json → Option α} {current a : α} {r : Except ε α}
    (absent : v.get? key = none → r = .ok current)
    (present : ∀ w b, v.get? key = some w → read w = some b → r = .ok b)
    (wrong : ∀ w, v.get? key = some w → read w = none → ∃ e, r = .error e) :
    r = .ok a ↔ Readable read v key ∧ a = (stated read v key).getD current := by
  cases hv : v.get? key with
  | none =>
      have hreadable : Readable read v key := fun w hw => absurd (hv.symm.trans hw) (by simp)
      simp only [absent hv, hreadable, stated, hv, Except.ok.injEq, Option.bind_none,
        Option.getD_none, true_and]
      exact eq_comm
  | some w =>
      cases hr : read w with
      | none =>
          obtain ⟨e, he⟩ := wrong w hv hr
          rw [he]
          constructor
          · intro h
            exact absurd h (by simp)
          · rintro ⟨hreadable, -⟩
            exact absurd (hreadable w hv) (by simp [hr])
      | some b =>
          have hreadable : Readable read v key := by
            intro w' hw'
            rw [← Option.some.inj (hv.symm.trans hw'), hr]
            rfl
          simp only [present w b hv hr, hreadable, stated, hv, hr, Except.ok.injEq,
            Option.bind_some, Option.getD_some, true_and]
          exact eq_comm

theorem readWord_eq_ok_iff {current a : UInt32} :
    readWord v key current = .ok a
      ↔ Readable Json.word? v key ∧ a = (stated Json.word? v key).getD current := by
  refine eq_ok_iff_of_read (fun hv => by simp [readWord, hv]) (fun w b hv hb => ?_)
    fun w hv hb => ?_
  · obtain ⟨i, hi, hif⟩ := Option.bind_eq_some_iff.mp hb
    split at hif
    · rename_i hrange
      simp only [readWord, hv, hi, Int.not_lt.mpr hrange.1, Int.not_lt.mpr hrange.2, if_false]
      exact congrArg _ (Option.some.inj hif)
    · exact absurd hif (by simp)
  · cases hi : w.int? with
    | none => exact ⟨.notANatural key, by simp only [readWord, hv, hi]⟩
    | some i =>
        simp only [Json.word?, hi, Option.bind_some] at hb
        simp only [readWord, hv, hi]
        split
        · exact ⟨_, rfl⟩
        · split
          · exact ⟨_, rfl⟩
          · rename_i hneg hlarge
            exact absurd hb (by simp [Int.not_lt.mp hneg, Int.not_lt.mp hlarge])

theorem readText_eq_ok_iff {current a : String} :
    readText v key current = .ok a
      ↔ Readable Json.text? v key ∧ a = (stated Json.text? v key).getD current :=
  eq_ok_iff_of_read (fun hv => by simp [readText, hv]) (fun w b hv hb => by simp [readText, hv, hb])
    fun w hv hb => ⟨.notAText key, by simp only [readText, hv, hb]⟩

theorem readBool_eq_ok_iff {current a : Bool} :
    readBool v key current = .ok a
      ↔ Readable Json.bool? v key ∧ a = (stated Json.bool? v key).getD current :=
  eq_ok_iff_of_read (fun hv => by simp [readBool, hv]) (fun w b hv hb => by simp [readBool, hv, hb])
    fun w hv hb => ⟨.notABool key, by simp only [readBool, hv, hb]⟩

/-! ## All keys -/

theorem bind_eq_ok_iff {ε β : Type} {x : Except ε α} {f : α → Except ε β} {b : β} :
    (x >>= f) = .ok b ↔ ∃ a, x = .ok a ∧ f a = .ok b := by
  cases x with
  | error e => simp [bind, Except.bind]
  | ok a => simp [bind, Except.bind]

theorem wellTyped_iff : WellTyped v ↔ v.isObject = true
    ∧ (∀ key ∈ wordKeys, Readable Json.word? v key)
    ∧ (∀ key ∈ textKeys, Readable Json.text? v key)
    ∧ ∀ key ∈ boolKeys, Readable Json.bool? v key :=
  ⟨fun h => ⟨h.isObject, h.words, h.texts, h.bools⟩, fun h => ⟨h.1, h.2.1, h.2.2.1, h.2.2.2⟩⟩

theorem getD_or (a b : Option α) (c : α) : (a.or b).getD c = a.getD (b.getD c) := by
  cases a <;> rfl

/-- **An overlay succeeds exactly for well-typed objects**, and comes to what they state. -/
theorem overlay_eq_ok_iff {base s : Settings} :
    base.overlay v = .ok s ↔ WellTyped v ∧ s = base.overlaid v := by
  unfold overlay
  by_cases ho : v.isObject = true
  · -- The keys are read in the order of the settings and listed by their types.
    simp only [ho, if_true, bind_eq_ok_iff, readWord_eq_ok_iff, readText_eq_ok_iff,
      readBool_eq_ok_iff, pure, Except.pure, Except.ok.injEq, and_assoc, exists_and_left,
      exists_eq_left, wellTyped_iff, wordKeys, textKeys, boolKeys, List.forall_mem_cons,
      List.not_mem_nil, false_implies, implies_true, true_and, overlaid, getD_or]
    constructor
    · rintro ⟨pollTime, poll, group, type, id, level, json, async, path, nodes, run, failover, rfl⟩
      exact ⟨pollTime, poll, nodes, run, failover, group, type, id, level, path, json, async, rfl⟩
    · rintro ⟨pollTime, poll, nodes, run, failover, group, type, id, level, path, json, async, rfl⟩
      exact ⟨pollTime, poll, group, type, id, level, json, async, path, nodes, run, failover, rfl⟩
  · simp only [ho, wellTyped_iff]
    simp

end Settings

end FleetScaler
