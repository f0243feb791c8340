import FleetScaler.Proofs.Settings.Overlay

/-!
# Overlays are exact

What an overlay accepts and what it comes to, said of the values themselves and not of how they are
read. A number may stand in either representation of whole numbers and has to fit 32 bits; no
decimal is one, and nothing is made of `null`. What the settings are written as states each of them,
so that it can be laid over any others and comes to the same settings again.
-/

namespace FleetScaler

/-! ## What a value holds -/

namespace Json

/-- The value holds the 32-bit number, in either representation. -/
def HoldsWord (n : UInt32) (w : Json) : Prop := w = .unsigned n.toNat ∨ w = .signed n.toNat

/-- The value holds the text. -/
def HoldsText (s : String) (w : Json) : Prop := w = .text s

/-- The value holds the truth value. -/
def HoldsBool (b : Bool) (w : Json) : Prop := w = .bool b

/-- A whole number is cut to 32 bits without loss if it fits them. -/
theorem ofNat_toNat_eq_iff {i : Int} {n : UInt32} :
    (if 0 ≤ i ∧ i ≤ 4294967295 then some (UInt32.ofNat i.toNat) else none) = some n
      ↔ i = n.toNat := by
  have hn := n.toNat_lt
  constructor
  · intro h
    split at h
    · rename_i hbounds
      obtain rfl := Option.some.inj h
      have hlt : i.toNat < UInt32.size := by
        simp only [UInt32.size]
        omega
      rw [UInt32.toNat_ofNat_of_lt' hlt]
      omega
    · exact absurd h (by simp)
  · rintro rfl
    rw [if_pos (by omega), Int.toNat_natCast, UInt32.ofNat_toNat]

theorem word?_eq_some_iff {w : Json} {n : UInt32} : w.word? = some n ↔ HoldsWord n w := by
  cases w with
  | unsigned m =>
      have hm : ((m : Int) = n.toNat) ↔ m = n.toNat := Int.ofNat_inj
      simp only [word?, int?, Option.bind_some, ofNat_toNat_eq_iff, HoldsWord, hm, unsigned.injEq,
        reduceCtorEq, or_false]
  | signed i =>
      simp only [word?, int?, Option.bind_some, ofNat_toNat_eq_iff, HoldsWord, signed.injEq,
        reduceCtorEq, false_or]
  | _ => simp [word?, int?, HoldsWord]

theorem text?_eq_some_iff {w : Json} {s : String} : w.text? = some s ↔ HoldsText s w := by
  cases w <;> simp [text?, HoldsText]

theorem bool?_eq_some_iff {w : Json} {b : Bool} : w.bool? = some b ↔ HoldsBool b w := by
  cases w <;> simp [bool?, HoldsBool]

end Json

namespace Settings

open Json (HoldsWord HoldsText HoldsBool)

variable {α : Type}

/-- The value holds something under the key, or has no such key. -/
def Admits (holds : α → Json → Prop) (v : Json) (key : String) : Prop :=
  ∀ w, v.get? key = some w → ∃ a, holds a w

/-- The setting is what the value holds under the key, or as said if there is no such key. -/
def Takes (holds : α → Json → Prop) (v : Json) (key : String) (otherwise a : α) : Prop :=
  (∃ w, v.get? key = some w ∧ holds a w) ∨ (v.get? key = none ∧ a = otherwise)

/-- The value is an object that holds the right kind of thing under every key that is known. -/
structure Acceptable (v : Json) : Prop where
  isObject : v.isObject = true
  words : ∀ key ∈ wordKeys, Admits HoldsWord v key
  texts : ∀ key ∈ textKeys, Admits HoldsText v key
  bools : ∀ key ∈ boolKeys, Admits HoldsBool v key

/-- Each setting is the one under its key, or that of the base. -/
structure Laid (base : Settings) (v : Json) (s : Settings) : Prop where
  /-- Of the two keys of the poll interval, `pollIntervalMs` counts. -/
  pollIntervalMs : ∃ pollTime, Takes HoldsWord v "pollTime" base.pollIntervalMs pollTime ∧
    Takes HoldsWord v "pollIntervalMs" pollTime s.pollIntervalMs
  groupPath : Takes HoldsText v "groupPath" base.groupPath s.groupPath
  nodeType : Takes HoldsText v "nodeType" base.nodeType s.nodeType
  nodeId : Takes HoldsText v "nodeId" base.nodeId s.nodeId
  logLevel : Takes HoldsText v "logLevel" base.logLevel s.logLevel
  jsonLogs : Takes HoldsBool v "jsonLogs" base.jsonLogs s.jsonLogs
  asyncLogging : Takes HoldsBool v "asyncLogging" base.asyncLogging s.asyncLogging
  requirementsPath : Takes HoldsText v "requirementsPath" base.requirementsPath s.requirementsPath
  nodes : Takes HoldsWord v "nodes" base.nodes s.nodes
  runSeconds : Takes HoldsWord v "runSeconds" base.runSeconds s.runSeconds
  failoverAfterSeconds :
    Takes HoldsWord v "failoverAfterSeconds" base.failoverAfterSeconds s.failoverAfterSeconds

/-- The values have the same under every key that is known; other keys may differ. -/
structure Alike (v v' : Json) : Prop where
  isObject : v.isObject = v'.isObject
  keys : ∀ key ∈ wordKeys ++ textKeys ++ boolKeys, v.get? key = v'.get? key

/-! ## Single keys -/

variable {v v' : Json} {key : String} {base s : Settings}

theorem readable_iff_admits {read : Json → Option α} {holds : α → Json → Prop}
    (hread : ∀ {w a}, read w = some a ↔ holds a w) : Readable read v key ↔ Admits holds v key := by
  simp only [Readable, Admits, Option.isSome_iff_exists, hread]

/-- What is stated under a key is what a setting takes from it. -/
theorem takes_iff {read : Json → Option α} {holds : α → Json → Prop}
    (hread : ∀ {w a}, read w = some a ↔ holds a w) {otherwise a : α} :
    Takes holds v key otherwise a ↔
      Readable read v key ∧ a = (stated read v key).getD otherwise := by
  cases hv : v.get? key with
  | none => simp [Takes, Readable, stated, hv]
  | some w =>
      simp only [Takes, Readable, stated, hv, Option.some.injEq, exists_eq_left', reduceCtorEq,
        false_and, or_false, forall_eq', Option.bind_some, ← hread]
      cases read w with
      | none => simp
      | some b => simp [eq_comm]

/-! ## All keys -/

theorem wellTyped_iff_acceptable : WellTyped v ↔ Acceptable v := by
  simp only [wellTyped_iff, readable_iff_admits Json.word?_eq_some_iff,
    readable_iff_admits Json.text?_eq_some_iff, readable_iff_admits Json.bool?_eq_some_iff]
  exact ⟨fun h => ⟨h.1, h.2.1, h.2.2.1, h.2.2.2⟩,
    fun h => ⟨h.isObject, h.words, h.texts, h.bools⟩⟩

theorem Laid.of_wellTyped (h : WellTyped v) (base : Settings) : Laid base v (base.overlaid v) := by
  have word : ∀ key ∈ wordKeys, ∀ otherwise, Takes HoldsWord v key otherwise
      ((stated Json.word? v key).getD otherwise) :=
    fun key hkey _ => (takes_iff Json.word?_eq_some_iff).mpr ⟨h.words key hkey, rfl⟩
  have text : ∀ key ∈ textKeys, ∀ otherwise, Takes HoldsText v key otherwise
      ((stated Json.text? v key).getD otherwise) :=
    fun key hkey _ => (takes_iff Json.text?_eq_some_iff).mpr ⟨h.texts key hkey, rfl⟩
  have bool : ∀ key ∈ boolKeys, ∀ otherwise, Takes HoldsBool v key otherwise
      ((stated Json.bool? v key).getD otherwise) :=
    fun key hkey _ => (takes_iff Json.bool?_eq_some_iff).mpr ⟨h.bools key hkey, rfl⟩
  refine
    { pollIntervalMs := ⟨_, word "pollTime" (by decide) _, ?_⟩
      groupPath := text "groupPath" (by decide) _
      nodeType := text "nodeType" (by decide) _
      nodeId := text "nodeId" (by decide) _
      logLevel := text "logLevel" (by decide) _
      jsonLogs := bool "jsonLogs" (by decide) _
      asyncLogging := bool "asyncLogging" (by decide) _
      requirementsPath := text "requirementsPath" (by decide) _
      nodes := word "nodes" (by decide) _
      runSeconds := word "runSeconds" (by decide) _
      failoverAfterSeconds := word "failoverAfterSeconds" (by decide) _ }
  rw [overlaid, getD_or]
  exact word "pollIntervalMs" (by decide) _

/-- **An overlay succeeds exactly with the settings that are laid over the base.** -/
theorem overlay_eq_ok_iff_laid : base.overlay v = .ok s ↔ v.isObject = true ∧ Laid base v s := by
  rw [overlay_eq_ok_iff]
  constructor
  · rintro ⟨h, rfl⟩
    exact ⟨h.isObject, .of_wellTyped h base⟩
  · rintro ⟨ho, ⟨pollTime, htime, hpoll⟩, hgroup, htype, hid, hlevel, hjson, hasync, hpath, hnodes,
      hrun, hfailover⟩
    rw [takes_iff Json.word?_eq_some_iff] at htime hpoll hnodes hrun hfailover
    rw [takes_iff Json.text?_eq_some_iff] at hgroup htype hid hlevel hpath
    rw [takes_iff Json.bool?_eq_some_iff] at hjson hasync
    constructor
    · rw [wellTyped_iff]
      simp only [wordKeys, textKeys, boolKeys, List.forall_mem_cons, List.not_mem_nil,
        false_implies, implies_true, and_true]
      exact ⟨ho, ⟨htime.1, hpoll.1, hnodes.1, hrun.1, hfailover.1⟩,
        ⟨hgroup.1, htype.1, hid.1, hlevel.1, hpath.1⟩, hjson.1, hasync.1⟩
    · rw [overlaid, getD_or, ← htime.2, ← hpoll.2, ← hgroup.2, ← htype.2, ← hid.2, ← hlevel.2,
        ← hjson.2, ← hasync.2, ← hpath.2, ← hnodes.2, ← hrun.2, ← hfailover.2]

/-- Every known key is read by itself, so values that are alike under them cannot be told apart. -/
theorem overlay_congr (h : Alike v v') (base : Settings) : base.overlay v = base.overlay v' := by
  have hkey : ∀ key ∈ wordKeys ++ textKeys ++ boolKeys, v.get? key = v'.get? key := h.keys
  simp only [wordKeys, textKeys, boolKeys, List.cons_append, List.nil_append,
    List.forall_mem_cons] at hkey
  simp only [overlay, readWord, readText, readBool, h.isObject, hkey]

/-! ## There and back, and twice -/

theorem laid_toJson (base s : Settings) : Laid base s.toJson s where
  -- what is written has one of the two keys
  pollIntervalMs := ⟨base.pollIntervalMs, .inr ⟨rfl, rfl⟩, .inl ⟨_, rfl, .inl rfl⟩⟩
  groupPath := .inl ⟨_, rfl, rfl⟩
  nodeType := .inl ⟨_, rfl, rfl⟩
  nodeId := .inl ⟨_, rfl, rfl⟩
  logLevel := .inl ⟨_, rfl, rfl⟩
  jsonLogs := .inl ⟨_, rfl, rfl⟩
  asyncLogging := .inl ⟨_, rfl, rfl⟩
  requirementsPath := .inl ⟨_, rfl, rfl⟩
  nodes := .inl ⟨_, rfl, .inl rfl⟩
  runSeconds := .inl ⟨_, rfl, .inl rfl⟩
  failoverAfterSeconds := .inl ⟨_, rfl, .inl rfl⟩

/-- Settings that are written down and read again are the same, whatever they are laid over. -/
theorem overlay_toJson (base s : Settings) : base.overlay s.toJson = .ok s :=
  overlay_eq_ok_iff_laid.mpr ⟨rfl, laid_toJson base s⟩

theorem getD_twice (o : Option α) (a : α) : o.getD (o.getD a) = o.getD a := by
  cases o <;> rfl

theorem overlaid_overlaid (base : Settings) (v : Json) :
    (base.overlaid v).overlaid v = base.overlaid v := by
  simp only [overlaid, getD_twice]

theorem overlay_bind_overlay (base : Settings) (v : Json) :
    (base.overlay v).bind (·.overlay v) = base.overlay v := by
  cases h : base.overlay v with
  | error e => rfl
  | ok s =>
      obtain ⟨htyped, rfl⟩ := overlay_eq_ok_iff.mp h
      exact overlay_eq_ok_iff.mpr ⟨htyped, (overlaid_overlaid base v).symm⟩

/-- **An overlay is exact.** It succeeds exactly for objects that hold the right kind of thing under
every key that is known, and then with each setting from its own key, or from the base if the key is
absent. Keys that are not known make no difference. What settings are written as comes to the same
settings, whatever it is laid over, and laying a value over twice is laying it over once. -/
theorem overlay_is_exact (base : Settings) (v : Json) :
    ((∃ s, base.overlay v = .ok s) ↔ Acceptable v) ∧
      (∀ s, base.overlay v = .ok s ↔ v.isObject = true ∧ Laid base v s) ∧
      (∀ v', Alike v v' → base.overlay v = base.overlay v') ∧
      (∀ s : Settings, base.overlay s.toJson = .ok s) ∧
      (base.overlay v).bind (·.overlay v) = base.overlay v := by
  refine ⟨?_, fun _ => overlay_eq_ok_iff_laid, fun _ h => overlay_congr h base,
    overlay_toJson base, overlay_bind_overlay base v⟩
  simp only [overlay_eq_ok_iff, wellTyped_iff_acceptable, exists_and_left, exists_eq, and_true]

/-- An object with both keys of the poll interval and with two that are not known. -/
def cluttered : Json :=
  .object [("colour", .null), ("pollTime", .unsigned 250), ("pollIntervalMs", .signed 500),
    ("nodeId", .text "a"), ("nodes ", .decimal 15 (-1))]

/-- The same object with the known keys alone, in another order. -/
def tidied : Json :=
  .object [("nodeId", .text "a"), ("pollIntervalMs", .signed 500), ("pollTime", .unsigned 250)]

/-- The clutter makes no difference, and `pollIntervalMs` counts. -/
theorem cluttered_overlay :
    Alike cluttered tidied ∧
      Settings.overlay {} cluttered = Settings.overlay {} tidied ∧
      Settings.overlay {} cluttered = .ok { pollIntervalMs := 500, nodeId := "a" } := by
  have halike : Alike cluttered tidied := by
    refine ⟨rfl, ?_⟩
    intro key hkey
    simp only [wordKeys, textKeys, boolKeys, List.cons_append, List.nil_append, List.mem_cons,
      List.not_mem_nil, or_false] at hkey
    rcases hkey with rfl | rfl | rfl | rfl | rfl | rfl | rfl | rfl | rfl | rfl | rfl | rfl <;> rfl
  exact ⟨halike, (overlay_is_exact {} cluttered).2.2.1 tidied halike, rfl⟩

end Settings

end FleetScaler
