import FleetScaler.Proofs.Timer.Ownership

/-!
# When a ticker stops

A call that takes a ticker out of the slot cancels it before it returns, and returns only when the
ticker is in no tick any more, unless it comes from inside that very tick. A ticker that is
cancelled begins no further tick. Together with what `Kept` says of the keepers, the slot of a timer
never leaks a ticker and never holds two.
-/

namespace FleetScaler

namespace Clockwork

variable {w w' : Clockwork} {es : List Event} {c : Caller} {k : Nat}

/-! ## What is cancelled is at rest -/

/-- A tick begins only where none is under way and nothing was cancelled. -/
theorem Acts.of_began (h : Acts w es w') (hk : .began k ∈ es) :
    w.timer.isCancelled k = false ∧ w.timer.isTicking k = false := by
  cases h with
  | begins j hj =>
      obtain ⟨ticker, hticker, hcancelled, hticking⟩ := Timer.mayTick_iff.mp hj
      obtain rfl : k = j := by simpa using hk
      simp [Timer.isCancelled, Timer.isTicking, hticker, hcancelled, hticking]
  | _ => simp at hk

theorem Acts.isCancelled_mono (h : Acts w es w') (hk : w.timer.isCancelled k = true) :
    w'.timer.isCancelled k = true := by
  cases h with
  | reports c interval t hc ht => simpa [ht.isCancelled] using hk
  | leaves c j stopped t hc hleave ht => simpa [ht.isCancelled] using hk
  | cancels c j stopped hc => simp [Timer.isCancelled_cancel, hk]
  | _ => simpa using hk

/-- A ticker comes into a tick only by beginning one. -/
theorem Acts.isTicking_or_began (h : Acts w es w') (hk : w'.timer.isTicking k = true) :
    w.timer.isTicking k = true ∨ .began k ∈ es := by
  cases h with
  | begins j hj =>
      rcases eq_or_ne j k with rfl | hne
      · exact .inr (by simp)
      · exact .inl ((Timer.isTicking_beginTick_of_ne _ _ _ hne).symm.trans hk)
  | ends j failure hidle =>
      rw [Timer.isTicking_endTick, Bool.and_eq_true] at hk
      exact .inl hk.1
  | reports c interval t hc ht => exact .inl (by simpa [ht.isTicking] using hk)
  | leaves c j stopped t hc hleave ht => exact .inl (by simpa [ht.isTicking] using hk)
  | _ => exact .inl (by simpa using hk)

/-- **A ticker that is cancelled begins no further tick**, and if it is in none it stays so. -/
theorem run_of_isCancelled (hk : w.timer.isCancelled k = true) (steps : List Step) :
    .began k ∉ w.history steps ∧
      (w.timer.isTicking k = false → (w.run steps).timer.isTicking k = false) := by
  induction steps generalizing w with
  | nil => simp [history]
  | cons step steps ih =>
      have hacts := acts w step
      have hnot : .began k ∉ (w.act step).1 := fun hmem => by
        simp [(hacts.of_began hmem).1] at hk
      obtain ⟨hlater, hrest⟩ := ih (hacts.isCancelled_mono hk)
      refine ⟨by simp [history, hnot, hlater], fun hticking => hrest ?_⟩
      rw [Bool.eq_false_iff] at hticking ⊢
      exact fun h => (hacts.isTicking_or_began h).elim hticking hnot

/-! ## A call that stops a ticker -/

/-- The caller has taken a ticker out of the slot and not returned since. -/
def Stops (w : Clockwork) (c : Caller) (k : Nat) : Prop :=
  w.stage c = .taken k ∧ k < w.timer.tickers.length ∨
    w.stage c = .waiting k true ∧ w.timer.isCancelled k = true

theorem Stops.stage_ne (h : w.Stops c k) : w.stage c ≠ .idle := by
  rcases h with ⟨h, -⟩ | ⟨h, -⟩ <;> simp [h]

theorem stops_of_disabled {keeper : Nat → Keeper} (hw : w.KeptBy keeper) (h : Acts w es w')
    (hc : .disabled c k ∈ es) : w'.Stops c k := by
  cases h with
  | takes c' j hcall hslot =>
      obtain ⟨rfl, rfl⟩ : c = c' ∧ k = j := by simpa using hc
      exact .inl ⟨goTo_self .., hw.lt (o := .slot) hslot⟩
  | _ => simp at hc

/-- How a call that stops a ticker returns: with success, the ticker cancelled, and the caller is
called by the ticker or the ticker is in no tick. -/
structure Stopped (w : Clockwork) (c : Caller) (k : Nat) (es : List Event) (w' : Clockwork) :
    Prop where
  answer : es = [.answered c (.ok true)]
  cancelled : w'.timer.isCancelled k = true
  atRest : c ≠ .inside k → w'.timer.isTicking k = false

theorem Acts.length_le (h : Acts w es w') :
    w.timer.tickers.length ≤ w'.timer.tickers.length := by
  have hlength := congrArg List.length h.made
  simp only [List.length_append, List.length_range] at hlength
  omega

theorem Stops.stay (hc : w.Stops c k) (h : Acts w es w') (hstage : w'.stage c = w.stage c) :
    w'.Stops c k := by
  rcases hc with ⟨htaken, hlt⟩ | ⟨hwaiting, hcancelled⟩
  · exact .inl ⟨hstage.trans htaken, Nat.lt_of_lt_of_le hlt h.length_le⟩
  · exact .inr ⟨hstage.trans hwaiting, h.isCancelled_mono hcancelled⟩

/-- **A call that stops a ticker** goes on or returns. -/
theorem Acts.stops (h : Acts w es w') (hc : w.Stops c k) :
    w'.Stops c k ∧ (∀ answer, .answered c answer ∉ es) ∨ Stopped w c k es w' := by
  -- whoever else acts leaves the call where it is; the caller itself can only cancel or leave
  have hstay := hc.stay h
  have hidle {c' : Caller} (hcall : w.mayCall c' = true) : c ≠ c' := fun heq =>
    hc.stage_ne (heq ▸ idle_of_mayCall hcall)
  have hstage {s : Stage} (hs : w.stage c = s) : s = .taken k ∨ s = .waiting k true :=
    hs ▸ hc.imp And.left And.left
  have hother {c' : Caller} {s : Stage} (hc' : w.stage c' = s)
      (hs : ¬ (s = .taken k ∨ s = .waiting k true)) : c ≠ c' := by
    rintro rfl
    exact hs (hstage hc')
  cases h with
  | nothing | begins | ends => exact .inl ⟨hstay rfl, by simp⟩
  | answers c' answer hcall hanswer =>
      have hne := hidle hcall
      exact .inl ⟨hstay rfl, by simp [hne]⟩
  | looks c' interval hcall => exact .inl ⟨hstay (goTo_ne _ _ _ _ (hidle hcall)), by simp⟩
  | takes c' j hcall hslot => exact .inl ⟨hstay (goTo_ne _ _ _ _ (hidle hcall)), by simp⟩
  | makes c' interval hc' =>
      exact .inl ⟨hstay (goTo_ne _ _ _ _ (hother hc' (by simp))), by simp⟩
  | installs c' j interval hc' hslot =>
      exact .inl ⟨hstay (goTo_ne _ _ _ _ (hother hc' (by simp))), by simp⟩
  | loses c' j interval hc' =>
      exact .inl ⟨hstay (goTo_ne _ _ _ _ (hother hc' (by simp))), by simp⟩
  | reports c' interval t hc' ht =>
      have hne := hother hc' (by simp)
      exact .inl ⟨hstay (goTo_ne _ _ _ _ hne), by simp [hne]⟩
  | cancels c' j stopped hc' =>
      refine .inl ⟨?_, by simp⟩
      rcases eq_or_ne c c' with rfl | hne
      · obtain ⟨rfl, rfl⟩ : stopped = true ∧ j = k := by
          cases stopped <;> simpa using hstage hc'
        obtain ⟨-, hlt⟩ | ⟨hwaiting, -⟩ := hc
        · exact .inr ⟨goTo_self .., by simp [Timer.isCancelled_cancel, hlt]⟩
        · simp [hwaiting] at hc'
      · exact hstay (goTo_ne _ _ _ _ hne)
  | leaves c' j stopped t hc' hleave ht =>
      rcases eq_or_ne c c' with rfl | hne
      · obtain ⟨rfl, rfl⟩ : j = k ∧ stopped = true := by simpa using hstage hc'
        obtain ⟨htaken, -⟩ | ⟨-, hcancelled⟩ := hc
        · simp [htaken] at hc'
        refine .inr ⟨rfl, by rwa [goTo_timer, ht.isCancelled], fun hinside => ?_⟩
        rw [goTo_timer, ht.isTicking]
        simpa [mayLeave, hinside] using hleave
      · exact .inl ⟨hstay (goTo_ne _ _ _ _ hne), by simp [hne]⟩

/-- As long as a call that stops a ticker does not return, it goes on. If it comes from inside the
tick that it stops, no further one begins. -/
theorem Stops.run (hc : w.Stops c k) (hw : w.Busy) {steps : List Step}
    (hquiet : ∀ answer, .answered c answer ∉ w.history steps) :
    (w.run steps).Stops c k ∧ (c = .inside k → .began k ∉ w.history steps) := by
  induction steps generalizing w with
  | nil => exact ⟨hc, by simp [history]⟩
  | cons step steps ih =>
      have hacts := acts w step
      simp only [history, List.mem_append, not_or] at hquiet ⊢
      rcases hacts.stops hc with ⟨hc', -⟩ | hstopped
      · obtain ⟨hrest, hinside⟩ := ih hc' (hacts.busy hw) fun answer => (hquiet answer).2
        refine ⟨hrest, fun heq => ⟨fun hmem => ?_, hinside heq⟩⟩
        -- the callback is in a call, so its tick is still under way
        have hticking := hw k (heq ▸ hc.stage_ne)
        simp [(hacts.of_began hmem).2] at hticking
      · exact absurd (by simp [hstopped.answer]) (hquiet (.ok true)).1

/-! ## The slot -/

/-- **The slot of a timer never leaks a ticker and never holds two.** Let any callers enable and
disable a timer that starts empty, from outside and from inside its ticks, a step of theirs at a
time and in any order.

* The times the timer was enabled are as many as the times it was disabled, and one more if it is
  enabled. The two alternate, and these are the calls that return true, or will.
* Every ticker that was made has one keeper: a call to enable that is under way, the slot, a call to
  disable that is under way, or none of them any more. In the last case it has been cancelled, once;
  in the others it has not.
* A call that takes a ticker out of the slot answers true when it returns, and this ticker begins no
  tick after that. If the call does not come from inside a tick of this ticker, the ticker is in none
  when the call returns and in none later. If it does, no further tick begins even before the call
  returns.
* An interval that is not positive is refused, and nothing changes.
-/
theorem slot_never_leaks :
    (∀ steps : List Step,
      let w := ({} : Clockwork).run steps
      let h := ({} : Clockwork).history steps
      let switches := h.filterMap Event.switch?
      (switches.count true = switches.count false + (if w.timer.isEnabled then 1 else 0) ∧
        (∀ i < switches.length, switches[i]? = some (decide (i % 2 = 0))) ∧
        ∀ c, h.countP (Event.isSwitchBy c)
          = h.countP (Event.isSuccessOf c) + (w.stage c).hasSwitched.toNat) ∧
      h.filterMap Event.made? = List.range w.timer.tickers.length ∧
      ∀ k < w.timer.tickers.length, (∃! o, w.Keeps k o) ∧
        (w.Keeps k .retired → h.countP (Event.isCancelOf k) = 1) ∧
        (¬ w.Keeps k .retired → h.countP (Event.isCancelOf k) = 0)) ∧
    (∀ (before mid later : List Step) (takes returns : Step) (c : Caller) (k : Nat)
        (answer : Except Failure Bool),
      let w := ({} : Clockwork).run before
      let w₁ := w.perform takes
      let w₂ := w₁.run mid
      let w₃ := w₂.perform returns
      .disabled c k ∈ (w.act takes).1 → (∀ other, .answered c other ∉ w₁.history mid) →
      .answered c answer ∈ (w₂.act returns).1 →
        answer = .ok true ∧ .began k ∉ w₃.history later ∧
        (c ≠ .inside k → w₃.timer.isTicking k = false ∧ (w₃.run later).timer.isTicking k = false) ∧
        (c = .inside k → .began k ∉ w₁.history (mid ++ returns :: later))) ∧
    (∀ (t : Timer) (interval : Int), interval ≤ 0 →
      t.enable interval = (.error .nonPositiveInterval, t)) ∧
    ∀ (w : Clockwork) (c : Caller) (interval : Int), interval ≤ 0 → w.mayCall c = true →
      w.act (.enable c interval) = ([.answered c (.error .nonPositiveInterval)], w) := by
  refine ⟨fun steps => ?_, ?_, fun t interval h => if_pos h, fun w c interval h hcall => ?_⟩
  · have h := kept steps
    obtain ⟨keeper, hkeeper⟩ := h.keptBy
    refine ⟨⟨h.switched.count_eq, fun i hi => h.switched.getElem?_eq hi, h.told⟩, h.made,
      fun k hk => ⟨hkeeper.existsUnique hk, fun hretired => ?_, fun hretired => ?_⟩⟩
    · rw [h.cancelled, hretired, Bool.toNat_true]
    · rw [h.cancelled, Bool.eq_false_iff.mpr hretired, Bool.toNat_false]
  · intro before mid later takes returns c k answer w w₁ w₂ w₃ htakes hquiet hreturns
    have h := kept before
    obtain ⟨keeper, hkeeper⟩ := h.keptBy
    have htaken := acts w takes
    obtain ⟨hstops, hbefore⟩ := (stops_of_disabled hkeeper htaken htakes).run (htaken.busy h.busy)
      hquiet
    obtain ⟨-, hnone⟩ | hstopped := (acts w₂ returns).stops hstops
    · exact absurd hreturns (hnone answer)
    obtain ⟨hlater, hrest⟩ := run_of_isCancelled hstopped.cancelled later
    refine ⟨by simpa [hstopped.answer] using hreturns, hlater,
      fun hne => ⟨hstopped.atRest hne, hrest (hstopped.atRest hne)⟩, fun heq => ?_⟩
    rw [history_append, history, hstopped.answer]
    simpa using ⟨hbefore heq, hlater⟩
  · simp [act, hcall, startEnable, h]

/-- Two callers see the slot empty and make a ticker each. The second is faster, and the first has
to wait with its answer because its ticker ticks already. Then the other ticker ticks as well. -/
def race : List Step :=
  [.enable (.outside 0) 5, .enable (.outside 1) 5, .proceed (.outside 0), .proceed (.outside 1),
    .proceed (.outside 1), .beginTick 0, .proceed (.outside 0), .proceed (.outside 0),
    .proceed (.outside 0), .proceed (.outside 1), .beginTick 1]

/-- The ticker of the first is cancelled once. Whoever takes the other ticker out of the slot is
told so: its callback while the tick goes on, anybody else after the tick. -/
theorem race_leaks_nothing :
    let w := ({} : Clockwork).run race
    let h := ({} : Clockwork).history race
    h.filterMap Event.switch? = [true] ∧ w.timer.isEnabled = true ∧
    (∃! o, w.Keeps 0 o) ∧ h.countP (Event.isCancelOf 0) = 1 ∧ (∃! o, w.Keeps 1 o) ∧
    h.countP (Event.isCancelOf 1) = 0 ∧
    .began 1 ∉ (w.run (disabling (.inside 1))).history [.endTick 1 none, .beginTick 1] ∧
    ((w.perform (.disable (.outside 2))).run [.proceed (.outside 2), .proceed (.outside 2),
      .endTick 1 none, .proceed (.outside 2)]).timer.isTicking 1 = false ∧
    ({} : Timer).enable 0 = (.error .nonPositiveInterval, {}) ∧
    w.act (.enable (.outside 2) (-1))
      = ([.answered (.outside 2) (.error .nonPositiveInterval)], w) := by
  intro w h
  obtain ⟨hkept, hstops, hinterval, hrefuses⟩ := slot_never_leaks
  obtain ⟨-, -, hkeepers⟩ := hkept race
  obtain ⟨honly₀, honce, -⟩ := hkeepers 0 (by decide)
  obtain ⟨honly₁, -, hnever⟩ := hkeepers 1 (by decide)
  refine ⟨rfl, rfl, honly₀, honce rfl, honly₁, hnever (Bool.eq_false_iff.mp rfl), ?_, ?_,
    hinterval {} 0 (by decide), hrefuses w _ _ (by decide) rfl⟩
  · have htakes : (w.act (.disable (.inside 1))).1 = [.disabled (.inside 1) 1] := rfl
    have hwaits : (w.perform (.disable (.inside 1))).history [.proceed (.inside 1)]
        = [.cancelled 1] := rfl
    exact (hstops race [.proceed (.inside 1)] [.endTick 1 none, .beginTick 1]
      (.disable (.inside 1)) (.proceed (.inside 1)) (.inside 1) 1 (.ok true)
      (htakes ▸ List.mem_singleton_self _) (fun _ => hwaits ▸ by simp)
      (List.mem_singleton.mpr rfl)).2.1
  · have htakes : (w.act (.disable (.outside 2))).1 = [.disabled (.outside 2) 1] := rfl
    have hwaits : (w.perform (.disable (.outside 2))).history [.proceed (.outside 2),
        .proceed (.outside 2), .endTick 1 none] = [.cancelled 1, .ended 1] := rfl
    exact ((hstops race [.proceed (.outside 2), .proceed (.outside 2), .endTick 1 none] []
      (.disable (.outside 2)) (.proceed (.outside 2)) (.outside 2) 1 (.ok true)
      (htakes ▸ List.mem_singleton_self _) (fun _ => hwaits ▸ by simp)
      (List.mem_singleton.mpr rfl)).2.2.1 (by simp)).1

end Clockwork

end FleetScaler
