import FleetScaler.Controller.Activation
import FleetScaler.Proofs.Membership.Frame
import FleetScaler.Proofs.Pass.World

/-!
# When a controller runs a pass

Three things make a controller run a pass of its own accord: an event of its group, a tick of its
timer, and a change of the requirements. Each of them looks first whether the controller's member
is the master, and `Dutiful` is what they have in common: a pass takes place only if the look said
yes, and nothing that the look depends on is changed.
-/

namespace FleetScaler

theorem Site.store_pass {κ : Type} (s : Site κ) (document : Document) :
    (s.pass document).2.store = s.store := by
  refine Pass.world_run (P := fun site : Site κ => site.store = s.store) ?_ document rfl
  constructor <;> intros <;> assumption

theorem Elector.group_republish {σ γ : Type} (e : Elector γ) (access : GroupAccess σ γ) (s : σ) :
    (e.republish access s).2.1.group = e.group := by
  unfold republish
  split
  · rfl
  · split
    · rfl
    · split <;> rfl

/-- Publishing a state again moves nobody. -/
theorem sameLines_republish (e : Elector Nat) (handle : Nat) (s : Coordination Nat) :
    s.SameLines (e.republish (Coordination.access handle) s).2.2 := by
  unfold Elector.republish
  split
  · exact .refl s
  · rename_i number _
    have h := s.sameLines_update number e.state
    split
    · rename_i s' hcall
      rwa [show s.update number e.state = (.ok (), s') from hcall] at h
    · rename_i failure s' hcall
      rw [show s.update number e.state = (.error failure, s') from hcall] at h
      split <;> exact h

/-- Exchanging one entry for a related one leaves every entry related to what it was. -/
theorem Table.rel_set {α : Type} [Inhabited α] {R : α → α → Prop} (hr : ∀ a, R a a) {t : Table α}
    {i : Nat} {a : α} (h : R (t.get i) a) (j : Nat) : R (t.get j) ((t.set i a).get j) := by
  by_cases hj : j = i
  · subst hj
    rwa [get_set_self]
  · rw [get_set_ne _ _ hj]
    exact hr _

theorem sameLines_set {w : Surroundings} {i : Nat} {s : Coordination Nat}
    (h : (w.services.get i).SameLines s) (j : Nat) :
    (w.services.get j).SameLines ((w.services.set i s).get j) :=
  Table.rel_set Coordination.SameLines.refl h j

namespace Controller

variable {c c' c'' : Controller} {w w' w'' : Surroundings}

/-! ## What a pass leaves alone -/

/-- A pass changes what the controller keeps account of, and nothing else. -/
theorem reconcile_eq (c : Controller) (w : Surroundings) :
    ∃ tally report journal, (c.reconcile w).2.1
      = { c with tally := tally, lastReport := report, journal := journal } := by
  unfold reconcile
  split
  · split
    · exact ⟨_, _, _, rfl⟩
    · exact ⟨_, _, _, rfl⟩
  · exact ⟨_, _, _, rfl⟩

theorem services_reconcile (c : Controller) (w : Surroundings) :
    (c.reconcile w).2.2.services = w.services := by
  unfold reconcile
  split
  · split <;> rfl
  · rfl

theorem store_reconcile (c : Controller) (w : Surroundings) (i : Nat) :
    ((c.reconcile w).2.2.sites.get i).store = (w.sites.get i).store := by
  unfold reconcile
  split
  · rename_i site _ _
    split
    · rfl
    · rename_i document _
      by_cases hi : i = site
      · subst hi
        simpa using (w.sites.get i).store_pass document
      · simp [Table.get_set_ne _ _ hi]
  · rfl

/-! ## Where a controller stands -/

/-- The service and the group for which a controller stands. -/
def seat? (c : Controller) : Option (Nat × Option Nat) :=
  c.candidacy.map fun seat => (seat.service, seat.elector.group)

/-- The controller's member is the master, whatever the events have told. -/
def Leading (c : Controller) (w : Surroundings) : Prop :=
  ∃ service number, c.seat? = some (service, some number)
    ∧ (w.services.get service).isMaster number = true

/-- Whoever finds itself the master is. -/
theorem leading_of_isMaster (h : c.isMaster w = true) : c.Leading w := by
  unfold isMaster at h
  split at h
  · exact absurd h (by simp)
  · rename_i seat hseat
    simp only [Elector.isMaster, Bool.and_eq_true] at h
    cases hg : seat.elector.group with
    | none => rw [hg] at h; exact absurd h.2 (by simp)
    | some number =>
        rw [hg] at h
        exact ⟨seat.service, number, by simp [seat?, hseat, hg], h.2⟩

/-- The controller stands where it stood, and so does everybody else. -/
structure Keeps (c : Controller) (w : Surroundings) (c' : Controller) (w' : Surroundings) :
    Prop where
  settings : c'.settings = c.settings
  seat : c'.seat? = c.seat?
  lines : ∀ i, (w.services.get i).SameLines (w'.services.get i)

/-- The controller stands where it stood, and a pass took place only if it was leading. -/
structure Dutiful (c : Controller) (w : Surroundings) (c' : Controller) (w' : Surroundings) :
    Prop extends Keeps c w c' w' where
  passes : c'.tally.passes ≠ c.tally.passes → c.Leading w

theorem Keeps.trans (h : Keeps c w c' w') (h' : Keeps c' w' c'' w'') : Keeps c w c'' w'' where
  settings := h'.settings.trans h.settings
  seat := h'.seat.trans h.seat
  lines i := (h.lines i).trans (h'.lines i)

theorem keeps_of_eq (hs : c'.settings = c.settings) (hc : c'.seat? = c.seat?)
    (hw : w'.services = w.services) : Keeps c w c' w' where
  settings := hs
  seat := hc
  lines i := by rw [hw]; exact .refl _

theorem dutiful_of_idle (h : Keeps c w c' w') (hp : c'.tally.passes = c.tally.passes) :
    Dutiful c w c' w' :=
  ⟨h, fun hne => absurd hp hne⟩

/-- Whoever leads may do what it likes. -/
theorem dutiful_of_leading (h : Keeps c w c' w') (hl : c.Leading w) : Dutiful c w c' w' :=
  ⟨h, fun _ => hl⟩

theorem keeps_reconcile (c : Controller) (w : Surroundings) :
    Keeps c w (c.reconcile w).2.1 (c.reconcile w).2.2 := by
  obtain ⟨tally, report, journal, he⟩ := reconcile_eq c w
  exact keeps_of_eq (by rw [he]) (by rw [he]; rfl) (services_reconcile c w)

/-! ## Taking a part -/

theorem keeps_becomeMaster (c : Controller) (site : Nat) (w : Surroundings) :
    Keeps c w (c.becomeMaster site w).2.1 (c.becomeMaster site w).2.2 := by
  unfold becomeMaster
  simp only
  split
  · exact keeps_of_eq rfl rfl rfl
  · rename_i timer _
    have h := keeps_reconcile { c with timer, state := .master }
      (w.onSite site (Site.track c.callback))
    exact ⟨h.settings, h.seat, h.lines⟩

theorem dutiful_becomeStandby (c : Controller) (site : Nat) (w : Surroundings) :
    Dutiful c w (c.becomeStandby site w).1 (c.becomeStandby site w).2 :=
  dutiful_of_idle (keeps_of_eq rfl rfl rfl) rfl

theorem dutiful_stepBack (c : Controller) (w : Surroundings) :
    Dutiful c w (c.stepBack w).1 (c.stepBack w).2 := by
  refine dutiful_of_idle (keeps_of_eq rfl rfl ?_) rfl
  unfold stepBack
  cases c.cluster.value <;> rfl

theorem keeps_republish (c : Controller) {seat : Candidacy} (hs : c.candidacy = some seat)
    (w : Surroundings) :
    Keeps c w { c with candidacy := some (seat.republish c.handle w).2.1 }
      (seat.republish c.handle w).2.2 where
  settings := rfl
  seat := by
    have hgroup := seat.elector.group_republish (Coordination.access c.handle)
      (w.services.get seat.service)
    simp only [seat?, hs, Option.map_some, Candidacy.republish, hgroup]
  lines := sameLines_set (sameLines_republish seat.elector c.handle _)

/-- Taking a part is up to the look at the group. -/
theorem dutiful_takePart (c : Controller) {seat : Candidacy} (hs : c.candidacy = some seat)
    (site : Nat) (w : Surroundings) :
    Dutiful c w (c.takePart seat site w).2.1 (c.takePart seat site w).2.2 := by
  have hpublish := keeps_republish c hs w
  unfold takePart
  simp only
  split
  · exact dutiful_of_idle ⟨rfl, hpublish.seat, hpublish.lines⟩ rfl
  · by_cases hm : c.isMaster w = true
    · rw [if_pos hm]
      refine dutiful_of_leading (hpublish.trans ?_) (leading_of_isMaster hm)
      have h := fun c' => keeps_becomeMaster c' site (seat.republish c.handle w).2.2
      split <;> exact ⟨(h _).settings, (h _).seat, (h _).lines⟩
    · rw [if_neg hm]
      have h := fun c' => dutiful_becomeStandby c' site (seat.republish c.handle w).2.2
      refine dutiful_of_idle (hpublish.trans ?_) ?_
      · split <;> exact ⟨(h _).settings, (h _).seat, (h _).lines⟩
      · split <;> rfl

/-! ## What comes from outside -/

theorem dutiful_membershipEvent (c : Controller) (event : MembershipEvent) (w : Surroundings) :
    Dutiful c w (c.membershipEvent event w).2.1 (c.membershipEvent event w).2.2 := by
  unfold membershipEvent
  split
  · exact dutiful_stepBack c w
  · split
    · rename_i seat _ site hs _ _
      exact dutiful_takePart c hs site w
    · exact dutiful_of_idle (keeps_of_eq rfl rfl rfl) rfl

/-- An event that the elector passes on finds the controller where it stood. -/
theorem dutiful_hear (c : Controller) (memberId : String) (event : GroupEvent)
    (w : Surroundings) :
    Dutiful c w (c.hear memberId event w).2.1 (c.hear memberId event w).2.2 := by
  unfold hear
  split
  · exact dutiful_of_idle (keeps_of_eq rfl rfl rfl) rfl
  · rename_i seat hs
    simp only
    -- hearing changes the elector's view of the session, but not its group
    have hseat : ∀ elector : Elector Nat, elector.group = seat.elector.group →
        seat? { c with candidacy := some { seat with elector } } = c.seat? := by
      intro elector hg
      simp [seat?, hs, hg]
    have h := dutiful_membershipEvent
      { c with candidacy := some { seat with elector := (seat.elector.hear memberId event).2 } }
      (seat.elector.hear memberId event).1 w
    refine ⟨⟨h.settings, h.seat.trans (hseat _ rfl), h.lines⟩, fun hp => ?_⟩
    obtain ⟨service, number, hat, hm⟩ := h.passes hp
    exact ⟨service, number, (hseat _ rfl) ▸ hat, hm⟩

/-- A look at the group, and a pass only if the controller finds itself the master. -/
theorem dutiful_look {c₁ c₂ : Controller} (h₁ : Keeps c w c₁ w) (h₂ : Keeps c w c₂ w)
    (hp : c₂.tally.passes = c.tally.passes) :
    Dutiful c w (if c.isMaster w then (c₁.reconcile w).2 else (c₂, w)).1
      (if c.isMaster w then (c₁.reconcile w).2 else (c₂, w)).2 := by
  split
  · rename_i hm
    exact dutiful_of_leading (h₁.trans (keeps_reconcile c₁ w)) (leading_of_isMaster hm)
  · exact dutiful_of_idle h₂ hp

theorem dutiful_configurationChanged (c : Controller) (w : Surroundings) :
    Dutiful c w (c.configurationChanged w).1 (c.configurationChanged w).2 :=
  dutiful_look (keeps_of_eq rfl rfl rfl) (keeps_of_eq rfl rfl rfl) rfl

theorem dutiful_timerFired (c : Controller) (w : Surroundings) :
    Dutiful c w (c.timerFired w).1 (c.timerFired w).2 :=
  dutiful_look (keeps_of_eq rfl rfl rfl) (keeps_of_eq rfl rfl rfl) rfl

theorem dutiful_tick (c : Controller) (w : Surroundings) :
    Dutiful c w (c.tick w).1 (c.tick w).2 := by
  unfold tick
  split
  · exact dutiful_of_idle (keeps_of_eq rfl rfl rfl) rfl
  · rename_i ticker _
    split
    · have h := dutiful_timerFired { c with timer := c.timer.beginTick ticker } w
      exact ⟨⟨h.settings, h.seat, h.lines⟩, h.passes⟩
    · exact dutiful_of_idle (keeps_of_eq rfl rfl rfl) rfl

end Controller

end FleetScaler
