import FleetScaler.Proofs.Controller.Duty
import FleetScaler.Proofs.Membership.Enrolment

/-!
# How a controller takes and leaves its seat

A controller stands for a member from its activation to the moment at which it gives up the
election. The member is a new one each time, so nobody else ever stands for it.
-/

namespace FleetScaler

open Coordination

theorem grows_set {w : Surroundings} {i : Nat} {s : Coordination Nat}
    (h : (w.services.get i).Grows s) (j : Nat) :
    (w.services.get j).Grows ((w.services.set i s).get j) :=
  Table.rel_set Coordination.Grows.refl h j

namespace Controller

variable {c c' : Controller} {w w' : Surroundings}

/-! ## The two ends of a candidacy -/

/-- **Activation succeeds** where a coordination service is bound and the path is not empty. The
controller then stands for a new member of that service. -/
theorem activate_eq (hc : c.candidacy = none) {service : Nat}
    (hs : c.coordination.value = some service) (hp : c.settings.groupPath ≠ "") :
    ∃ (elector : Elector Nat) (journal : Log.Journal),
      c.activate w = (.ok (),
          { c with callable := true, candidacy := some { service, elector }, journal := journal },
          { w with
            services := w.services.set service
              ((w.services.get service).enrol { config := c.electorConfig } c.handle) })
      ∧ elector.config = c.electorConfig ∧ elector.connected = false
      ∧ elector.group = some (w.services.get service).members.length := by
  obtain ⟨record, hjoined⟩ := Elector.activate_eq (e := { config := c.electorConfig })
    (s := w.services.get service) c.handle rfl hp
  have hconfig : ({ c with callable := true } : Controller).electorConfig = c.electorConfig := rfl
  have hidle : c.isActive = false := by simp [isActive, hc]
  simp only [activate, hidle, Bool.false_eq_true, if_false, Slot.get, hs, hconfig, hjoined, note]
  exact ⟨_, _, rfl, rfl, rfl, rfl⟩

@[simp] theorem sites_leave (c : Controller) (w : Surroundings) :
    (c.leave w).2.sites = w.sites := by
  unfold leave
  cases c.candidacy <;> rfl

theorem leave_of_none (hs : c.candidacy = none) : c.leave w = (c, w) := by
  simp [leave, hs]

/-- The member that the controller stood for no longer has a listener, and then it is closed. -/
theorem services_leave {seat : Candidacy} {n : Nat} (hs : c.candidacy = some seat)
    (hn : seat.elector.group = some n) :
    (c.leave w).2.services
      = w.services.set seat.service
          (((w.services.get seat.service).unlisten n c.handle).close n) := by
  simp [leave, hs, Elector.deactivate, hn, Coordination.access]

/-- The surroundings once the site that is bound calls the controller no longer. -/
def untracked (c : Controller) (w : Surroundings) : Surroundings :=
  match c.cluster.value with
  | none => w
  | some i => w.onSite i (Site.untrack c.callback)

@[simp] theorem services_untracked (c : Controller) (w : Surroundings) :
    (c.untracked w).services = w.services := by
  unfold untracked
  cases c.cluster.value <;> rfl

/-- A deactivated controller has no seat, no part and no running timer, and is called no longer. -/
theorem deactivate_eq (c : Controller) (w : Surroundings) :
    ∃ journal, c.deactivate w
      = ({ c with candidacy := none, timer := c.timer.disable.2, state := .unknown,
                  journal := journal },
          c.untracked (c.leave w).2) := by
  cases hc : c.candidacy with
  | none =>
      simp only [deactivate, isActive, leave, hc, Option.isSome_none, Bool.false_eq_true, if_false]
      exact ⟨c.journal, by rw [← hc]; rfl⟩
  | some seat =>
      simp only [deactivate, isActive, leave, hc, Option.isSome_some, if_true]
      exact ⟨_, rfl⟩

/-! ## Moves -/

/-- The controller takes a seat for a member that is new, on the path of its settings. -/
def Takes (c : Controller) (w : Surroundings) (c' : Controller) (w' : Surroundings) : Prop :=
  ∃ service m, c'.seat? = some (service, some (w.services.get service).members.length)
    ∧ (w'.services.get service).members[(w.services.get service).members.length]? = some m
    ∧ m.path = c.settings.groupPath

/-- The controller gives up its seat, keeps it, or takes a new one. -/
structure Moves (c : Controller) (w : Surroundings) (c' : Controller) (w' : Surroundings) :
    Prop where
  settings : c'.settings = c.settings
  seat : c'.seat? = none ∨ c'.seat? = c.seat? ∨ Takes c w c' w'
  grows : ∀ i, (w.services.get i).Grows (w'.services.get i)

theorem Keeps.moves (h : Keeps c w c' w') : Moves c w c' w' where
  settings := h.settings
  seat := Or.inr (Or.inl h.seat)
  grows i := (h.lines i).grows

theorem moves_activate (c : Controller) (w : Surroundings) :
    Moves c w (c.activate w).2.1 (c.activate w).2.2
      ∧ (c.activate w).2.1.tally = c.tally := by
  cases hc : c.candidacy with
  | some seat =>
      have hactive : c.activate w = (.ok (), c, w) := by simp [activate, isActive, hc]
      rw [hactive]
      exact ⟨(keeps_of_eq rfl rfl rfl).moves, rfl⟩
  | none =>
      have hidle : c.isActive = false := by simp [isActive, hc]
      cases hs : c.coordination.value with
      | none =>
          simp only [activate, hidle, Bool.false_eq_true, if_false, Slot.get, hs]
          exact ⟨⟨rfl, Or.inr (Or.inl rfl), fun _ => .refl _⟩, trivial⟩
      | some service =>
          by_cases hp : c.settings.groupPath = ""
          · -- nothing has been joined, so nothing is left behind
            have hrefused := Elector.activate_refused (e := { config := c.electorConfig })
              (s := w.services.get service) c.handle rfl hp
            have hconfig : ({ c with callable := true } : Controller).electorConfig
              = c.electorConfig := rfl
            simp only [activate, hidle, Bool.false_eq_true, if_false, Slot.get, hs, hconfig,
              hrefused]
            exact ⟨⟨rfl, Or.inr (Or.inl rfl), grows_set (.refl _)⟩, rfl⟩
          · obtain ⟨elector, journal, heq, _, _, hgroup⟩ := activate_eq (w := w) hc hs hp
            rw [heq]
            refine ⟨⟨rfl, Or.inr (Or.inr ?_), grows_set (grows_enrol _ _ _)⟩, rfl⟩
            obtain ⟨place, t⟩ := turn_enrol (w.services.get service)
              { config := c.electorConfig } c.handle hp
            exact ⟨service, _, by simp [seat?, hgroup], by simpa using t.self, t.same.2⟩

theorem moves_leave (c : Controller) (w : Surroundings) :
    Moves c w (c.leave w).1 (c.leave w).2 ∧ (c.leave w).1.tally = c.tally := by
  unfold leave
  split
  · exact ⟨(keeps_of_eq rfl rfl rfl).moves, rfl⟩
  · rename_i seat _
    exact ⟨⟨rfl, Or.inl rfl, grows_set (seat.elector.grows_deactivate c.handle _)⟩, rfl⟩

theorem moves_deactivate (c : Controller) (w : Surroundings) :
    Moves c w (c.deactivate w).1 (c.deactivate w).2
      ∧ (c.deactivate w).1.tally = c.tally := by
  obtain ⟨journal, heq⟩ := deactivate_eq c w
  rw [heq]
  refine ⟨⟨rfl, Or.inl rfl, ?_⟩, rfl⟩
  rw [services_untracked]
  exact (moves_leave c w).1.grows

theorem moves_drop (c : Controller) (w : Surroundings) :
    Moves c w (c.drop w).1 (c.drop w).2 ∧ (c.drop w).1.tally = c.tally := by
  obtain ⟨h, ht⟩ := moves_leave { c.stopTimer with dropped := true } w
  exact ⟨⟨h.settings, h.seat, h.grows⟩, ht⟩

end Controller

end FleetScaler
