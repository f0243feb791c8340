import FleetScaler.Proofs.Controller.Part

/-!
# How many passes an event is worth

A controller that is seated and whose requirements can be read runs exactly one pass for each event
that tells it that it is the master, and none for an event that tells it that it is not. Neither
an event nor a change of the requirements does anything to a site but to work on its cluster and to
change whom it calls.
-/

namespace FleetScaler

open Coordination

/-! ## What becomes of a site -/

/-- The site is as before, but for its cluster and for whom it calls; nobody is called twice. -/
structure Site.AsBefore (s s' : Site Nat) : Prop where
  outage : s'.outage = s.outage
  store : s'.store = { s.store with callbacks := s'.store.callbacks }
  nodup : s.store.callbacks.Nodup → s'.store.callbacks.Nodup

namespace Site

variable {s s' s'' : Site Nat}

theorem AsBefore.refl (s : Site Nat) : AsBefore s s := ⟨rfl, rfl, id⟩

theorem AsBefore.trans (h : AsBefore s s') (h' : AsBefore s' s'') : AsBefore s s'' where
  outage := h'.outage.trans h.outage
  store := by
    rw [h'.store, h.store]
  nodup hs := h'.nodup (h.nodup hs)

theorem asBefore_track (s : Site Nat) (k : Option Nat) : AsBefore s (s.track k) where
  outage := rfl
  store := by
    cases k with
    | none => rfl
    | some k =>
        simp only [track, Store.track]
        split <;> rfl
  nodup hs := by
    cases k with
    | none => exact hs
    | some k =>
        simp only [track, Store.track]
        split
        · exact hs
        · rename_i hk
          refine List.nodup_append.mpr ⟨hs, by simp, fun a ha b hb e => ?_⟩
          rw [List.mem_singleton.mp hb] at e
          exact hk (e ▸ ha)

theorem asBefore_untrack (s : Site Nat) (k : Option Nat) : AsBefore s (s.untrack k) where
  outage := rfl
  store := by cases k <;> rfl
  nodup hs := by
    cases k with
    | none => exact hs
    | some k => exact hs.filter _

theorem outage_pass (s : Site Nat) (document : Document) :
    (s.pass document).2.outage = s.outage := by
  refine Pass.world_run (P := fun site : Site Nat => site.outage = s.outage) ?_ document rfl
  constructor <;> intros <;> assumption

theorem asBefore_pass (s : Site Nat) (document : Document) : AsBefore s (s.pass document).2 where
  outage := s.outage_pass document
  store := by rw [s.store_pass document]
  nodup hs := by rw [s.store_pass document]; exact hs

end Site

namespace Controller

variable {c : Controller} {w : Surroundings} {i : Nat}

theorem asBefore_onSite (w : Surroundings) (site : Nat) {g : Site Nat → Site Nat}
    (hg : ∀ s, Site.AsBefore s (g s)) (i : Nat) :
    Site.AsBefore (w.sites.get i) ((w.onSite site g).sites.get i) := by
  by_cases hi : i = site
  · subst hi
    simpa [Surroundings.onSite] using hg _
  · simpa [Surroundings.onSite, Table.get_update_ne _ _ hi] using .refl _

theorem asBefore_reconcile (c : Controller) (w : Surroundings) (i : Nat) :
    Site.AsBefore (w.sites.get i) ((c.reconcile w).2.2.sites.get i) := by
  unfold reconcile
  split
  · rename_i site _ _
    split
    · exact .refl _
    · rename_i document _
      by_cases hi : i = site
      · subst hi
        simpa using (w.sites.get i).asBefore_pass document
      · simpa [Table.get_set_ne _ _ hi] using .refl _
  · exact .refl _

theorem asBefore_becomeMaster (c : Controller) (site : Nat) (w : Surroundings) (i : Nat) :
    Site.AsBefore (w.sites.get i) ((c.becomeMaster site w).2.2.sites.get i) := by
  have htrack := asBefore_onSite w site (fun s => s.asBefore_track c.callback) i
  unfold becomeMaster
  simp only
  split
  · exact htrack
  · exact htrack.trans (asBefore_reconcile _ _ i)

theorem asBefore_takePart (c : Controller) (seat : Candidacy) (site : Nat) (w : Surroundings)
    (i : Nat) : Site.AsBefore (w.sites.get i) ((c.takePart seat site w).2.2.sites.get i) := by
  unfold takePart
  simp only
  split
  · exact .refl _
  · by_cases hm : c.isMaster w = true
    · rw [if_pos hm]
      exact asBefore_becomeMaster _ site (seat.republish c.handle w).2.2 i
    · rw [if_neg hm]
      exact asBefore_onSite (seat.republish c.handle w).2.2 site
        (fun s => s.asBefore_untrack _) i

theorem asBefore_stepBack (c : Controller) (w : Surroundings) (i : Nat) :
    Site.AsBefore (w.sites.get i) ((c.stepBack w).2.sites.get i) := by
  unfold stepBack
  cases c.cluster.value with
  | none => exact .refl _
  | some site => exact asBefore_onSite w site (fun s => s.asBefore_untrack _) i

/-- An event leaves a site as it is, but for its cluster and for whom it calls. -/
theorem asBefore_hear (c : Controller) (memberId : String) (event : GroupEvent) (w : Surroundings)
    (i : Nat) : Site.AsBefore (w.sites.get i) ((c.hear memberId event w).2.2.sites.get i) := by
  unfold hear
  split
  · exact .refl _
  · simp only [membershipEvent]
    split
    · exact asBefore_stepBack _ w i
    · split
      · exact asBefore_takePart _ _ _ w i
      · exact .refl _

theorem asBefore_configurationChanged (c : Controller) (w : Surroundings) (i : Nat) :
    Site.AsBefore (w.sites.get i) ((c.configurationChanged w).2.sites.get i) := by
  unfold configurationChanged
  split
  · exact asBefore_reconcile _ w i
  · exact .refl _

/-! ## Staying in existence -/

theorem dropped_reconcile (c : Controller) (w : Surroundings) :
    (c.reconcile w).2.1.dropped = c.dropped := by
  obtain ⟨tally, report, journal, heq⟩ := reconcile_eq c w
  rw [heq]

theorem dropped_becomeMaster (c : Controller) (site : Nat) (w : Surroundings) :
    (c.becomeMaster site w).2.1.dropped = c.dropped := by
  unfold becomeMaster
  simp only
  split
  · rfl
  · exact dropped_reconcile _ _

theorem dropped_takePart (c : Controller) (seat : Candidacy) (site : Nat) (w : Surroundings) :
    (c.takePart seat site w).2.1.dropped = c.dropped := by
  unfold takePart
  simp only
  split
  · rfl
  · by_cases hm : c.isMaster w = true
    · rw [if_pos hm, dropped_becomeMaster]
      split <;> rfl
    · rw [if_neg hm]
      split <;> rfl

/-- No event makes a controller cease to exist. -/
theorem dropped_hear (c : Controller) (memberId : String) (event : GroupEvent) (w : Surroundings) :
    (c.hear memberId event w).2.1.dropped = c.dropped := by
  unfold hear
  split
  · rfl
  · simp only [membershipEvent]
    split
    · rfl
    · split
      · exact dropped_takePart _ _ _ w
      · rfl

/-- Nor does a change of the requirements. -/
theorem dropped_configurationChanged (c : Controller) (w : Surroundings) :
    (c.configurationChanged w).1.dropped = c.dropped := by
  unfold configurationChanged
  split
  · exact dropped_reconcile _ w
  · rfl

/-! ## Counting passes -/

variable {service site n : Nat} {seat : Candidacy} {m : Member Nat}

/-- A pass takes place where both capabilities are bound and the requirements can be read. -/
theorem passes_reconcile (hco : c.coordination.value = some service)
    (hcl : c.cluster.value = some site) (hreq : (w.sites.get site).outage.requirements = false) :
    (c.reconcile w).2.1.tally.passes = c.tally.passes + 1 := by
  simp [reconcile, hco, hcl, Site.requirements, hreq, count]

theorem passes_becomeMaster (hco : c.coordination.value = some service)
    (hcl : c.cluster.value = some site) (hreq : (w.sites.get site).outage.requirements = false)
    (hpoll : 0 < c.settings.pollIntervalMs.toNat) :
    (c.becomeMaster site w).2.1.tally.passes = c.tally.passes + 1 := by
  obtain ⟨b, timer, henable, -⟩ := c.timer.enable_spec (Int.natCast_pos.mpr hpoll)
  have htracked := asBefore_onSite w site (fun s => s.asBefore_track c.callback) site
  have hreq' : ((w.onSite site (Site.track c.callback)).sites.get site).outage.requirements
      = false := by
    rw [htracked.outage]
    exact hreq
  simp only [becomeMaster, henable]
  exact passes_reconcile (c := { c with timer, state := .master }) hco hcl hreq'

theorem passes_takePart (hs : c.candidacy = some seat) (hco : c.coordination.value = some service)
    (hcl : c.cluster.value = some site) (hg : seat.elector.group = some n)
    (hconnected : seat.elector.connected = true)
    (hm : (w.services.get seat.service).members[n]? = some m) (hc : m.closed = false)
    (hpoll : 0 < c.settings.pollIntervalMs.toNat)
    (hreq : (w.sites.get site).outage.requirements = false) :
    (c.takePart seat site w).2.1.tally.passes
      = c.tally.passes + if (w.services.get seat.service).isMaster n then 1 else 0 := by
  have hlook : c.isMaster w = (w.services.get seat.service).isMaster n := by
    rw [isMaster_eq hs hg, hconnected, Bool.true_and]
  have hhandle : ∀ message, (c.note .info message).handle = c.handle := fun _ => rfl
  simp only [takePart, hlook, hhandle, republish_of_open hg hm hc c.handle, if_true]
  cases (w.services.get seat.service).isMaster n with
  | true =>
      simp only [if_true]
      exact passes_becomeMaster hco hcl hreq hpoll
  | false => rfl

/-- **An event is worth one pass to the master** and none to anybody else. -/
theorem passes_hear (hs : c.candidacy = some seat) (hco : c.coordination.value = some service)
    (hcl : c.cluster.value = some site) (hg : seat.elector.group = some n)
    (hm : (w.services.get seat.service).members[n]? = some m) (hc : m.closed = false)
    (hpoll : 0 < c.settings.pollIntervalMs.toNat)
    (hreq : (w.sites.get site).outage.requirements = false) (memberId : String)
    {event : GroupEvent} (hup : event.up = true) :
    (c.hear memberId event w).2.1.tally.passes
      = c.tally.passes + if (w.services.get seat.service).isMaster n then 1 else 0 := by
  have hforwarded : (seat.elector.hear memberId event).1 ≠ .disconnected := by
    intro hd
    rw [MembershipEvent.ofGroupEvent_eq_disconnected_iff.mp hd] at hup
    exact absurd hup (by simp)
  have hconnected : (seat.elector.hear memberId event).2.connected = true :=
    (seat.elector.connected_hear memberId event).trans hup
  simp only [hear, hs, membershipEvent, hforwarded, if_false, hco, hcl]
  exact passes_takePart rfl hco hcl hg hconnected hm hc hpoll hreq

theorem passes_configurationChanged (hco : c.coordination.value = some service)
    (hcl : c.cluster.value = some site) (hreq : (w.sites.get site).outage.requirements = false) :
    (c.configurationChanged w).1.tally.passes
      = c.tally.passes + if c.isMaster w then 1 else 0 := by
  unfold configurationChanged
  split
  · exact passes_reconcile (c := c.note .debug _) hco hcl hreq
  · rfl

end Controller

end FleetScaler
