import FleetScaler.Proofs.Controller.Seats
import FleetScaler.Proofs.Membership.News

/-!
# The part that a controller shows

Whoever looks at a controller sees its state, whether its timer is enabled, and at which sites its
callback is tracked. `Shows` says that the three fit one part. An event that an active controller
hears makes it show the part that the group assigns at that moment, whatever it showed before.
-/

namespace FleetScaler

/-! ## Settings, timers and callbacks -/

/-- Settings that make sense name a path and an interval. -/
theorem path_ne_empty {s : Settings} (h : s.invalid? = none) : s.groupPath ≠ "" := by
  intro he
  unfold Settings.invalid? at h
  split at h
  · exact absurd h (by simp)
  · simp [he] at h

theorem interval_pos {s : Settings} (h : s.invalid? = none) : 0 < s.pollIntervalMs.toNat := by
  unfold Settings.invalid? at h
  split at h
  · exact absurd h (by simp)
  · rename_i hlt
    exact Nat.pos_of_ne_zero fun hz => hlt (by simp [UInt32.lt_iff_toNat_lt, hz])

theorem Timer.isEnabled_disable (t : Timer) : t.disable.2.isEnabled = false := by
  unfold disable take isEnabled
  cases t.active <;> rfl

/-- A timer with a positive interval can be enabled, and then it is. -/
theorem Timer.enable_spec (t : Timer) {interval : Int} (hi : 0 < interval) :
    ∃ b t', t.enable interval = (.ok b, t') ∧ t'.isEnabled = true := by
  have hpos : ¬ interval ≤ 0 := by omega
  cases ha : t.active with
  | some ticker => exact ⟨false, t, by simp [enable, hpos, isEnabled, ha], by simp [isEnabled, ha]⟩
  | none =>
      simp only [enable, hpos, if_false, isEnabled, ha, create, offer]
      exact ⟨true, _, rfl, rfl⟩

namespace Store

variable {κ : Type} [DecidableEq κ] (s : Store κ)

theorem mem_track {k j : κ} : j ∈ (s.track (some k)).callbacks ↔ j = k ∨ j ∈ s.callbacks := by
  unfold track
  by_cases hk : k ∈ s.callbacks
  · simp only [hk, if_true]
    constructor
    · exact Or.inr
    · rintro (rfl | h)
      · exact hk
      · exact h
  · simp only [hk, if_false, List.mem_append, List.mem_singleton]
    exact or_comm

theorem mem_untrack {k j : κ} : j ∈ (s.untrack (some k)).callbacks ↔ j ≠ k ∧ j ∈ s.callbacks := by
  simp [untrack, and_comm]

end Store

namespace Controller

variable {c c' c'' : Controller} {w w' : Surroundings}

/-! ## What there is to see -/

/-- The site with the number `i` tracks the controller's callback. -/
def TrackedAt (c : Controller) (w : Surroundings) (i : Nat) : Prop :=
  c.handle ∈ (w.sites.get i).store.callbacks

/-- The controller shows a part. A disconnected one may have its timer enabled. -/
structure Shows (c : Controller) (w : Surroundings) (part : ControllerState) : Prop where
  state : c.state = part
  timer : part ≠ .disconnected → c.timer.isEnabled = decide (part = .master)
  /-- A master is called by the site that is bound, and nobody else is called by any. -/
  tracked : ∀ i, c.TrackedAt w i ↔ part = .master ∧ c.cluster.value = some i

/-- The part that the events of a group give to a member: none without a session, otherwise that of
the master or of a standby. -/
def assigned (up isMaster : Bool) : ControllerState :=
  if up then if isMaster then .master else .standby else .disconnected

theorem assigned_eq_master_iff {up isMaster : Bool} :
    assigned up isMaster = .master ↔ up = true ∧ isMaster = true := by
  cases up <;> cases isMaster <;> simp [assigned]

/-! ## Hearing an event -/

/-- The surroundings after the member with the number `n` has published a state. -/
def published (seat : Candidacy) (n : Nat) (w : Surroundings) : Surroundings :=
  { w with
    services := w.services.set seat.service
      ((w.services.get seat.service).onMember n fun m => { m with state := seat.elector.state }) }

/-- An open member can always publish a state. -/
theorem republish_of_open {seat : Candidacy} {n : Nat} {m : Member Nat}
    (hg : seat.elector.group = some n)
    (hm : (w.services.get seat.service).members[n]? = some m) (hc : m.closed = false)
    (handle : Nat) : seat.republish handle w = (.ok true, seat, published seat n w) := by
  have hupdate : (Coordination.access handle).update n seat.elector.state
      (w.services.get seat.service) = (.ok (), (w.services.get seat.service).onMember n
        fun m => { m with state := seat.elector.state }) := by
    simp [Coordination.access, Coordination.update, hm, hc]
  simp only [Candidacy.republish, Elector.republish, hg, hupdate]
  rfl

/-- Nothing happens but that the member with the number `n` publishes a state, if anything. -/
structure Publishes (seat : Candidacy) (n : Nat) (w w' : Surroundings) : Prop where
  sites : w'.sites = w.sites
  others : ∀ i, i ≠ seat.service → w'.services.get i = w.services.get i
  service : ∃ state, w'.services.get seat.service
    = (w.services.get seat.service).onMember n fun m => { m with state := state }

/-- To publish nothing is to publish what has been published before. -/
theorem publishes_refl {seat : Candidacy} {n : Nat} {m : Member Nat}
    (hm : (w.services.get seat.service).members[n]? = some m) : Publishes seat n w w where
  sites := rfl
  others _ _ := rfl
  service := by
    refine ⟨m.state, ?_⟩
    have hsame : (w.services.get seat.service).members.modify n
        (fun x => { x with state := m.state }) = (w.services.get seat.service).members := by
      refine List.ext_getElem? fun j => ?_
      rw [List.getElem?_modify]
      split
      · rename_i hj
        rw [← hj, hm]
        rfl
      · simp
    simp only [Coordination.onMember, hsame]

theorem publishes_published (seat : Candidacy) (n : Nat) (w : Surroundings) :
    Publishes seat n w (published seat n w) where
  sites := rfl
  others _ hi := Table.get_set_ne _ _ hi
  service := ⟨seat.elector.state, Table.get_set_self _ _ _⟩

/-- What comes of an event that an active controller hears, from the moment at which its member
has published its state. -/
structure Heard (c : Controller) (w : Surroundings) (seat : Candidacy) (up : Bool)
    (part : ControllerState) (c' : Controller) (w' : Surroundings) : Prop where
  handle : c'.handle = c.handle
  settings : c'.settings = c.settings
  coordination : c'.coordination = c.coordination
  cluster : c'.cluster = c.cluster
  callable : c'.callable = c.callable
  candidacy : ∃ elector, c'.candidacy = some { seat with elector }
    ∧ elector.group = seat.elector.group ∧ elector.connected = up
  services : w'.services = w.services
  /-- Nobody else's callback is affected. -/
  others : ∀ i j, j ≠ c.handle →
    (j ∈ (w'.sites.get i).store.callbacks ↔ j ∈ (w.sites.get i).store.callbacks)
  shows : c'.Shows w' part

theorem callback_of_callable (h : c.callable = true) : c.callback = some c.handle := by
  simp [callback, h]

/-- A controller has no callback but its own. -/
theorem callback_ne {j : Nat} (hj : j ≠ c.handle) : c.callback ≠ some j := by
  intro hcall
  unfold callback at hcall
  split at hcall
  · exact hj (Option.some.inj hcall).symm
  · exact absurd hcall (by simp)

theorem mem_callbacks_track (w : Surroundings) (site k i j : Nat) :
    j ∈ ((w.onSite site (Site.track (some k))).sites.get i).store.callbacks
      ↔ (i = site ∧ j = k) ∨ j ∈ (w.sites.get i).store.callbacks := by
  by_cases hi : i = site
  · subst hi
    simp [Surroundings.onSite, Site.track, Store.mem_track]
  · simp [Surroundings.onSite, Table.get_update_ne _ _ hi, hi]

theorem mem_callbacks_untrack (w : Surroundings) (site k i j : Nat) :
    j ∈ ((w.onSite site (Site.untrack (some k))).sites.get i).store.callbacks
      ↔ ¬ (i = site ∧ j = k) ∧ j ∈ (w.sites.get i).store.callbacks := by
  by_cases hi : i = site
  · subst hi
    simp [Surroundings.onSite, Site.untrack, Store.mem_untrack]
  · simp [Surroundings.onSite, Table.get_update_ne _ _ hi, hi]

/-- After a controller has had itself untracked, that is the only thing that is gone. -/
theorem mem_callbacks_untracked (c : Controller) (w : Surroundings) (i j : Nat) :
    j ∈ ((c.untracked w).sites.get i).store.callbacks
      ↔ ¬ (c.cluster.value = some i ∧ c.callback = some j)
        ∧ j ∈ (w.sites.get i).store.callbacks := by
  unfold untracked
  cases hcl : c.cluster.value with
  | none => simp
  | some site =>
      cases hca : c.callback with
      | none =>
          by_cases hi : i = site
          · subst hi
            simp [Surroundings.onSite, Site.untrack, Store.untrack]
          · simp [Surroundings.onSite, Table.get_update_ne _ _ hi]
      | some k =>
          rw [mem_callbacks_untrack]
          simp only [Option.some.injEq, eq_comm]

/-- The controller is active, bound to a site, and has heard whether its session is up. -/
structure Ready (c : Controller) (w : Surroundings) (seat : Candidacy) (site : Nat) (up : Bool) :
    Prop where
  candidacy : c.candidacy = some seat
  cluster : c.cluster.value = some site
  callable : c.callable = true
  only : ∀ i, c.TrackedAt w i → i = site
  connected : seat.elector.connected = up

variable {seat : Candidacy} {site : Nat} {up : Bool}

/-- A controller that hears that it is not the master is called by no site. -/
theorem heard_untracked (h : Ready c w seat site up) {part : ControllerState}
    (hp : part ≠ .master) {timer : Timer} (ht : part ≠ .disconnected → timer.isEnabled = false)
    (journal : Log.Journal) :
    Heard c w seat up part
      { c with state := part, timer := timer, journal := journal }
      (w.onSite site (Site.untrack (some c.handle))) where
  handle := rfl
  settings := rfl
  coordination := rfl
  cluster := rfl
  callable := rfl
  candidacy := ⟨seat.elector, h.candidacy, rfl, h.connected⟩
  services := rfl
  others i j hj := by
    rw [mem_callbacks_untrack]
    simp [hj]
  shows := by
    refine ⟨rfl, fun hd => by rw [ht hd]; simp [hp], fun i => ?_⟩
    show c.handle ∈ _ ↔ _
    rw [mem_callbacks_untrack]
    constructor
    · rintro ⟨hnot, hin⟩
      exact absurd ⟨h.only i hin, rfl⟩ hnot
    · rintro ⟨hm, _⟩
      exact absurd hm hp

theorem heard_stepBack (h : Ready c w seat site false) :
    Heard c w seat false .disconnected (c.stepBack w).1 (c.stepBack w).2 := by
  have hafter : (c.stepBack w).2 = w.onSite site (Site.untrack (some c.handle)) := by
    simp [stepBack, h.cluster, callback_of_callable h.callable]
  rw [hafter]
  exact heard_untracked h (by simp) (fun hne => absurd rfl hne) _

theorem heard_becomeStandby (h : Ready c w seat site true) :
    Heard c w seat true .standby (c.becomeStandby site w).1 (c.becomeStandby site w).2 := by
  have hafter : (c.becomeStandby site w).2 = w.onSite site (Site.untrack (some c.handle)) := by
    simp [becomeStandby, callback_of_callable h.callable]
  rw [hafter]
  exact heard_untracked h (by simp) (fun _ => c.timer.isEnabled_disable) _

/-- A controller that hears that it is the master is called by its site and runs a pass. -/
theorem heard_becomeMaster (h : Ready c w seat site true)
    (hpoll : 0 < c.settings.pollIntervalMs.toNat) :
    ∃ c' w', c.becomeMaster site w = (.ok (), c', w') ∧ Heard c w seat true .master c' w' := by
  obtain ⟨b, timer, henable, hon⟩ := c.timer.enable_spec (Int.natCast_pos.mpr hpoll)
  have hmaster : c.becomeMaster site w = (.ok (), ({ c with timer, state := .master }.reconcile
      (w.onSite site (Site.track (some c.handle)))).2) := by
    simp only [becomeMaster, callback_of_callable h.callable, henable]
  obtain ⟨tally, report, journal, hpass⟩ := reconcile_eq { c with timer, state := .master }
    (w.onSite site (Site.track (some c.handle)))
  have hservices := services_reconcile { c with timer, state := .master }
    (w.onSite site (Site.track (some c.handle)))
  have hstores := store_reconcile { c with timer, state := .master }
    (w.onSite site (Site.track (some c.handle)))
  -- the pass leaves the store alone, so the callback is what the step has added
  have hcallbacks : ∀ i j, j ∈ (((({ c with timer, state := .master } : Controller).reconcile
        (w.onSite site (Site.track (some c.handle)))).2.2.sites.get i).store.callbacks)
      ↔ (i = site ∧ j = c.handle) ∨ j ∈ (w.sites.get i).store.callbacks := by
    intro i j
    rw [hstores i, mem_callbacks_track]
  refine ⟨_, _, hmaster, ?_⟩
  rw [hpass]
  refine ⟨rfl, rfl, rfl, rfl, rfl, ⟨seat.elector, h.candidacy, rfl, h.connected⟩,
    hservices, ?_, rfl, fun _ => hon, ?_⟩
  · intro i j hj
    rw [hcallbacks]
    simp [hj]
  · intro i
    show c.handle ∈ _ ↔ _
    rw [hcallbacks]
    constructor
    · rintro (⟨hi, _⟩ | hin)
      · exact ⟨rfl, by rw [hi]; exact h.cluster⟩
      · exact ⟨rfl, by rw [h.only i hin]; exact h.cluster⟩
    · rintro ⟨_, hi⟩
      exact Or.inl ⟨(Option.some.inj (h.cluster.symm.trans hi)).symm, rfl⟩

/-- A controller asks the group whether its session, as far as it has heard, is up. -/
theorem isMaster_eq {n : Nat} (hs : c.candidacy = some seat) (hg : seat.elector.group = some n)
    (w : Surroundings) : c.isMaster w
      = (seat.elector.connected && (w.services.get seat.service).isMaster n) := by
  simp [isMaster, hs, Elector.isMaster, hg, Coordination.access]

/-- What is heard does not depend on what a controller has shown, noted or heard before. -/
theorem Heard.of_alike {c₀ : Controller} {seat₀ : Candidacy} {part : ControllerState}
    (h : Heard c₀ w seat₀ up part c' w') (hh : c₀.handle = c.handle)
    (hs : c₀.settings = c.settings) (hco : c₀.coordination = c.coordination)
    (hcl : c₀.cluster = c.cluster) (hca : c₀.callable = c.callable)
    (hse : seat₀.service = seat.service) (hgr : seat₀.elector.group = seat.elector.group) :
    Heard c w seat up part c' w' where
  handle := h.handle.trans hh
  settings := h.settings.trans hs
  coordination := h.coordination.trans hco
  cluster := h.cluster.trans hcl
  callable := h.callable.trans hca
  candidacy := by
    obtain ⟨elector, hc, hg, hu⟩ := h.candidacy
    exact ⟨elector, by rw [hc, hse], hg.trans hgr, hu⟩
  services := h.services
  others := hh ▸ h.others
  shows := h.shows

theorem heard_takePart (h : Ready c w seat site true) {n : Nat} {m : Member Nat}
    (hg : seat.elector.group = some n)
    (hm : (w.services.get seat.service).members[n]? = some m) (hc : m.closed = false)
    (hpoll : 0 < c.settings.pollIntervalMs.toNat) :
    ∃ c' w', c.takePart seat site w = (.ok (), c', w') ∧
      Heard c (published seat n w) seat true
        (assigned true ((w.services.get seat.service).isMaster n)) c' w' := by
  have hpublish := republish_of_open hg hm hc c.handle
  -- the group is asked before the state is published
  have hlook : c.isMaster w = (w.services.get seat.service).isMaster n := by
    rw [isMaster_eq h.candidacy hg, h.connected, Bool.true_and]
  have hhandle : ∀ message, (c.note .info message).handle = c.handle := fun _ => rfl
  simp only [takePart, hlook, hhandle, hpublish, if_true]
  cases (w.services.get seat.service).isMaster n with
  | true =>
      have hready : Ready { c.note .info ("AutoScaleController is " ++ "" ++ "the master") with
          candidacy := some seat } (published seat n w) seat site true :=
        ⟨rfl, h.cluster, h.callable, h.only, h.connected⟩
      obtain ⟨c', w', heq, hheard⟩ := heard_becomeMaster hready hpoll
      exact ⟨c', w', heq, hheard.of_alike rfl rfl rfl rfl rfl rfl rfl⟩
  | false =>
      have hready : Ready { c.note .info ("AutoScaleController is " ++ "not " ++ "the master") with
          candidacy := some seat } (published seat n w) seat site true :=
        ⟨rfl, h.cluster, h.callable, h.only, h.connected⟩
      exact ⟨_, _, rfl, (heard_becomeStandby hready).of_alike rfl rfl rfl rfl rfl rfl rfl⟩

/-- **An event that an active controller hears makes it show what the group assigns.** -/
theorem heard_hear (hs : c.candidacy = some seat) {service : Nat}
    (hco : c.coordination.value = some service) (hcl : c.cluster.value = some site)
    (hca : c.callable = true) (honly : ∀ i, c.TrackedAt w i → i = site) {n : Nat} {m : Member Nat}
    (hg : seat.elector.group = some n)
    (hm : (w.services.get seat.service).members[n]? = some m) (hc : m.closed = false)
    (hpoll : 0 < c.settings.pollIntervalMs.toNat) (memberId : String) (event : GroupEvent) :
    ∃ w₁ c' w', Publishes seat n w w₁ ∧
      c.hear memberId event w = (.ok (), c', w') ∧
      Heard c w₁ seat event.up
        (assigned event.up ((w.services.get seat.service).isMaster n)) c' w' := by
  -- the elector takes note of the event before it passes it on
  have hconnected : (seat.elector.hear memberId event).2.connected = event.up :=
    seat.elector.connected_hear memberId event
  have hready : Ready
      { c with candidacy := some { seat with elector := (seat.elector.hear memberId event).2 } }
      w { seat with elector := (seat.elector.hear memberId event).2 } site event.up :=
    ⟨rfl, hcl, hca, honly, hconnected⟩
  simp only [hear, hs]
  cases hu : event.up with
  | false =>
      rw [hu] at hready
      -- a lost session is the one event after which nothing is published
      have hforwarded : (seat.elector.hear memberId event).1 = .disconnected :=
        MembershipEvent.ofGroupEvent_eq_disconnected_iff.mpr hu
      have hheard := heard_stepBack hready
      simp only [membershipEvent, hforwarded, if_true]
      exact ⟨w, _, _, publishes_refl hm, rfl, hheard.of_alike rfl rfl rfl rfl rfl rfl rfl⟩
  | true =>
      rw [hu] at hready
      have hforwarded : (seat.elector.hear memberId event).1 ≠ .disconnected := by
        intro hd
        rw [MembershipEvent.ofGroupEvent_eq_disconnected_iff.mp hd] at hu
        exact absurd hu (by simp)
      obtain ⟨c', w', heq, hheard⟩ := heard_takePart hready hg hm hc hpoll
      simp only [membershipEvent, hforwarded, if_false, hco, hcl]
      exact ⟨_, c', w', publishes_published seat n w, heq,
        hheard.of_alike rfl rfl rfl rfl rfl rfl rfl⟩

/-! ## What nobody sees -/

/-- There is no difference between the controllers as far as others can see. -/
structure Alike (c c' : Controller) : Prop where
  settings : c'.settings = c.settings
  coordination : c'.coordination = c.coordination
  cluster : c'.cluster = c.cluster
  candidacy : c'.candidacy = c.candidacy
  callable : c'.callable = c.callable
  state : c'.state = c.state
  timer : c'.timer.isEnabled = c.timer.isEnabled

theorem Alike.refl (c : Controller) : Alike c c := ⟨rfl, rfl, rfl, rfl, rfl, rfl, rfl⟩

/-- Nobody sees what a controller writes into its log or counts. -/
theorem alike_accounts (c : Controller) (tally : Tally) (journal : Log.Journal) :
    Alike c { c with tally := tally, journal := journal } := ⟨rfl, rfl, rfl, rfl, rfl, rfl, rfl⟩

theorem Alike.trans (h : Alike c c') (h' : Alike c' c'') : Alike c c'' where
  settings := h'.settings.trans h.settings
  coordination := h'.coordination.trans h.coordination
  cluster := h'.cluster.trans h.cluster
  candidacy := h'.candidacy.trans h.candidacy
  callable := h'.callable.trans h.callable
  state := h'.state.trans h.state
  timer := h'.timer.trans h.timer

/-- The controller looks the same, and so do the services and the callbacks of the sites. -/
structure Faint (c : Controller) (w : Surroundings) (c' : Controller) (w' : Surroundings) :
    Prop where
  alike : Alike c c'
  services : w'.services = w.services
  callbacks : ∀ i, (w'.sites.get i).store.callbacks = (w.sites.get i).store.callbacks

/-- Nobody sees a pass in a controller. -/
theorem faint_reconcile (c : Controller) (w : Surroundings) :
    Faint c w (c.reconcile w).2.1 (c.reconcile w).2.2 := by
  obtain ⟨tally, report, journal, he⟩ := reconcile_eq c w
  refine ⟨by rw [he]; exact ⟨rfl, rfl, rfl, rfl, rfl, rfl, rfl⟩, services_reconcile c w, ?_⟩
  intro i
  rw [store_reconcile]

/-- Nor does anybody see a look at the group, whatever comes of it. -/
theorem faint_look {c₁ c₂ : Controller} (h₁ : Alike c c₁) (h₂ : Alike c c₂) (w : Surroundings) :
    Faint c w (if c.isMaster w then (c₁.reconcile w).2 else (c₂, w)).1
      (if c.isMaster w then (c₁.reconcile w).2 else (c₂, w)).2 := by
  split
  · obtain ⟨ha, hs, hc⟩ := faint_reconcile c₁ w
    exact ⟨h₁.trans ha, hs, hc⟩
  · exact ⟨h₂, rfl, fun _ => rfl⟩

theorem faint_configurationChanged (c : Controller) (w : Surroundings) :
    Faint c w (c.configurationChanged w).1 (c.configurationChanged w).2 :=
  faint_look (alike_accounts c _ _) (alike_accounts c _ _) w

theorem faint_timerFired (c : Controller) (w : Surroundings) :
    Faint c w (c.timerFired w).1 (c.timerFired w).2 :=
  faint_look (alike_accounts c _ _) (alike_accounts c _ _) w

theorem faint_tick (c : Controller) (w : Surroundings) :
    Faint c w (c.tick w).1 (c.tick w).2 := by
  unfold tick
  split
  · exact ⟨.refl c, rfl, fun _ => rfl⟩
  · rename_i ticker _
    split
    · obtain ⟨ha, hs, hc⟩ := faint_timerFired { c with timer := c.timer.beginTick ticker } w
      -- a tick that has begun leaves the timer enabled
      have hbegin : (c.timer.beginTick ticker).isEnabled = c.timer.isEnabled := by
        unfold Timer.beginTick
        split <;> rfl
      exact ⟨⟨ha.settings, ha.coordination, ha.cluster, ha.candidacy, ha.callable, ha.state,
        ha.timer.trans hbegin⟩, hs, hc⟩
    · exact ⟨.refl c, rfl, fun _ => rfl⟩

end Controller

end FleetScaler
