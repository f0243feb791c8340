import Mathlib.Data.List.Induction
import FleetScaler.Proofs.Controller.Binding
import FleetScaler.Proofs.Fleet.Agreement
import FleetScaler.Proofs.Fleet.Mastery

/-!
# The callback follows the binding

A master is to be called by the site that is bound to it and by no other, and whoever is no master
by none at all. A controller keeps to this whatever happens to it, with one exception: to bind
another site, or to bind one again, is no business of the sites, so a master that is told to do so
goes on being called by the old site and is not called by the new one.

`follows_iff` says that this is the only exception. `Tidy` is what all other steps have in common.
-/

namespace FleetScaler

/-- A change of a site leaves alone whom the site calls. -/
def Action.KeepsCallbacks : Action → Prop
  | .changeSite _ g => ∀ s, (g s).store.callbacks = s.store.callbacks
  | _ => True

namespace Fleet

open Controller

variable {f f' f'' : Fleet} {k : Nat}

/-- The controller `k` is called by the site that is bound to it while it is the master, and by no
other site. -/
def Follows (f : Fleet) (k : Nat) : Prop :=
  ∀ i, f.Calls i k ↔ (f.controller k).state = .master ∧ (f.controller k).cluster.value = some i

/-- The callback of the controller `k` is where it belongs. -/
def Linked (f : Fleet) (k : Nat) : Prop := Controller.Linked k (f.controller k) f.toSurroundings

theorem Linked.follows (h : f.Linked k) : f.Follows k := h.tracked

/-! ## Tidy steps -/

/-- A step leaves every callback where it belongs, if the controller has settings that make
sense. -/
structure Tidy (f f' : Fleet) : Prop where
  settings : ∀ k, (f'.controller k).settings = (f.controller k).settings
  linked : ∀ k, (f.controller k).settings.invalid? = none → f.Linked k → f'.Linked k

theorem Tidy.refl (f : Fleet) : Tidy f f := ⟨fun _ => rfl, fun _ _ h => h⟩

theorem Tidy.trans (h : Tidy f f') (h' : Tidy f' f'') : Tidy f f'' where
  settings k := (h'.settings k).trans (h.settings k)
  linked k hvalid hl := h'.linked k (by rw [h.settings]; exact hvalid) (h.linked k hvalid hl)

theorem tidy_move (f : Fleet) (k : Nat)
    (g : Controller → Surroundings → Controller × Surroundings)
    (hg : Controller.Tidy (f.controller k) f.toSurroundings
      (g (f.controller k) f.toSurroundings).1 (g (f.controller k) f.toSurroundings).2) :
    Tidy f (f.move k g) where
  settings j := by
    by_cases hj : j = k
    · subst hj
      rw [controller_move_self]
      exact hg.settings
    · rw [controller_move_ne f k hj]
  linked j hvalid hl := by
    unfold Linked at hl ⊢
    rw [toSurroundings_move]
    by_cases hj : j = k
    · subst hj
      have := hg.linked hvalid hl
      rw [controller_move_self]
      exact ⟨this.tracked, this.callable⟩
    · rw [controller_move_ne f k hj]
      exact ⟨fun i => (hg.others i j hj).trans (hl.tracked i), hl.callable⟩

theorem tidy_services (f : Fleet) (t : Table (Coordination Nat)) :
    Tidy f { f with services := t } := ⟨fun _ => rfl, fun _ _ h => ⟨h.tracked, h.callable⟩⟩

theorem tidy_changeSite (f : Fleet) (site : Nat) {g : Site Nat → Site Nat}
    (hg : (g (f.sites.get site)).store.callbacks = (f.sites.get site).store.callbacks) :
    Tidy f (f.changeSite site g) where
  settings _ := rfl
  linked k _ h :=
    ⟨fun i => ((faint_changeSite f site hg).calls i k).trans (h.tracked i), h.callable⟩

theorem tidy_call (f : Fleet) (k : Nat) : Tidy f (f.call k) := by
  unfold call
  split
  · exact .refl f
  · exact tidy_move f k _ (tidy_of_faint (faint_configurationChanged _ _))

theorem tidy_notify (f : Fleet) (site : Nat) : Tidy f (f.notify site) := by
  have hsite := tidy_changeSite f site
    (g := fun s => { s with store := (f.sites.get site).store.notifierStep.2 })
    (callbacks_notifierStep _)
  unfold notify
  simp only
  split
  · exact hsite
  · rename_i k _
    exact hsite.trans (tidy_call _ k)

theorem tidy_hearAt (f : Fleet) (service member : Nat) (event : GroupEvent) (listener : Nat) :
    Tidy f (hearAt service member event f listener) := by
  have hheard := tidy_move f listener
    (fun c w => (c.hear ((f.services.get service).idOf member) event w).2) (tidy_hear _ _ _ _)
  rw [← act_eq_move] at hheard
  unfold hearAt
  simp only
  split
  · rename_i heq
    rwa [heq] at hheard
  · rename_i g heq
    rw [heq] at hheard
    exact hheard.trans (tidy_services g _)

theorem tidy_deliver (f : Fleet) (service member : Nat) : Tidy f (f.deliver service member) := by
  unfold deliver
  split
  · exact .refl f
  · rename_i event listeners s _
    have hall : ∀ (listeners : List Nat) (g : Fleet), Tidy f g →
        Tidy f (listeners.foldl (hearAt service member event) g) := by
      intro listeners
      induction listeners with
      | nil => exact fun g hg => hg
      | cons k rest ih => exact fun g hg => ih _ (hg.trans (tidy_hearAt g service member event k))
    exact hall listeners _ (tidy_services f _)

/-- A controller that changes nothing but what has to do with neither its part, its site nor its
callback. -/
theorem tidy_self (f : Fleet) (k : Nat) (g : Controller → Controller)
    (hg : ∀ c w, Controller.Tidy c w (g c) w) : Tidy f (f.move k fun c w => (g c, w)) :=
  tidy_move f k _ (hg _ _)

/-- **All actions are tidy** but the arrival of a controller, a binding to a site, and changes of a
site that have to do with whom it calls. -/
theorem tidy_perform (f : Fleet) {a : Action} (hadd : ∀ settings, a ≠ .add settings)
    (hbind : ∀ k site, a ≠ .bindCluster k site) (hcalls : a.KeepsCallbacks) :
    Tidy f (f.perform a) := by
  cases a with
  | add settings => exact absurd rfl (hadd settings)
  | bindCluster k site => exact absurd rfl (hbind k site)
  | bindCoordination k service =>
      exact tidy_self f k (·.bindCoordination service) fun c w =>
        tidy_of_same rfl rfl rfl id Or.inl fun _ => rfl
  | unbindCoordination k service =>
      exact tidy_self f k (·.unbindCoordination service) fun c w =>
        tidy_of_same rfl rfl rfl id Or.inl fun _ => rfl
  | unbindCluster k site =>
      exact tidy_move f k (fun c w => c.unbindCluster site w) (tidy_unbindCluster _ site _)
  | activate k => exact tidy_move f k (fun c w => (c.activate w).2) (tidy_activate _ _)
  | deactivate k => exact tidy_move f k _ (tidy_deactivate _ _)
  | drop k => exact tidy_move f k _ (tidy_drop _ _)
  | reconcile k =>
      exact tidy_move f k (fun c w => (c.reconcile w).2) (tidy_of_faint (faint_reconcile _ _))
  | event k e =>
      exact tidy_move f k (fun c w => (c.membershipEvent e w).2) (tidy_membershipEvent _ e _)
  | tick k => exact tidy_move f k _ (tidy_of_faint (faint_tick _ _))
  | call k => exact tidy_call f k
  | request service r => exact tidy_services f _
  | changeSite site g => exact tidy_changeSite f site (hcalls _)
  | deliver service member => exact tidy_deliver f service member
  | notify site => exact tidy_notify f site
  | resign k =>
      exact tidy_self f k (fun c => { c with candidacy := none }) fun c w =>
        tidy_of_same rfl rfl rfl id (fun h => absurd h (by simp)) fun _ => rfl
  | stopTimer k =>
      exact tidy_self f k (·.stopTimer) fun c w => tidy_of_same rfl rfl rfl id Or.inl fun _ => rfl
  | unlisten service member k => exact tidy_services f _

/-! ## The others -/

/-- Whoever has just come is called by no site, as was the number before. -/
theorem linked_add (h : f.Linked k) (settings : Settings) : (f.add settings).2.Linked k := by
  unfold Linked at h ⊢
  by_cases hk : k = f.controllers.size
  · subst hk
    rw [controller_of_size_le f (Nat.le_refl _)] at h
    rw [controller_add_self]
    exact ⟨h.tracked, h.callable⟩
  · rw [controller_add_ne f hk]
    exact ⟨h.tracked, h.callable⟩

/-- A binding leaves the callback where it belongs unless it gives another site to a master. -/
theorem linked_bindCluster (h : f.Linked k) (j : Nat) (site : Option Nat)
    (hsame : j = k → (f.controller k).state = .master → (f.controller k).cluster.value = site) :
    (f.bindCluster j site).Linked k := by
  unfold Linked at h ⊢
  by_cases hk : k = j
  · subst hk
    rw [bindCluster, controller_move_self]
    refine ⟨fun i => (h.tracked i).trans (and_congr_right fun hmaster => ?_), h.callable⟩
    rw [hsame rfl hmaster]
    rfl
  · rw [bindCluster, controller_move_ne f j hk]
    exact ⟨h.tracked, h.callable⟩

/-- What the callback of `k` asks of an action: no binding that gives another site to a master. -/
def Considerate (f : Fleet) (k : Nat) (a : Action) : Prop :=
  ∀ site, a = .bindCluster k site → (f.controller k).state = .master →
    (f.controller k).cluster.value = site

/-- **A considerate action leaves the callback where it belongs.** -/
theorem linked_perform {a : Action} (h : f.Linked k)
    (hvalid : (f.controller k).settings.invalid? = none) (hcalls : a.KeepsCallbacks)
    (ha : f.Considerate k a) : (f.perform a).Linked k := by
  by_cases hadd : ∃ settings, a = .add settings
  · obtain ⟨settings, rfl⟩ := hadd
    exact linked_add h settings
  · by_cases hbind : ∃ j site, a = .bindCluster j site
    · obtain ⟨j, site, rfl⟩ := hbind
      exact linked_bindCluster h j site fun hj => ha site (by rw [hj])
    · exact (tidy_perform f (fun settings he => hadd ⟨settings, he⟩)
        (fun j site he => hbind ⟨j, site, he⟩) hcalls).linked k hvalid h

/-- Settings that make sense in the end made sense before. -/
theorem valid_of_perform (f : Fleet) {a : Action} (hcalls : a.KeepsCallbacks)
    (hvalid : ((f.perform a).controller k).settings.invalid? = none) :
    (f.controller k).settings.invalid? = none := by
  by_cases hadd : ∃ settings, a = .add settings
  · obtain ⟨settings, rfl⟩ := hadd
    by_cases hk : k = f.controllers.size
    · rw [hk, controller_of_size_le f (Nat.le_refl _)]
      show ({} : Settings).invalid? = none
      decide
    · rwa [perform, controller_add_ne f hk] at hvalid
  · by_cases hbind : ∃ j site, a = .bindCluster j site
    · obtain ⟨j, site, rfl⟩ := hbind
      by_cases hk : k = j
      · subst hk
        rwa [perform, bindCluster, controller_move_self] at hvalid
      · rwa [perform, bindCluster, controller_move_ne f j hk] at hvalid
    · have := (tidy_perform f (fun settings he => hadd ⟨settings, he⟩)
        (fun j site he => hbind ⟨j, site, he⟩) hcalls).settings k
      rwa [this] at hvalid

/-! ## Runs -/

theorem linked_empty (k : Nat) : ({} : Fleet).Linked k := by
  refine ⟨fun i => ?_, fun h => absurd h (by simp [controller, Table.get, default])⟩
  simp [Table.get, controller, default]

theorem after_concat (actions : List Action) (a : Action) :
    after (actions ++ [a]) = (after actions).perform a := by
  rw [after, run_append]
  rfl

/-- Settings that make sense in the end made sense at any time. -/
theorem valid_before {earlier actions : List Action} (he : earlier <+: actions)
    (hcalls : ∀ a ∈ actions, a.KeepsCallbacks)
    (hvalid : ((after actions).controller k).settings.invalid? = none) :
    ((after earlier).controller k).settings.invalid? = none := by
  obtain ⟨rest, rfl⟩ := he
  induction rest using List.reverseRecOn with
  | nil => rwa [List.append_nil] at hvalid
  | append_singleton rest a ih =>
      rw [← List.append_assoc] at hcalls hvalid
      rw [after_concat] at hvalid
      exact ih (fun b hb => hcalls b (List.mem_append_left _ hb))
        (valid_of_perform _ (hcalls a (by simp)) hvalid)

/-- **A run of considerate actions leaves the callback where it belongs.** -/
theorem linked_after {actions : List Action} (hcalls : ∀ a ∈ actions, a.KeepsCallbacks)
    (hvalid : ((after actions).controller k).settings.invalid? = none)
    (h : ∀ earlier a, earlier ++ [a] <+: actions → (after earlier).Considerate k a) :
    (after actions).Linked k := by
  induction actions using List.reverseRecOn with
  | nil => exact linked_empty k
  | append_singleton actions a ih =>
      have hbefore := valid_before (List.prefix_append actions [a]) hcalls hvalid
      have hlinked := ih (fun b hb => hcalls b (List.mem_append_left _ hb)) hbefore
        fun earlier b hb => h earlier b (hb.trans (List.prefix_append _ _))
      rw [after_concat]
      exact linked_perform hlinked hbefore (hcalls a (by simp)) (h actions a (List.prefix_refl _))

/-- **The callback follows the binding exactly as long as nobody gives a master another site.** Over
a run from nothing at all, with whatever controllers, services and sites, consider a controller with
settings that make sense. At every moment the sites that call it are the one that is bound, if it is
the master, and none otherwise: this is so if and only if the controller is never told, while it is
the master, to bind anything but what is bound to it already. -/
theorem follows_iff {actions : List Action} (hcalls : ∀ a ∈ actions, a.KeepsCallbacks)
    (hvalid : ((after actions).controller k).settings.invalid? = none) :
    (∀ earlier, earlier <+: actions → (after earlier).Follows k) ↔
    ∀ earlier site, earlier ++ [.bindCluster k site] <+: actions →
      ((after earlier).controller k).state = .master →
      ((after earlier).controller k).cluster.value = site := by
  constructor
  · intro hfollows earlier site he hmaster
    have hbefore := hfollows earlier ((List.prefix_append _ _).trans he)
    have hafter := hfollows _ he
    rw [after_concat] at hafter
    -- nobody is called by another site than before, though another one is bound
    refine Option.ext fun i => ?_
    have hi := (hbefore i).symm.trans (hafter i)
    rw [perform, bindCluster, controller_move_self] at hi
    simpa [hmaster, Controller.bindCluster, Slot.bind] using hi
  · intro h earlier he
    refine (linked_after (fun a ha => hcalls a (he.subset ha))
      (valid_before he hcalls hvalid) fun before a hb => ?_).follows
    intro site ha hmaster
    exact h before site (ha ▸ hb.trans he) hmaster

instance (f : Fleet) (i k : Nat) : Decidable (f.Calls i k) := inferInstanceAs (Decidable (k ∈ _))

/-- A controller becomes the master over a site. -/
def promoted : List Action :=
  [.add {}, .bindCoordination 0 (some 0), .bindCluster 0 (some 0), .activate 0, .deliver 0 0]

/-- A controller that has been the master is given another site while it is inactive. -/
def relocated : List Action :=
  promoted ++ [.deactivate 0, .bindCluster 0 (some 1), .activate 0, .deliver 0 1]

/-- Then the new site calls it and the old one does not. -/
theorem follows_relocated :
    (∀ a ∈ relocated, a.KeepsCallbacks) ∧
    ((after relocated).controller 0).settings.invalid? = none ∧
    (∀ earlier, earlier <+: relocated → (after earlier).Follows 0) ∧
    (after relocated).Calls 1 0 ∧ ¬ (after relocated).Calls 0 0 := by
  have hcalls : ∀ a ∈ relocated, a.KeepsCallbacks := by
    simp [relocated, promoted, Action.KeepsCallbacks]
  have hvalid : ((after relocated).controller 0).settings.invalid? = none := by decide
  -- before the last action the controller is the master at one moment only
  have hidle : ∀ n < 9, n ≠ 5 → ((after (relocated.take n)).controller 0).state ≠ .master := by
    decide
  refine ⟨hcalls, hvalid, (follows_iff hcalls hvalid).mpr ?_, by decide, by decide⟩
  rintro earlier site ⟨later, hsplit⟩ hmaster
  have hearlier : relocated.take earlier.length = earlier := by rw [← hsplit]; simp
  have hnext : relocated[earlier.length]? = some (.bindCluster 0 site) := by rw [← hsplit]; simp
  have hlength : earlier.length < 9 := (List.getElem?_eq_some_iff.mp hnext).1
  by_cases hn : earlier.length = 5
  · rw [hn] at hnext
    exact absurd (Option.some.inj hnext) (by simp)
  · have hno := hidle _ hlength hn
    rw [hearlier] at hno
    exact absurd hmaster hno

/-- A master is given another site. -/
def moved : List Action := promoted ++ [.bindCluster 0 (some 1)]

/-- **A master that is given another site goes on being called by the old one**, even when it has
been deactivated, and is not called by the new one. -/
theorem follows_not_moved :
    ((after moved).controller 0).settings.invalid? = none ∧ (after moved).Settled ∧
    ((after moved).controller 0).state = .master ∧
    ((after moved).controller 0).cluster.value = some 1 ∧
    (after moved).Calls 0 0 ∧ ¬ (after moved).Calls 1 0 ∧ ¬ (after moved).Follows 0 ∧
    (after (moved ++ [.deactivate 0])).Calls 0 0 := by
  have hmaster : ((after moved).controller 0).state = .master := by decide
  have hbound : ((after moved).controller 0).cluster.value = some 1 := by decide
  have huncalled : ¬ (after moved).Calls 1 0 := by decide
  exact ⟨by decide, by decide, hmaster, hbound, by decide, huncalled,
    fun h => huncalled ((h 1).mpr ⟨hmaster, hbound⟩), by decide⟩

end Fleet

end FleetScaler
