import FleetScaler.Proofs.Controller.Part

/-!
# Where a controller is tracked

A controller has its callback tracked by the site that is bound while it is the master, and by no
site otherwise. It is promotions, demotions and losses of sessions that put this right, each at the
site that is bound at that moment, and so do a deactivation and the unbinding of a site. `Tidy` says
of a step that it leaves a callback where it belongs, if it was there before.
-/

namespace FleetScaler

namespace Controller

variable {c c' c'' : Controller} {w w' w'' : Surroundings} {k : Nat}

/-- The callback `k` of a controller is tracked by the site that is bound while the controller is
the master, and by no other site. -/
structure Linked (k : Nat) (c : Controller) (w : Surroundings) : Prop where
  tracked : ∀ i, k ∈ (w.sites.get i).store.callbacks ↔
    c.state = .master ∧ c.cluster.value = some i
  /-- Whoever stands for election or is the master has a callback. -/
  callable : c.candidacy.isSome = true ∨ c.state = .master → c.callable = true

/-- A step of a controller leaves its callback where it belongs, and those of others alone. -/
structure Tidy (c : Controller) (w : Surroundings) (c' : Controller) (w' : Surroundings) :
    Prop where
  settings : c'.settings = c.settings
  others : ∀ i j, j ≠ c.handle →
    (j ∈ (w'.sites.get i).store.callbacks ↔ j ∈ (w.sites.get i).store.callbacks)
  linked : c.settings.invalid? = none → Linked c.handle c w → Linked c.handle c' w'

/-- A step that changes neither the part, the site that is bound nor any callback. -/
theorem tidy_of_same (hset : c'.settings = c.settings) (hstate : c'.state = c.state)
    (hcluster : c'.cluster.value = c.cluster.value)
    (hcallable : c.callable = true → c'.callable = true)
    (hcandidacy : c'.candidacy.isSome = true → c.candidacy.isSome = true ∨ c'.callable = true)
    (hw : ∀ i, (w'.sites.get i).store.callbacks = (w.sites.get i).store.callbacks) :
    Tidy c w c' w' where
  settings := hset
  others i j _ := by rw [hw i]
  linked _ h := by
    refine ⟨fun i => by rw [hw i, hstate, hcluster]; exact h.tracked i, ?_⟩
    rintro (hc | hm)
    · rcases hcandidacy hc with hc | hc
      · exact hcallable (h.callable (Or.inl hc))
      · exact hc
    · exact hcallable (h.callable (Or.inr (hstate ▸ hm)))

theorem tidy_of_faint (h : Faint c w c' w') : Tidy c w c' w' :=
  tidy_of_same h.alike.settings h.alike.state (congrArg Slot.value h.alike.cluster)
    (fun hc => h.alike.callable.trans hc) (fun hc => Or.inl (h.alike.candidacy ▸ hc)) h.callbacks

/-! ## Steps that untrack the callback -/

/-- Only its own callback is untracked for a controller. -/
theorem mem_callbacks_untracked_ne (c : Controller) (w : Surroundings) (i : Nat) {j : Nat}
    (hj : j ≠ c.handle) : j ∈ ((c.untracked w).sites.get i).store.callbacks
      ↔ j ∈ (w.sites.get i).store.callbacks := by
  rw [mem_callbacks_untracked]
  exact and_iff_right fun h => callback_ne hj h.2

/-- Once a linked controller has had itself untracked, no site calls it. -/
theorem Linked.untracked (h : Linked c.handle c w) (i : Nat) :
    c.handle ∉ ((c.untracked w).sites.get i).store.callbacks := by
  rw [mem_callbacks_untracked]
  rintro ⟨hnot, hin⟩
  obtain ⟨hmaster, hbound⟩ := (h.tracked i).mp hin
  exact hnot ⟨hbound, callback_of_callable (h.callable (Or.inr hmaster))⟩

/-- A controller that has itself untracked and is no master any more is tidy. -/
theorem tidy_of_untracked (hset : c'.settings = c.settings) (hstate : c'.state ≠ .master)
    (hcallable : c'.callable = c.callable)
    (hcandidacy : c'.candidacy.isSome = true → c.candidacy.isSome = true)
    (hw : ∀ i, (w'.sites.get i).store.callbacks
      = ((c.untracked w).sites.get i).store.callbacks) : Tidy c w c' w' where
  settings := hset
  others i j hj := by rw [hw i, mem_callbacks_untracked_ne c w i hj]
  linked _ h := by
    refine ⟨fun i => ?_, ?_⟩
    · rw [hw i]
      exact ⟨fun hin => absurd hin (h.untracked i), fun hm => absurd hm.1 hstate⟩
    · rintro (hc | hm)
      · exact hcallable.trans (h.callable (Or.inl (hcandidacy hc)))
      · exact absurd hm hstate

theorem tidy_stepBack (c : Controller) (w : Surroundings) :
    Tidy c w (c.stepBack w).1 (c.stepBack w).2 :=
  tidy_of_untracked rfl (by simp [stepBack, note]) rfl id fun _ => rfl

theorem tidy_deactivate (c : Controller) (w : Surroundings) :
    Tidy c w (c.deactivate w).1 (c.deactivate w).2 := by
  obtain ⟨journal, he⟩ := deactivate_eq c w
  rw [he]
  refine tidy_of_untracked rfl (by simp) rfl (by simp) fun i => ?_
  unfold untracked
  cases c.cluster.value <;> simp [Surroundings.onSite]

theorem tidy_becomeStandby {site : Nat} (hs : c.cluster.value = some site) :
    Tidy c w (c.becomeStandby site w).1 (c.becomeStandby site w).2 := by
  refine tidy_of_untracked rfl (by simp [becomeStandby]) rfl id fun i => ?_
  rw [untracked, hs]
  rfl

/-- A site that is unbound calls the controller no longer, and if it is another one that is bound
it has not called it before. -/
theorem tidy_unbindCluster (c : Controller) (site : Option Nat) (w : Surroundings) :
    Tidy c w (c.unbindCluster site w).1 (c.unbindCluster site w).2 := by
  cases site with
  | none =>
      refine tidy_of_same rfl rfl ?_ id Or.inl fun _ => rfl
      simp only [unbindCluster, Slot.unbind]
      split
      · rename_i hnone
        exact hnone.symm
      · rfl
  | some site =>
      -- the site has the callback untracked as if it were the one that is bound
      have hafter : (c.unbindCluster (some site) w).2
          = ({ c with cluster := c.cluster.bind (some site) }).untracked w := rfl
      have hvalue : ∀ i, (c.unbindCluster (some site) w).1.cluster.value = some i
          ↔ i ≠ site ∧ c.cluster.value = some i := by
        intro i
        simp only [unbindCluster, Slot.unbind]
        split
        · rename_i hbound
          simp [hbound, eq_comm]
        · rename_i hbound
          constructor
          · exact fun hi => ⟨fun he => hbound (he ▸ hi), hi⟩
          · exact And.right
      refine ⟨rfl, fun i j hj => ?_, fun _ h => ⟨fun i => ?_, h.callable⟩⟩
      · rw [hafter]
        exact mem_callbacks_untracked_ne _ w i hj
      · rw [hafter, mem_callbacks_untracked, hvalue, h.tracked]
        constructor
        · rintro ⟨hnot, hmaster, hi⟩
          have hcallable := callback_of_callable (h.callable (Or.inr hmaster))
          exact ⟨hmaster, fun he => hnot ⟨congrArg some he.symm, hcallable⟩, hi⟩
        · rintro ⟨hmaster, hne, hi⟩
          exact ⟨fun hnot => hne (Option.some.inj hnot.1).symm, hmaster, hi⟩

/-! ## Promotions -/

/-- A pass leaves the callbacks as the promotion has made them. -/
theorem callbacks_becomeMaster (c : Controller) (site : Nat) (w : Surroundings) (i : Nat) :
    ((c.becomeMaster site w).2.2.sites.get i).store.callbacks
      = ((w.onSite site (Site.track c.callback)).sites.get i).store.callbacks := by
  unfold becomeMaster
  rcases c.timer.enable c.settings.pollIntervalMs.toNat with ⟨_ | _, timer⟩
  · rfl
  · simp only
    rw [store_reconcile]

/-- **A controller that becomes the master is tracked by the site that is bound.** -/
theorem tidy_becomeMaster {site : Nat} (hs : c.cluster.value = some site)
    (hc : c.candidacy.isSome = true) :
    Tidy c w (c.becomeMaster site w).2.1 (c.becomeMaster site w).2.2 where
  settings := (keeps_becomeMaster c site w).settings
  others i j hj := by
    rw [callbacks_becomeMaster]
    unfold callback
    split
    · rw [mem_callbacks_track]
      simp [hj]
    · by_cases hi : i = site
      · subst hi
        simp [Surroundings.onSite, Site.track, Store.track]
      · simp [Surroundings.onSite, Table.get_update_ne _ _ hi]
  linked hvalid h := by
    have hcallable : c.callable = true := h.callable (Or.inl hc)
    obtain ⟨b, timer, henable, _⟩ :=
      c.timer.enable_spec (Int.natCast_pos.mpr (interval_pos hvalid))
    have hmaster : (c.becomeMaster site w).2.1
        = (({ c with timer, state := .master } : Controller).reconcile
            (w.onSite site (Site.track c.callback))).2.1 := by
      simp only [becomeMaster, henable]
    obtain ⟨tally, report, journal, hpass⟩ := reconcile_eq { c with timer, state := .master }
      (w.onSite site (Site.track c.callback))
    rw [hmaster, hpass]
    refine ⟨fun i => ?_, fun _ => hcallable⟩
    rw [callbacks_becomeMaster, callback_of_callable hcallable, mem_callbacks_track, h.tracked]
    -- a site that has called it before is the one that is bound, too
    constructor
    · rintro (⟨rfl, _⟩ | ⟨_, hi⟩)
      · exact ⟨rfl, hs⟩
      · exact ⟨rfl, hi⟩
    · rintro ⟨_, hi⟩
      exact Or.inl ⟨(Option.some.inj (hs.symm.trans hi)).symm, rfl⟩

/-! ## Events -/

/-- A step may be followed by another one of the same controller. -/
theorem Tidy.trans (h : Tidy c w c' w') (hh : c'.handle = c.handle) (h' : Tidy c' w' c'' w'') :
    Tidy c w c'' w'' where
  settings := h'.settings.trans h.settings
  others i j hj := (h'.others i j (hh ▸ hj)).trans (h.others i j hj)
  linked hvalid hl := by
    have := h'.linked (by rw [h.settings]; exact hvalid) (hh ▸ h.linked hvalid hl)
    rwa [hh] at this

theorem tidy_takePart {seat : Candidacy} {site : Nat} (hc : c.candidacy = some seat)
    (hs : c.cluster.value = some site) :
    Tidy c w (c.takePart seat site w).2.1 (c.takePart seat site w).2.2 := by
  have hpublish : ∀ (seat' : Candidacy) (journal : Log.Journal),
      Tidy c w { c with candidacy := some seat', journal := journal }
        (seat.republish c.handle w).2.2 :=
    fun _ _ => tidy_of_same rfl rfl rfl id (fun _ => Or.inl (by simp [hc])) fun _ => rfl
  unfold takePart
  simp only
  split
  · exact hpublish _ _
  · by_cases hm : c.isMaster w = true
    · rw [if_pos hm]
      split <;> exact (hpublish _ _).trans rfl (tidy_becomeMaster hs rfl)
    · rw [if_neg hm]
      split <;> exact (hpublish _ _).trans rfl (tidy_becomeStandby hs)

theorem tidy_membershipEvent (c : Controller) (event : MembershipEvent) (w : Surroundings) :
    Tidy c w (c.membershipEvent event w).2.1 (c.membershipEvent event w).2.2 := by
  unfold membershipEvent
  split
  · exact tidy_stepBack c w
  · split
    · rename_i seat _ site hc _ hs
      exact tidy_takePart hc hs
    · exact tidy_of_same rfl rfl rfl id Or.inl fun _ => rfl

theorem tidy_hear (c : Controller) (memberId : String) (event : GroupEvent) (w : Surroundings) :
    Tidy c w (c.hear memberId event w).2.1 (c.hear memberId event w).2.2 := by
  unfold hear
  split
  · exact tidy_of_same rfl rfl rfl id Or.inl fun _ => rfl
  · rename_i seat hc
    have hheard : Tidy c w
        { c with candidacy := some { seat with elector := (seat.elector.hear memberId event).2 } }
        w :=
      tidy_of_same rfl rfl rfl id (fun _ => Or.inl (by simp [hc])) fun _ => rfl
    exact hheard.trans rfl (tidy_membershipEvent _ (seat.elector.hear memberId event).1 w)

/-! ## Coming and going -/

/-- Whoever stands for election has a callback. -/
theorem tidy_activate (c : Controller) (w : Surroundings) :
    Tidy c w (c.activate w).2.1 (c.activate w).2.2 := by
  unfold activate
  split
  · exact tidy_of_same rfl rfl rfl id Or.inl fun _ => rfl
  · simp only
    split
    · exact tidy_of_same rfl rfl rfl (fun _ => rfl) Or.inl fun _ => rfl
    · split
      · exact tidy_of_same rfl rfl rfl (fun _ => rfl) Or.inl fun _ => rfl
      · exact tidy_of_same rfl rfl rfl (fun _ => rfl) (fun _ => Or.inr rfl) fun _ => rfl

theorem tidy_drop (c : Controller) (w : Surroundings) :
    Tidy c w (c.drop w).1 (c.drop w).2 := by
  unfold drop leave
  split
  · exact tidy_of_same rfl rfl rfl id Or.inl fun _ => rfl
  · exact tidy_of_same rfl rfl rfl id (fun h => absurd h (by simp [inherit])) fun _ => rfl

end Controller

end FleetScaler
