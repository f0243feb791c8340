import FleetScaler.Proofs.Fleet.Abreast

/-!
# Coming, going and losing the session

A controller that is activated becomes a member with an event to hear, and one that is deactivated
closes its member and shows no part any more. A session that is lost or comes back is told to the
member whose session it is. Each of these keeps the controllers abreast, whatever is waiting.
-/

namespace FleetScaler.Fleet

open Coordination Controller

variable {f f' : Fleet} {k : Nat} {p : Post} {posts : List Post}

/-! ## Sessions -/

theorem minds_service {service n : Nat} {s : Coordination Nat}
    (h : Apart (f.services.get service) s n) (k : Nat) :
    Minds f { f with services := f.services.set service s } k service n where
  services i hi := Table.get_set_ne _ _ hi
  apart := by
    show Apart _ ((f.services.set service s).get service) n
    rw [Table.get_set_self]
    exact h
  others _ _ := .refl _
  calls _ _ _ := Iff.rfl

/-- **A member whose own turn it is hears of it**, if it has started and stays open. -/
theorem current_turn (h : Current posts f) {service n : Nat} {s : Coordination Nat}
    {m m' : Member Nat} (t : Turn (f.services.get service) s n m m')
    (ho : Orderly (f.services.get service) → Orderly s)
    (hstarted : m'.started = m.started) (hclosed : m'.closed = false)
    (hlisteners : m'.listeners = m.listeners)
    (hnews : m.started = true →
      ∃ event, m'.queue.getLast? = some event ∧ event.up = m'.connected) :
    Current posts { f with services := f.services.set service s } := by
  obtain ⟨k, p, seat, hp, rfl, hs⟩ := h.owned service n m t.found t.isOpen
  obtain ⟨event, hevent, hup⟩ := hnews hs.started
  have hself : ({ f with services := f.services.set p.service s } : Fleet).services.get p.service
      = s := Table.get_set_self _ _ _
  -- the last event in its queue is the one that the turn has added
  have hafter : Seated { f with services := f.services.set p.service s } k p seat n m' := by
    refine ⟨hs.candidacy, hs.service, hs.group, hs.callable, hs.only, by rw [hself]; exact t.self,
      hclosed, hstarted.trans hs.started, t.same.2.trans hs.path, hlisteners.trans hs.listeners,
      ?_, ?_⟩
    · intro e he
      rw [hevent] at he
      rw [← Option.some.inj he, hup]
    · intro hempty
      rw [hempty] at hevent
      exact absurd hevent (by simp)
  exact current_of_seated h hp (minds_service (apart_turn t ho) k) (Or.inr ⟨seat, m, hs⟩)
    (h.abreast k p hp).post hafter

/-- Putting a service in its own place makes no difference. -/
theorem faint_same_service (f : Fleet) (service : Nat) :
    Faint f { f with services := f.services.set service (f.services.get service) } where
  alike _ := .refl _
  services i := by
    by_cases hi : i = service
    · subst hi
      exact Table.get_set_self _ _ _
    · exact Table.get_set_ne _ _ hi
  calls _ _ := Iff.rfl

theorem current_disconnect (h : Current posts f) (service : Nat) (id : String) :
    Current posts (f.disconnect service id).2 := by
  rcases disconnect_cases (f.services.get service) id with ⟨n, m, _, _, t, _⟩ | ⟨he, _⟩
  · refine current_turn h t (fun ho => orderly_disconnect ho id) (by simp [Member.cutOff]) ?_
      (by simp [Member.cutOff]) ?_
    · simpa [Member.cutOff] using t.isOpen
    · intro hstarted
      exact ⟨.disconnected, getLast?_cutOff hstarted t.isOpen,
        by simp [Member.cutOff, GroupEvent.up]⟩
  · have hsame : (f.disconnect service id).2
        = { f with services := f.services.set service (f.services.get service) } := by
      simp only [disconnect, he]
    rw [hsame]
    exact current_faint h (faint_same_service f service)

theorem current_reconnect (h : Current posts f) (service : Nat) (id : String) :
    Current posts (f.reconnect service id).2 := by
  rcases reconnect_cases (f.services.get service) id with ⟨n, m, _, _, t, _⟩ | ⟨he, _⟩
  · refine current_turn h t (fun ho => orderly_reconnect ho id) (by simp [Member.back]) ?_
      (by simp [Member.back]) ?_
    · simpa [Member.back] using t.isOpen
    · intro hstarted
      exact ⟨.connected, getLast?_back _ hstarted t.isOpen,
        by simp [Member.back, GroupEvent.up]⟩
  · have hsame : (f.reconnect service id).2
        = { f with services := f.services.set service (f.services.get service) } := by
      simp only [reconnect, he]
    rw [hsame]
    exact current_faint h (faint_same_service f service)

/-! ## Coming and going -/

/-- The step of a controller that stands for no member, before it or after it. -/
theorem current_unseated (h : Current posts f) (hc : (f.controller k).candidacy = none)
    (hs : ∀ i, f'.services.get i = f.services.get i)
    (hothers : ∀ j, j ≠ k → Alike (f.controller j) (f'.controller j))
    (hcalls : ∀ i j, j ≠ k → (f'.Calls i j ↔ f.Calls i j))
    (hpost : ∀ p, posts[k]? = some p → Abreast f' k p)
    (hvacant : posts[k]? = none →
      (f'.controller k).candidacy = none ∧ (f'.controller k).coordination.value = none) :
    Current posts f' := by
  have hnone : (f.services.get 0).members[(f.services.get 0).members.length]? = none := by simp
  have hminds : Minds f f' k 0 (f.services.get 0).members.length := by
    refine ⟨fun i _ => hs i, ?_, hothers, hcalls⟩
    rw [hs 0]
    exact .refl _ _
  refine current_of_minds h hminds ?_ ?_ hpost hvacant ?_
  · intro p seat j m _ hseated
    exact absurd (hc.symm.trans hseated.candidacy) (by simp)
  · intro m hm
    exact absurd (hnone.symm.trans hm) (by simp)
  · intro m hm
    rw [hs 0] at hm
    exact absurd (hnone.symm.trans hm) (by simp)

/-- Activation at a post is enrolment at the service of the post. -/
theorem activate_at (hc : (f.controller k).candidacy = none) (hat : (f.controller k).At p)
    (hpath : (f.controller k).settings.groupPath ≠ "") :
    ∃ (elector : Elector Nat) (journal : Log.Journal),
      (f.activate k).2 = {
        f with
        services := f.services.set p.service ((f.services.get p.service).enrol
          { config := (f.controller k).electorConfig } k)
        controllers := f.controllers.set k { f.controller k with
          callable := true, candidacy := some { service := p.service, elector },
          journal := journal } }
      ∧ elector.group = some (f.services.get p.service).members.length := by
  obtain ⟨elector, journal, heq, _, _, hgroup⟩ := Controller.activate_eq
    (w := f.toSurroundings) hc hat.coordination hpath
  refine ⟨elector, journal, ?_, hgroup⟩
  rw [activate, act, heq]
  rfl

/-- A controller that takes a seat at its post is told that its session is up. -/
theorem current_recruit (h : Current posts f) (hp : posts[k]? = some p)
    (hc : (f.controller k).candidacy = none) (hvalid : p.settings.invalid? = none) :
    Current posts (f.activate k).2 := by
  have hat := (h.abreast k p hp).post
  have hpath : (f.controller k).settings.groupPath ≠ "" := by
    rw [hat.settings]
    exact path_ne_empty hvalid
  have huncalled : ∀ i, ¬ f.Calls i k := by
    intro i hi
    rcases (h.abreast k p hp).part with ⟨_, hshows⟩ | ⟨seat, n, m, hs⟩
    · exact absurd ((hshows.tracked i).mp hi).1 (by simp)
    · exact absurd (hc.symm.trans hs.candidacy) (by simp)
  obtain ⟨elector, journal, heq, hgroup⟩ := activate_at hc hat hpath
  obtain ⟨place, t⟩ := turn_enrol (f.services.get p.service)
    { config := (f.controller k).electorConfig } k hpath
  rw [Elector.begun_recruit] at t
  have hget : (f.activate k).2.services.get p.service
      = (f.services.get p.service).enrol { config := (f.controller k).electorConfig } k := by
    rw [heq]
    exact Table.get_set_self _ _ _
  have hself : (f.activate k).2.controller k
      = { f.controller k with
          callable := true, candidacy := some { service := p.service, elector },
          journal := journal } := by
    rw [heq, controller, Table.get_set_self]
    rfl
  have hminds : Minds f (f.activate k).2 k p.service
      (f.services.get p.service).members.length := by
    rw [heq]
    refine minds_step (fun i hi => Table.get_set_ne _ _ hi) ?_ fun i j _ => Iff.rfl
    rw [Table.get_set_self]
    exact apart_enrol (f.services.get p.service) _ k hpath
  -- the start of the new member waits to be heard
  have hafter : Seated (f.activate k).2 k p
      { service := p.service, elector } (f.services.get p.service).members.length
      { Elector.recruit { config := (f.controller k).electorConfig } k
          (f.services.get p.service).members.length with
        started := true, sequence := place, queue := [.connected] } := by
    refine ⟨by rw [hself], rfl, hgroup, by rw [hself], fun i hi => ?_, by rw [hget]; exact t.self,
      rfl, rfl, congrArg Settings.groupPath hat.settings, rfl, ?_, fun he => absurd he (by simp)⟩
    · rw [heq] at hi
      exact absurd hi (huncalled i)
    · intro event he
      rw [← Option.some.inj he]
      rfl
  exact current_of_seated h hp hminds (Or.inl ⟨hc, by simp⟩)
    (by rw [hself]; exact ⟨hat.settings, hat.coordination, hat.cluster⟩) hafter

/-- **An activated controller has an event to hear**, and then it knows its part. -/
theorem current_activate (h : Current posts f) (k : Nat)
    (hvalid : ∀ p ∈ posts, p.settings.invalid? = none) : Current posts (f.activate k).2 := by
  cases hc : (f.controller k).candidacy with
  | some seat =>
      have hstay : ((f.controller k).activate f.toSurroundings).2
          = (f.controller k, f.toSurroundings) := by
        simp [Controller.activate, isActive, hc]
      rw [activate, act_eq_move]
      refine current_faint h (faint_move f k _ ?_)
      rw [hstay]
      exact ⟨.refl _, rfl, fun _ => rfl⟩
  | none =>
      cases hp : posts[k]? with
      | none =>
          -- nothing is bound, so nothing is joined
          obtain ⟨_, hcoord⟩ := h.vacant k hp
          have hrefused : ((f.controller k).activate f.toSurroundings).2
              = ({ f.controller k with callable := true }, f.toSurroundings) := by
            simp [Controller.activate, isActive, hc, Slot.get, hcoord]
          rw [activate, act_eq_move]
          refine current_unseated h hc (fun i => ?_) (fun j hj => ?_) (fun i j _ => ?_) ?_ ?_
          · rw [toSurroundings_move, hrefused]
          · rw [controller_move_ne f k hj]
            exact .refl _
          · unfold Calls
            rw [toSurroundings_move, hrefused]
          · intro p hp'
            exact absurd (hp.symm.trans hp') (by simp)
          · intro _
            rw [controller_move_self, hrefused]
            exact ⟨hc, hcoord⟩
      | some p => exact current_recruit h hp hc (hvalid p (List.mem_of_getElem? hp))

/-- A deactivated controller has no seat, no part and no running timer. -/
theorem controller_deactivate (f : Fleet) (k : Nat) :
    ∃ journal, (f.deactivate k).controller k
      = { f.controller k with
          candidacy := none, timer := (f.controller k).timer.disable.2, state := .unknown,
          journal := journal } := by
  obtain ⟨journal, heq⟩ := Controller.deactivate_eq (f.controller k) f.toSurroundings
  refine ⟨journal, ?_⟩
  rw [deactivate, controller_move_self, heq]
  rfl

theorem alike_deactivate (f : Fleet) {k j : Nat} (hj : j ≠ k) :
    Alike (f.controller j) ((f.deactivate k).controller j) := by
  rw [deactivate, controller_move_ne f k hj]
  exact .refl _

theorem services_deactivate (f : Fleet) (k : Nat) :
    (f.deactivate k).services = ((f.controller k).leave f.toSurroundings).2.services := by
  obtain ⟨journal, heq⟩ := Controller.deactivate_eq (f.controller k) f.toSurroundings
  show (f.move k _).toSurroundings.services = _
  rw [toSurroundings_move, heq, services_untracked]

/-- The site that is bound calls a deactivated controller no longer. -/
theorem calls_deactivate (f : Fleet) (k i j : Nat) : (f.deactivate k).Calls i j ↔
    ¬ ((f.controller k).cluster.value = some i ∧ (f.controller k).callback = some j)
      ∧ f.Calls i j := by
  obtain ⟨journal, heq⟩ := Controller.deactivate_eq (f.controller k) f.toSurroundings
  show j ∈ ((f.move k _).toSurroundings.sites.get i).store.callbacks ↔ _
  rw [toSurroundings_move, heq, mem_callbacks_untracked, sites_leave]
  rfl

theorem calls_deactivate_ne (f : Fleet) (i : Nat) {k j : Nat} (hj : j ≠ k) :
    (f.deactivate k).Calls i j ↔ f.Calls i j := by
  rw [calls_deactivate]
  exact and_iff_right fun h => callback_ne (c := f.controller k) hj h.2

/-- A deactivated controller that no site calls shows no part. -/
theorem abreast_deactivate (hat : (f.controller k).At p)
    (huncalled : ∀ i, ¬ (f.deactivate k).Calls i k) : Abreast (f.deactivate k) k p := by
  obtain ⟨journal, hself⟩ := controller_deactivate f k
  refine ⟨by rw [hself]; exact ⟨hat.settings, hat.coordination, hat.cluster⟩,
    Or.inl ⟨by rw [hself], by rw [hself], fun _ => ?_, fun i => ?_⟩⟩
  · rw [hself]
    exact Timer.isEnabled_disable _
  · constructor
    · intro hi; exact absurd hi (huncalled i)
    · intro hi; exact absurd hi.1 (by simp)

/-- A controller that leaves its seat closes its member, which hears of nothing any more. -/
theorem current_leave (h : Current posts f) (hp : posts[k]? = some p) {seat : Candidacy} {n : Nat}
    {m : Member Nat} (hs : Seated f k p seat n m) : Current posts (f.deactivate k) := by
  have hat := (h.abreast k p hp).post
  have hservices := services_deactivate f k
  rw [services_leave hs.candidacy hs.group, hs.service] at hservices
  have hget : (f.deactivate k).services.get p.service
      = ((f.services.get p.service).unlisten n k).close n := by
    rw [hservices, Table.get_set_self]
    rfl
  have hminds : Minds f (f.deactivate k) k p.service n := by
    refine ⟨fun i hi => ?_, ?_, fun j hj => alike_deactivate f hj,
      fun i j hj => calls_deactivate_ne f i hj⟩
    · rw [hservices, Table.get_set_ne _ _ hi]
    · rw [hget]
      exact (apart_unlisten _ n k).trans (apart_close _ n)
  -- the site of the post is the only one that called the controller
  have huncalled : ∀ i, ¬ (f.deactivate k).Calls i k := by
    intro i hi
    obtain ⟨hnot, hcalled⟩ := (calls_deactivate f k i k).mp hi
    rw [hs.only i hcalled] at hnot
    exact hnot ⟨hat.cluster, callback_of_callable hs.callable⟩
  refine current_of_post h hp hminds (Or.inr ⟨seat, m, hs⟩) (abreast_deactivate hat huncalled) ?_
  intro m' hm'
  have hlast : ((f.services.get p.service).unlisten n k).members[n]?
      = some { m with listeners := m.listeners.filter (· ≠ k) } := by
    rw [unlisten, getElem?_onMember, if_pos rfl, hs.found]
    rfl
  rw [hget, getElem?_close hlast hs.isOpen] at hm'
  obtain rfl := Option.some.inj hm'
  exact Or.inr ⟨rfl, rfl⟩

/-- **A deactivated controller shows no part**, and its member is closed for good. -/
theorem current_deactivate (h : Current posts f) (k : Nat) : Current posts (f.deactivate k) := by
  cases hc : (f.controller k).candidacy with
  | none =>
      have hsame : (f.deactivate k).services = f.services := by
        rw [services_deactivate, leave_of_none hc]
      refine current_unseated h hc (fun i => by rw [hsame]) (fun j hj => alike_deactivate f hj)
        (fun i j hj => calls_deactivate_ne f i hj) (fun p hp => ?_) fun hp => ?_
      · obtain ⟨hat, hpart⟩ := h.abreast k p hp
        refine abreast_deactivate hat fun i hi => ?_
        have hcalled := ((calls_deactivate f k i k).mp hi).2
        rcases hpart with ⟨_, hshows⟩ | ⟨seat, n, m, hs⟩
        · exact absurd ((hshows.tracked i).mp hcalled).1 (by simp)
        · exact absurd (hc.symm.trans hs.candidacy) (by simp)
      · obtain ⟨journal, hself⟩ := controller_deactivate f k
        rw [hself]
        exact ⟨rfl, (h.vacant k hp).2⟩
  | some seat =>
      cases hp : posts[k]? with
      | none => exact absurd ((h.vacant k hp).1.symm.trans hc) (by simp)
      | some p =>
          rcases (h.abreast k p hp).part with ⟨hnone, _⟩ | ⟨seat, n, m, hs⟩
          · exact absurd (hnone.symm.trans hc) (by simp)
          · exact current_leave h hp hs

end FleetScaler.Fleet
