import FleetScaler.Proofs.Controller.Passes
import FleetScaler.Proofs.Fleet.Agreement

/-!
# Staffing while others work

A post may be filled while the controllers at other posts are at work: the newcomer
changes nothing for them. What a delivery means to a fleet beyond the part that its controller
shows is here too: one pass for the master, and a site that is as before but for its cluster and
for whom it calls.
-/

namespace FleetScaler.Fleet

open Coordination Controller

variable {f : Fleet} {k n : Nat} {p : Post} {posts : List Post} {seat : Candidacy}
  {m : Member Nat} {event : GroupEvent} {rest : List GroupEvent}

/-! ## A new post -/

/-- **A post can be filled at any time**, unless somebody calls the newcomer already. -/
theorem current_employ (h : Current posts f) (hsize : f.controllers.size = posts.length)
    (huncalled : ∀ i, ¬ f.Calls i f.controllers.size) (p : Post) :
    Current (posts ++ [p]) (f.employ p) := by
  have hself : (f.employ p).controller posts.length = novice p posts.length := by
    rw [← hsize]
    exact controller_employ_self f p
  have hothers : ∀ j, j ≠ posts.length → (f.employ p).controller j = f.controller j := by
    intro j hj
    exact controller_employ_ne f p (by rw [hsize]; exact hj)
  have hseated : ∀ {j : Nat} {p' : Post} {seat : Candidacy} {n : Nat} {m : Member Nat},
      posts[j]? = some p' → Seated f j p' seat n m → Seated (f.employ p) j p' seat n m := by
    intro j p' seat n m hj hs
    have hlt : j < posts.length := (List.getElem?_eq_some_iff.mp hj).1
    refine hs.hears ?_ (fun _ => Iff.rfl) (hears_refl hs.found)
    rw [hothers j (Nat.ne_of_lt hlt)]
    exact .refl _
  refine ⟨h.orderly, fun j p' hj => ?_, fun j hj => ?_, fun i n m hm hopen => ?_, h.silent⟩
  · rcases Nat.lt_or_ge j posts.length with hlt | hge
    · rw [List.getElem?_append_left hlt] at hj
      refine (h.abreast j p' hj).alike ?_ (fun _ => Iff.rfl) fun seat n m hs =>
        ⟨m, hears_refl hs.found⟩
      rw [hothers j (Nat.ne_of_lt hlt)]
      exact .refl _
    · -- the newcomer has done nothing yet
      rw [List.getElem?_append_right hge, List.getElem?_singleton] at hj
      split at hj
      · rename_i hzero
        obtain rfl : j = posts.length := by omega
        obtain rfl := Option.some.inj hj
        refine ⟨by rw [hself]; exact ⟨rfl, rfl, rfl⟩, Or.inl ⟨by rw [hself]; rfl, ?_⟩⟩
        refine ⟨by rw [hself]; rfl, fun _ => by rw [hself]; rfl, fun i => ?_⟩
        rw [hself]
        constructor
        · intro hi
          exact absurd hi (by rw [← hsize]; exact huncalled i)
        · intro hi
          exact absurd hi.1 (by simp)
      · exact absurd hj (by simp)
  · have hge : posts.length + 1 ≤ j := by
      simpa using List.getElem?_eq_none_iff.mp hj
    rw [hothers j (by omega)]
    exact h.vacant j (List.getElem?_eq_none (by omega))
  · obtain ⟨j, p', seat, hj, hservice, hs⟩ := h.owned i n m hm hopen
    have hlt : j < posts.length := (List.getElem?_eq_some_iff.mp hj).1
    exact ⟨j, p', seat, by rw [List.getElem?_append_left hlt]; exact hj, hservice, hseated hj hs⟩

/-- A controller that has just taken up its post can be activated. -/
theorem activate_ok (hc : (f.controller k).candidacy = none) (hat : (f.controller k).At p)
    (hpath : (f.controller k).settings.groupPath ≠ "") : (f.activate k).1 = .ok () := by
  obtain ⟨elector, journal, heq, -⟩ := Controller.activate_eq (w := f.toSurroundings) hc
    hat.coordination hpath
  rw [activate, act, heq]

/-! ## Deliveries -/

/-- A seated controller can deal with the event that comes next. -/
theorem hear_taken (hat : (f.controller k).At p) (hvalid : p.settings.invalid? = none)
    (hs : Seated f k p seat n m) (rest : List GroupEvent) (memberId : String)
    (event : GroupEvent) :
    ∃ c' w', (f.controller k).hear memberId event (f.taken p.service n rest).toSurroundings
      = (.ok (), c', w') := by
  have hfound : ((f.taken p.service n rest).services.get seat.service).members[n]?
      = some { m with queue := rest } := by
    rw [hs.service, taken, Table.get_set_self, getElem?_onMember, if_pos rfl, hs.found]
    rfl
  have hpoll : 0 < (f.controller k).settings.pollIntervalMs.toNat := by
    rw [hat.settings]
    exact interval_pos hvalid
  obtain ⟨w₁, c', w', -, hear, -⟩ := heard_hear
    (w := (f.taken p.service n rest).toSurroundings) hs.candidacy hat.coordination hat.cluster
    hs.callable hs.only hs.group hfound hs.isOpen hpoll memberId event
  exact ⟨c', w', hear⟩

/-- A delivery to a seated controller is what the controller makes of the event. -/
theorem deliver_eq_hear (hat : (f.controller k).At p) (hvalid : p.settings.invalid? = none)
    (hs : Seated f k p seat n m) (hq : m.queue = event :: rest) :
    ∃ memberId c' w', (f.controller k).hear memberId event
        (f.taken p.service n rest).toSurroundings = (.ok (), c', w')
      ∧ f.deliver p.service n = { w' with controllers := f.controllers.set k c' } := by
  obtain ⟨c', w', hear⟩ := hear_taken hat hvalid hs rest
    (((f.taken p.service n rest).services.get p.service).idOf n) event
  exact ⟨_, c', w', hear, deliver_eq hs.found hq hs.listeners hear⟩

/-- What a delivery of good news comes to besides the part that the controller shows. -/
structure Delivered (f f' : Fleet) (k : Nat) (isMaster : Bool) : Prop where
  passes : (f'.controller k).tally.passes
    = (f.controller k).tally.passes + if isMaster then 1 else 0
  dropped : (f'.controller k).dropped = (f.controller k).dropped
  others : ∀ j, j ≠ k → f'.controller j = f.controller j
  size : f'.controllers.size = max f.controllers.size (k + 1)
  sites : ∀ i, Site.AsBefore (f.sites.get i) (f'.sites.get i)

/-- **A delivery is worth one pass to the master.** -/
theorem delivered_up (hat : (f.controller k).At p) (hvalid : p.settings.invalid? = none)
    (ho : Orderly (f.services.get p.service)) (hs : Seated f k p seat n m)
    (hq : m.queue = event :: rest) (hup : event.up = true)
    (hreq : (f.sites.get p.site).outage.requirements = false) :
    Delivered f (f.deliver p.service n) k ((f.services.get p.service).isMaster n) := by
  obtain ⟨memberId, c', w', hear, heq⟩ := deliver_eq_hear hat hvalid hs hq
  have hself : (f.deliver p.service n).controller k = { c' with handle := k } := by
    rw [heq, controller, Table.get_set_self]
  have hget : (f.taken p.service n rest).services.get seat.service
      = (f.services.get p.service).onMember n fun m => { m with queue := rest } := by
    rw [hs.service]
    exact Table.get_set_self _ _ _
  have hfound : ((f.taken p.service n rest).services.get seat.service).members[n]?
      = some { m with queue := rest } := by
    rw [hget, getElem?_onMember, if_pos rfl, hs.found]
    rfl
  -- taking an event off a queue makes nobody the master
  have hmaster : ((f.taken p.service n rest).services.get seat.service).isMaster n
      = (f.services.get p.service).isMaster n := by
    rw [hget]
    exact (sameLines_onMember _ n (f := fun m => { m with queue := rest })
      fun _ => rfl).isMaster ho n
  have hpasses := passes_hear (w := (f.taken p.service n rest).toSurroundings) hs.candidacy
    hat.coordination hat.cluster hs.group hfound hs.isOpen
    (by rw [hat.settings]; exact interval_pos hvalid) hreq memberId hup
  rw [hear, hmaster] at hpasses
  refine ⟨by rw [hself]; exact hpasses, ?_, fun j hj => ?_, ?_, fun i => ?_⟩
  · have hdropped := dropped_hear (f.controller k) memberId event
      (f.taken p.service n rest).toSurroundings
    rw [hear] at hdropped
    rw [hself]
    exact hdropped
  · rw [heq, controller, Table.get_set_ne _ _ hj]
    rfl
  · rw [heq]
    exact Table.size_set _ _ _
  · have hsites := asBefore_hear (f.controller k) memberId event
      (f.taken p.service n rest).toSurroundings i
    rw [hear] at hsites
    rw [heq]
    exact hsites

end FleetScaler.Fleet
