import FleetScaler.Proofs.Fleet.Attendance

/-!
# Controllers agree with their services

Once no event is waiting, every controller shows the part that its coordination service assigns to
it, whatever the order in which things have happened. What is left to see for this is that a
delivery keeps the controllers abreast: the event reads the group of the moment at which it is
delivered, and whatever happens to the group later causes another event.
-/

namespace FleetScaler.Fleet

open Coordination Controller

variable {f f' : Fleet} {k : Nat} {p : Post} {posts : List Post}

/-! ## Delivery -/

/-- The fleet when the next event of a member has been taken and nobody has heard it yet. -/
def taken (f : Fleet) (service n : Nat) (rest : List GroupEvent) : Fleet :=
  { f with
    services := f.services.set service
      ((f.services.get service).onMember n fun m => { m with queue := rest }) }

/-- A delivery to a member with one listener is what that listener makes of the event. -/
theorem deliver_eq {service n : Nat} {m : Member Nat}
    (hm : (f.services.get service).members[n]? = some m) {event : GroupEvent}
    {rest : List GroupEvent} (hq : m.queue = event :: rest) (hl : m.listeners = [k])
    {c' : Controller} {w' : Surroundings}
    (hear : ((f.taken service n rest).controller k).hear
        (((f.taken service n rest).services.get service).idOf n) event
        (f.taken service n rest).toSurroundings = (.ok (), c', w')) :
    f.deliver service n = { w' with controllers := f.controllers.set k c' } := by
  have htake : (f.services.get service).takeEvent n
      = (some (event, [k]),
          (f.services.get service).onMember n fun m => { m with queue := rest }) := by
    simp [takeEvent, hm, hq, hl]
  have hact : hearAt service n event (f.taken service n rest) k
      = { w' with controllers := f.controllers.set k c' } := by
    simp only [hearAt, act, hear]
    rfl
  rw [← hact]
  simp only [deliver, htake]
  rfl

/-- What a delivery to a seated controller comes to: its member has published a state, if anything,
and has one event less waiting, and the controller shows what the group assigns. -/
theorem delivered (hat : (f.controller k).At p) (hvalid : p.settings.invalid? = none)
    (ho : Orderly (f.services.get p.service)) {seat : Candidacy} {n : Nat} {m : Member Nat}
    (hs : Seated f k p seat n m) {event : GroupEvent} {rest : List GroupEvent}
    (hq : m.queue = event :: rest) :
    ∃ w₁ c' w' state, f.deliver p.service n = { w' with controllers := f.controllers.set k c' }
      ∧ w₁.sites = f.sites
      ∧ (∀ i, i ≠ p.service → w₁.services.get i = f.services.get i)
      ∧ w₁.services.get p.service
          = (f.services.get p.service).onMember n
              (fun m => { m with queue := rest, state := state })
      ∧ Heard (f.controller k) w₁ seat event.up
          (assigned event.up ((f.services.get p.service).isMaster n)) c' w' := by
  have hget : (f.taken p.service n rest).services.get p.service
      = (f.services.get p.service).onMember n fun m => { m with queue := rest } :=
    Table.get_set_self _ _ _
  have hfound : ((f.taken p.service n rest).services.get p.service).members[n]?
      = some { m with queue := rest } := by
    rw [hget, getElem?_onMember, if_pos rfl, hs.found]
    rfl
  have hpoll : 0 < (f.controller k).settings.pollIntervalMs.toNat := by
    rw [hat.settings]
    exact interval_pos hvalid
  have hmember : ((f.taken p.service n rest).services.get seat.service).members[n]?
      = some { m with queue := rest } := by rw [hs.service]; exact hfound
  obtain ⟨w₁, c', w', hpub, hear, heard⟩ := heard_hear
    (w := (f.taken p.service n rest).toSurroundings) hs.candidacy hat.coordination hat.cluster
    hs.callable hs.only hs.group hmember hs.isOpen hpoll
    (((f.taken p.service n rest).services.get p.service).idOf n) event
  obtain ⟨state, hstate⟩ := hpub.service
  rw [hs.service, hget, onMember, onMember, List.modify_modify_eq] at hstate
  refine ⟨w₁, c', w', state, deliver_eq hs.found hq hs.listeners hear, hpub.sites,
    fun i hi => ?_, hstate, ?_⟩
  · rw [hpub.others i (by rw [hs.service]; exact hi)]
    exact Table.get_set_ne _ _ hi
  · -- taking an event off a queue makes nobody the master
    have hsame : ((f.taken p.service n rest).services.get seat.service).isMaster n
        = (f.services.get p.service).isMaster n := by
      rw [hs.service, hget]
      exact (sameLines_onMember _ n (f := fun m => { m with queue := rest })
        fun _ => rfl).isMaster ho n
    rw [← hsame]
    exact heard

/-- A controller that has heard an event is up to those that are still waiting. -/
theorem current_heard (h : Current posts f) (hp : posts[k]? = some p)
    (hvalid : p.settings.invalid? = none) {seat : Candidacy} {n : Nat} {m : Member Nat}
    (hs : Seated f k p seat n m) {event : GroupEvent} {rest : List GroupEvent}
    (hq : m.queue = event :: rest) : Current posts (f.deliver p.service n) := by
  have hat := (h.abreast k p hp).post
  have ho := h.orderly p.service
  obtain ⟨w₁, c', w', state, heq, hsites, hne, hget, heard⟩ := delivered hat hvalid ho hs hq
  have hself : (f.deliver p.service n).controller k = c' := by
    have hhandle : c'.handle = k := heard.handle
    rw [heq, controller, Table.get_set_self, ← hhandle]
  have hservice : (f.deliver p.service n).services.get p.service
      = (f.services.get p.service).onMember n
          fun m => { m with queue := rest, state := state } := by
    rw [heq, ← hget, ← heard.services]
  have hminds : Minds f (f.deliver p.service n) k p.service n := by
    rw [heq]
    refine minds_step (fun i hi => ?_) ?_ fun i j hj => ?_
    · rw [heard.services, hne i hi]
    · rw [heard.services, hget]
      exact apart_onMember _ n fun _ => rfl
    · rw [heard.others i j hj, hsites]
      rfl
  have hat' : ((f.deliver p.service n).controller k).At p := by
    rw [hself]
    exact ⟨heard.settings.trans hat.settings, by rw [heard.coordination]; exact hat.coordination,
      by rw [heard.cluster]; exact hat.cluster⟩
  have hshows : ((f.deliver p.service n).controller k).Shows
      (f.deliver p.service n).toSurroundings
      (assigned event.up ((f.services.get p.service).isMaster n)) := by
    rw [hself, heq]
    exact heard.shows
  obtain ⟨elector, hcandidacy, hgroup, hconnected⟩ := heard.candidacy
  have hafter : Seated (f.deliver p.service n) k p { seat with elector } n
      { m with queue := rest, state := state } := by
    refine ⟨by rw [hself, hcandidacy], hs.service, hgroup.trans hs.group,
      by rw [hself, heard.callable]; exact hs.callable, fun i hi => ?_, ?_, hs.isOpen, hs.started,
      hs.path, hs.listeners, fun e he => ?_, fun hempty => ?_⟩
    · -- only a master is called, and by no other site than the one that is bound
      rw [← handle_controller (f.deliver p.service n) k] at hi
      exact Option.some.inj (((hshows.tracked i).mp hi).2.symm.trans hat'.cluster)
    · rw [hservice, getElem?_onMember, if_pos rfl, hs.found]
      rfl
    · refine hs.last e ?_
      rw [hq, List.getLast?_cons, he]
      rfl
    · -- the event was the last one, so it tells whether the session is up
      have hup : event.up = m.connected := by
        refine hs.last event ?_
        rw [hq, show rest = [] from hempty]
        rfl
      have hmaster : ((f.deliver p.service n).services.get p.service).isMaster n
          = (f.services.get p.service).isMaster n := by
        rw [hservice]
        exact (sameLines_onMember _ n (f := fun m => { m with queue := rest, state := state })
          fun _ => rfl).isMaster ho n
      rw [hmaster, ← hup]
      exact ⟨hconnected, hshows⟩
  exact current_of_seated h hp hminds (Or.inr ⟨seat, m, hs⟩) hat' hafter

/-- Where no event is waiting, a delivery does nothing. -/
theorem deliver_eq_self {service n : Nat}
    (h : ∀ m, (f.services.get service).members[n]? = some m → m.queue = []) :
    f.deliver service n = f := by
  have hnone : ((f.services.get service).takeEvent n).1 = none := by
    cases hm : (f.services.get service).members[n]? with
    | none => simp [takeEvent, hm]
    | some m => simp [takeEvent, hm, h m hm]
  unfold deliver
  split
  · rfl
  · rename_i heq
    rw [heq] at hnone
    exact absurd hnone (by simp)

/-- **A delivery keeps the controllers abreast**, since the event that is heard last is the last. -/
theorem current_deliver (h : Current posts f) (hvalid : ∀ p ∈ posts, p.settings.invalid? = none)
    (service n : Nat) : Current posts (f.deliver service n) := by
  cases hm : (f.services.get service).members[n]? with
  | none =>
      rw [deliver_eq_self (by simp [hm])]
      exact h
  | some m =>
      cases hq : m.queue with
      | nil =>
          rw [deliver_eq_self (by simpa [hm] using hq)]
          exact h
      | cons event rest =>
          cases hc : m.closed with
          | true => exact absurd ((h.silent service n m hm hc).symm.trans hq) (by simp)
          | false =>
              obtain ⟨k, p, seat, hp, rfl, hs⟩ := h.owned service n m hm hc
              exact current_heard h hp (hvalid p (List.mem_of_getElem? hp)) hs hq

/-! ## Runs -/

/-- What may happen while the controllers keep their posts. -/
inductive Everyday : Action → Prop where
  | activate (k : Nat) : Everyday (.activate k)
  | deactivate (k : Nat) : Everyday (.deactivate k)
  | reconcile (k : Nat) : Everyday (.reconcile k)
  | tick (k : Nat) : Everyday (.tick k)
  | call (k : Nat) : Everyday (.call k)
  | disconnect (service : Nat) (id : String) : Everyday (.request service (.disconnect id))
  | reconnect (service : Nat) (id : String) : Everyday (.request service (.reconnect id))
  /-- A site may change in any respect but whom it calls. -/
  | changeSite (site : Nat) (g : Site Nat → Site Nat)
      (hg : ∀ s, (g s).store.callbacks = s.store.callbacks) : Everyday (.changeSite site g)
  | deliver (service n : Nat) : Everyday (.deliver service n)
  | notify (site : Nat) : Everyday (.notify site)

/-- New requirements are an everyday matter. -/
theorem everyday_setRequirements (site : Nat) (document : Document) :
    Everyday (.changeSite site (Site.onStore fun store => store.set document)) :=
  .changeSite site _ fun _ => rfl

/-- **Whatever happens on a day keeps the controllers abreast.** -/
theorem current_perform (h : Current posts f) (hvalid : ∀ p ∈ posts, p.settings.invalid? = none)
    {a : Action} (ha : Everyday a) : Current posts (f.perform a) := by
  cases ha with
  | activate k => exact current_activate h k hvalid
  | deactivate k => exact current_deactivate h k
  | reconcile k =>
      exact current_faint h
        (faint_move f k (fun c w => (c.reconcile w).2) (Controller.faint_reconcile _ _))
  | tick k => exact current_faint h (faint_move f k _ (Controller.faint_tick _ _))
  | call k => exact current_faint h (faint_call f k)
  | disconnect service id => exact current_disconnect h service id
  | reconnect service id => exact current_reconnect h service id
  | changeSite site g hg => exact current_faint h (faint_changeSite f site (hg _))
  | deliver service n => exact current_deliver h hvalid service n
  | notify site => exact current_notify h site

/-- And so does a run, however long. -/
theorem current_run (h : Current posts f) (hvalid : ∀ p ∈ posts, p.settings.invalid? = none)
    {actions : List Action} (ha : ∀ a ∈ actions, Everyday a) : Current posts (f.run actions) := by
  induction actions generalizing f with
  | nil => exact h
  | cons a rest ih =>
      rw [run_cons]
      refine ih (current_perform h hvalid (ha a List.mem_cons_self)) ?_
      exact fun b hb => ha b (List.mem_cons_of_mem a hb)

/-! ## Taking up a post -/

/-- Adds a controller and binds to it what its post names. -/
def employ (f : Fleet) (p : Post) : Fleet :=
  ((f.add p.settings).2.bindCoordination f.controllers.size (some p.service)).bindCluster
    f.controllers.size (some p.site)

/-- Controllers that have taken up their posts, at services that nobody has joined so far. -/
def staffed (sites : Table (Site Nat)) (posts : List Post) : Fleet := posts.foldl employ { sites }

/-- A controller that has taken up its post and done nothing yet. -/
def novice (p : Post) (k : Nat) : Controller :=
  { (({ settings := p.settings } : Controller).bindCoordination (some p.service)).bindCluster
      (some p.site) with handle := k }

theorem controller_employ_self (f : Fleet) (p : Post) :
    (f.employ p).controller f.controllers.size = novice p f.controllers.size := by
  rw [employ, bindCluster, controller_move_self, bindCoordination, controller_move_self,
    controller_add_self]
  rfl

theorem controller_employ_ne (f : Fleet) (p : Post) (hk : k ≠ f.controllers.size) :
    (f.employ p).controller k = f.controller k := by
  rw [employ, bindCluster, controller_move_ne _ _ hk, bindCoordination, controller_move_ne _ _ hk,
    controller_add_ne f hk]

theorem size_employ (f : Fleet) (p : Post) :
    (f.employ p).controllers.size = f.controllers.size + 1 := by
  simp [employ, bindCluster, bindCoordination, move, add, Table.size_set]

/-- Those who come later leave the others as they are. -/
theorem controller_foldl_employ_lt (hk : k < f.controllers.size) :
    (posts.foldl employ f).controller k = f.controller k := by
  induction posts generalizing f with
  | nil => rfl
  | cons p rest ih =>
      rw [List.foldl_cons, ih (by rw [size_employ]; omega), controller_employ_ne f p (by omega)]

/-- The numbers go to the posts in their order. -/
theorem controller_foldl_employ (f : Fleet) (j : Nat) :
    (posts.foldl employ f).controller (f.controllers.size + j)
      = match posts[j]? with
        | some p => novice p (f.controllers.size + j)
        | none => { handle := f.controllers.size + j } := by
  induction posts generalizing f j with
  | nil => exact controller_of_size_le f (Nat.le_add_right _ j)
  | cons p rest ih =>
      rw [List.foldl_cons]
      cases j with
      | zero =>
          rw [controller_foldl_employ_lt (by rw [size_employ]; omega)]
          exact controller_employ_self f p
      | succ j =>
          have hnext := ih (f.employ p) j
          rw [size_employ, Nat.add_right_comm, Nat.add_assoc] at hnext
          exact hnext

theorem toSurroundings_foldl_employ (f : Fleet) (posts : List Post) :
    (posts.foldl employ f).toSurroundings = f.toSurroundings := by
  induction posts generalizing f with
  | nil => rfl
  | cons p rest ih => exact ih (f.employ p)

theorem controller_staffed (sites : Table (Site Nat)) (posts : List Post) (k : Nat) :
    (staffed sites posts).controller k
      = match posts[k]? with
        | some p => novice p k
        | none => { handle := k } := by
  have h : (staffed sites posts).controller (0 + k)
      = match posts[k]? with
        | some p => novice p (0 + k)
        | none => { handle := 0 + k } := controller_foldl_employ { sites } k
  rwa [Nat.zero_add] at h

/-- Controllers at their posts are abreast to begin with, if no site calls them already. -/
theorem current_staffed {sites : Table (Site Nat)}
    (huntracked : ∀ i k, k < posts.length → k ∉ (sites.get i).store.callbacks) :
    Current posts (staffed sites posts) := by
  have hw : (staffed sites posts).toSurroundings = { sites } :=
    toSurroundings_foldl_employ { sites } posts
  have hservice : ∀ i, (staffed sites posts).services.get i = {} := by
    intro i
    rw [hw]
    exact Table.get_of_size_le (Nat.zero_le i)
  have hnobody : ∀ (i n : Nat) (m : Member Nat),
      ((staffed sites posts).services.get i).members[n]? = some m → False := by
    intro i n m hm
    rw [hservice i] at hm
    exact absurd hm (by simp)
  refine ⟨fun i => by rw [hservice i]; exact orderly_empty, fun k p hp => ?_, fun k hp => ?_,
    fun i n m hm => (hnobody i n m hm).elim, fun i n m hm => (hnobody i n m hm).elim⟩
  · have hk := controller_staffed sites posts k
    simp only [hp] at hk
    have hlt : k < posts.length := (List.getElem?_eq_some_iff.mp hp).1
    refine ⟨by rw [hk]; exact ⟨rfl, rfl, rfl⟩, Or.inl ⟨by rw [hk]; rfl, ?_⟩⟩
    refine ⟨by rw [hk]; rfl, fun _ => by rw [hk]; rfl, fun i => ?_⟩
    rw [hw]
    constructor
    · intro hi; exact absurd hi (huntracked i k hlt)
    · intro hi; exact absurd hi.1 (by simp)
  · have hk := controller_staffed sites posts k
    simp only [hp] at hk
    rw [hk]
    exact ⟨rfl, rfl⟩

/-! ## Agreement -/

/-- No event is waiting for anybody. -/
def Settled (f : Fleet) : Prop := ∀ s ∈ f.services.entries, s.backlog = 0

instance (f : Fleet) : Decidable f.Settled :=
  inferInstanceAs (Decidable (∀ s ∈ f.services.entries, s.backlog = 0))

theorem Settled.queue (h : Settled f) {i n : Nat} {m : Member Nat}
    (hm : (f.services.get i).members[n]? = some m) : m.queue = [] := by
  -- beyond the services that were written there are no members
  have hlt : i < f.services.entries.length := by
    rcases Nat.lt_or_ge i f.services.entries.length with hlt | hge
    · exact hlt
    · rw [Table.get_of_size_le hge] at hm
      exact absurd hm (by simp [default])
  have hget : f.services.get i = f.services.entries[i] := by
    simp [Table.get, List.getD_eq_getElem?_getD, hlt]
  refine queue_of_backlog ?_ (List.mem_of_getElem? hm)
  rw [hget]
  exact h _ (List.getElem_mem hlt)

/-- The member that the controller `k` stands for. -/
def member? (f : Fleet) (k : Nat) : Option (Member Nat) :=
  match (f.controller k).seat? with
  | some (service, some n) => (f.services.get service).members[n]?
  | _ => none

/-- What the controller `k` shows is what the coordination service of its post says of it. -/
structure Agrees (f : Fleet) (k : Nat) (p : Post) : Prop where
  post : (f.controller k).At p
  /-- A controller that is not active shows no part. -/
  idle : (f.controller k).isActive = false → (f.controller k).Shows f.toSurroundings .unknown
  /-- One that is active shows the part that is assigned to its member: none without a session,
  otherwise that of the master exactly if its id is the one that the service names. -/
  active : (f.controller k).isActive = true →
    ∃ m, f.member? k = some m ∧ m.closed = false ∧ m.path = p.settings.groupPath
      ∧ (f.controller k).memberId f.toSurroundings = m.id
      ∧ (f.controller k).Shows f.toSurroundings (assigned m.connected
          ((f.services.get p.service).masterOf p.settings.groupPath = m.id))
  /-- Its own mastership check comes to the same. -/
  master : (f.controller k).isMaster f.toSurroundings = true ↔ (f.controller k).state = .master

/-- Where nothing is waiting, being abreast is agreement. -/
theorem agrees_of_abreast (h : Abreast f k p) (hsettled : Settled f) : Agrees f k p := by
  obtain ⟨hpost, ⟨hnone, hshows⟩ | ⟨seat, n, m, hs⟩⟩ := h
  · refine ⟨hpost, fun _ => hshows, fun hactive => ?_, ?_⟩
    · exact absurd hactive (by simp [isActive, hnone])
    · rw [hshows.state]
      simp [Controller.isMaster, hnone]
  · obtain ⟨hconnected, hshows⟩ := hs.heard (hsettled.queue hs.found)
    have hfound : (f.services.get seat.service).members[n]? = some m := by
      rw [hs.service]
      exact hs.found
    refine ⟨hpost, fun hidle => ?_, fun _ => ⟨m, ?_, hs.isOpen, hs.path, ?_, ?_⟩, ?_⟩
    · exact absurd hidle (by simp [isActive, hs.candidacy])
    · simp [member?, seat?, hs.candidacy, hs.group, hfound]
    · simp [Controller.memberId, hs.candidacy, Elector.memberId, hs.group, access, idOf, hfound]
    · have hmaster : (f.services.get p.service).isMaster n
          = decide ((f.services.get p.service).masterOf p.settings.groupPath = m.id) := by
        simp [Coordination.isMaster, hs.found, hs.isOpen, hs.path]
      rw [← hmaster]
      exact hshows
    · rw [isMaster_eq hs.candidacy hs.group, hconnected, hs.service, hshows.state,
        Bool.and_eq_true, assigned_eq_master_iff]

/--
**Controllers agree with their services once all events are handled.** Whatever happens to any
number of controllers at their posts, in any order: where no event is waiting, each controller
shows what its coordination service says of it. The sites may be in any state to begin with, so
long as none of them calls a controller before it is there.
-/
theorem controllers_agree {sites : Table (Site Nat)}
    (hvalid : ∀ p ∈ posts, p.settings.invalid? = none)
    (huntracked : ∀ i k, k < posts.length → k ∉ (sites.get i).store.callbacks)
    {actions : List Action} (hactions : ∀ a ∈ actions, Everyday a)
    (hsettled : ((staffed sites posts).run actions).Settled) (hp : posts[k]? = some p) :
    Agrees ((staffed sites posts).run actions) k p :=
  agrees_of_abreast ((current_run (current_staffed huntracked) hvalid hactions).abreast k p hp)
    hsettled

/-- Two controllers share a service and a site, both are activated, and the first one loses its
session before anything has been delivered. -/
def upset : List Action :=
  [.activate 0, .activate 1, .request 0 (.disconnect "/autoscale/controllers/autoscaler-0"),
    .deliver 0 1, .deliver 0 0, .deliver 0 0, .deliver 0 1, .deliver 0 0]

/-- The second one is the master then, and the first one knows that it is disconnected. -/
theorem pair_agrees_after_upset :
    let posts : List Post := [{ service := 0, site := 0 }, { service := 0, site := 0 }]
    let f := (staffed {} posts).run upset
    (∀ p ∈ posts, p.settings.invalid? = none) ∧ (∀ a ∈ upset, Everyday a) ∧ f.Settled
      ∧ Agrees f 0 { service := 0, site := 0 } ∧ (f.controller 0).state = .disconnected
      ∧ Agrees f 1 { service := 0, site := 0 } ∧ (f.controller 1).state = .master := by
  intro posts f
  have hvalid : ∀ p ∈ posts, p.settings.invalid? = none := by decide
  have huntracked : ∀ i k, k < posts.length →
      k ∉ ((({} : Table (Site Nat))).get i).store.callbacks := by
    intro i k _
    rw [Table.get_of_size_le (Nat.zero_le i)]
    exact List.not_mem_nil
  have hactions : ∀ a ∈ upset, Everyday a := by
    simp only [upset, List.mem_cons, List.not_mem_nil, or_false]
    rintro a (rfl | rfl | rfl | rfl | rfl | rfl | rfl | rfl)
    · exact .activate 0
    · exact .activate 1
    · exact .disconnect 0 _
    all_goals exact .deliver 0 _
  have hsettled : f.Settled := by decide
  exact ⟨hvalid, hactions, hsettled,
    controllers_agree hvalid huntracked hactions hsettled (k := 0) rfl, by decide,
    controllers_agree hvalid huntracked hactions hsettled (k := 1) rfl, by decide⟩

end FleetScaler.Fleet
