import FleetScaler.Daemon
import FleetScaler.Proofs.Fleet.Staffing
import FleetScaler.Proofs.Membership.Muster

/-!
# A daemon that is coming up

While a daemon adds its nodes, events are delivered and the notifier of the requirements store takes
its steps, in any order. `Rising` is what holds all along: the members of the one group have come to
stay, in the order of the controllers; the first controller has run one pass for each event that it
has heard and for each call of the store; and nobody else has run any.
-/

namespace FleetScaler

/-! ## Calls that the notifier has still to make -/

namespace Store

variable {κ : Type} (s : Store κ)

/-- The callbacks that are still to be called in the round that is under way. -/
def toCall : List κ :=
  match s.notifier with
  | .calling remaining => remaining
  | _ => []

/-- How many calls the notifier has still to make, if no more than one callback is ever tracked and
nothing changes: those of the round that is under way, and one if another round is due. -/
def outstanding : Nat :=
  (match s.notifier with
    | .idle => 0
    | .noticed => 1
    | .calling remaining => remaining.length) + if s.generation = s.notified then 0 else 1

theorem outstanding_of_not_pending (h : s.isPending = false) : s.outstanding = 0 := by
  unfold isPending at h
  unfold outstanding
  split at h
  · rename_i hidle
    simpa [hidle] using h
  · exact absurd h (by simp)

/-- A notifier that is calling nobody has at most one call to make. -/
theorem outstanding_le_one (h : s.notifier = .idle) : s.outstanding ≤ 1 := by
  simp only [outstanding, h]
  split <;> omega

/-- What a step of the notifier does to the calls. -/
theorem calls_notifierStep (h : s.callbacks.length ≤ 1) :
    (∀ j ∈ s.notifierStep.2.toCall, j ∈ s.callbacks ∨ j ∈ s.toCall)
      ∧ s.notifierStep.2.called = s.notifierStep.1.toList ++ s.called
      ∧ (∀ k, s.notifierStep.1 = some k → k ∈ s.toCall)
      ∧ s.notifierStep.2.called.length + s.notifierStep.2.outstanding
          ≤ s.called.length + s.outstanding := by
  unfold notifierStep
  cases hn : s.notifier with
  | idle =>
      by_cases hg : s.generation = s.notified
      · simp [hg, toCall, hn]
      · simp [hg, toCall, outstanding, hn]
  | noticed => simp [toCall, outstanding, hn, h]
  | calling remaining =>
      cases remaining with
      | nil => simp [toCall, outstanding, hn]
      | cons k rest =>
          refine ⟨fun j hj => Or.inr ?_, rfl, fun j hj => ?_, ?_⟩
          · simpa [toCall, hn] using Or.inr hj
          · simpa [toCall, hn] using Or.inl (Option.some.inj hj).symm
          · simp only [outstanding, hn, List.length_cons]
            omega

end Store

/-- The calls of a site's store depend on nothing that an event can change. -/
theorem Site.AsBefore.calls {s s' : Site Nat} (h : AsBefore s s') :
    s'.store.toCall = s.store.toCall ∧ s'.store.called = s.store.called
      ∧ s'.store.outstanding = s.store.outstanding := by
  rw [h.store]
  exact ⟨rfl, rfl, rfl⟩

namespace Daemon

open Coordination Controller Fleet

variable {settings : Settings} {f₀ f f' : Fleet} {i k : Nat}

/-! ## The posts of the nodes -/

/-- The post of the node with the given number. -/
def post (settings : Settings) (k : Nat) : Post where
  settings := nodeSettings settings k
  service := 0
  site := 0

/-- The posts of the first nodes. -/
def posts (settings : Settings) (n : Nat) : List Post := (List.range n).map (post settings)

theorem posts_succ (settings : Settings) (n : Nat) :
    posts settings (n + 1) = posts settings n ++ [post settings n] := by
  simp [posts, List.range_succ]

theorem getElem?_posts (settings : Settings) (n k : Nat) :
    (posts settings n)[k]? = if k < n then some (post settings k) else none := by
  by_cases h : k < n <;> simp [posts, h]

/-- The name of a node is the one setting that is its own. -/
theorem invalid?_nodeSettings (settings : Settings) (k : Nat) :
    (nodeSettings settings k).invalid? = settings.invalid? := rfl

theorem valid_posts (h : settings.invalid? = none) (n : Nat) :
    ∀ p ∈ posts settings n, p.settings.invalid? = none := by
  intro p hp
  obtain ⟨k, -, rfl⟩ := List.mem_map.mp hp
  exact (invalid?_nodeSettings settings k).trans h

/-! ## The invariant -/

/-- The site with the number `s` calls the controller `j`, or is about to call it. -/
def Summons (f : Fleet) (s j : Nat) : Prop :=
  f.Calls s j ∨ j ∈ (f.sites.get s).store.toCall

/-- The controller stands for election and has heard that its session is up. -/
def HasHeard (c : Controller) : Prop :=
  ∃ seat, c.candidacy = some seat ∧ seat.elector.connected = true

/-- A fleet before its first node: the services are fresh, the sites call nobody, and the
requirements can be read. -/
structure Opening (f : Fleet) : Prop where
  services : ∀ s, f.services.get s = {}
  nobody : f.controllers.size = 0
  untracked : ∀ s, (f.sites.get s).store.callbacks = []
  idle : ∀ s, (f.sites.get s).store.notifier = .idle
  answers : (f.sites.get 0).outage.requirements = false

/-- What holds of a fleet that started as `f₀` once so many nodes have been added. -/
structure Rising (settings : Settings) (f₀ : Fleet) (n : Nat) (f : Fleet) : Prop where
  current : Current (posts settings n) f
  size : f.controllers.size = n
  muster : Mustered settings.groupPath settings.nodeType n (f.services.get 0)
  answers : (f.sites.get 0).outage.requirements = false
  /-- Only the first controller is ever called, and not before it has heard an event. -/
  summons : ∀ s j, Summons f s j → s = 0 ∧ j = 0 ∧ HasHeard (f.controller 0)
  nodup : (f.sites.get 0).store.callbacks.Nodup
  present : (f.controller 0).dropped = false
  /-- Each event and each call is worth one pass to the first controller. -/
  passes : (f.controller 0).tally.passes + (f.services.get 0).waiting 0
    + (f₀.sites.get 0).store.called.length = n + (f.sites.get 0).store.called.length
  others : ∀ k, k ≠ 0 → (f.controller k).tally.passes = 0
  /-- The calls of the store are only those that it had to make from the beginning. -/
  calls : (f₀.sites.get 0).store.called.length ≤ (f.sites.get 0).store.called.length
    ∧ (f.sites.get 0).store.called.length + (f.sites.get 0).store.outstanding
      ≤ (f₀.sites.get 0).store.called.length + (f₀.sites.get 0).store.outstanding

theorem rising_opening (settings : Settings) (h : Opening f₀) : Rising settings f₀ 0 f₀ := by
  have hcontroller : ∀ k, f₀.controller k = { handle := k } := fun k =>
    controller_of_size_le f₀ (by rw [h.nobody]; exact Nat.zero_le k)
  have hnobody : ∀ (s n : Nat) (m : Member Nat), (f₀.services.get s).members[n]? = some m →
      False := by
    intro s n m hm
    rw [h.services s] at hm
    exact absurd hm (by simp)
  refine ⟨⟨fun s => by rw [h.services s]; exact orderly_empty, fun k p hp => ?_, fun k _ => ?_,
      fun s n m hm => (hnobody s n m hm).elim, fun s n m hm => (hnobody s n m hm).elim⟩,
    h.nobody, by rw [h.services 0]; exact mustered_empty _ _, h.answers, fun s j hs => ?_, ?_, ?_,
    ?_, fun k _ => by rw [hcontroller k], Nat.le_refl _, Nat.le_refl _⟩
  · exact absurd hp (by simp [posts])
  · rw [hcontroller k]
    exact ⟨rfl, rfl⟩
  · rcases hs with hcall | hcall
    · rw [Calls, h.untracked s] at hcall
      exact absurd hcall (by simp)
    · rw [Store.toCall, h.idle s] at hcall
      exact absurd hcall (by simp)
  · rw [h.untracked 0]
    exact List.nodup_nil
  · rw [hcontroller 0]
  · rw [hcontroller 0, h.services 0]
    simp [waiting]

namespace Rising

variable {n : Nat}

/-- **The controllers sit in the order of the members.** -/
theorem seated (h : Rising settings f₀ n f) {m : Member Nat}
    (hm : (f.services.get 0).members[k]? = some m) :
    (f.controller k).At (post settings k) ∧ ∃ seat, Seated f k (post settings k) seat k m := by
  have ha := h.muster.attending k m hm
  obtain ⟨j, p, seat, hp, hservice, hs⟩ := h.current.owned 0 k m hm ha.isOpen
  -- the one listener of a member is the controller with its number
  obtain rfl : j = k := by
    have heq := hs.listeners.symm.trans ha.listeners
    simpa using heq
  have hat := (h.current.abreast j p hp).post
  rw [getElem?_posts] at hp
  split at hp
  · obtain rfl := Option.some.inj hp
    exact ⟨hat, seat, hs⟩
  · exact absurd hp (by simp)

/-- Whoever stands for election has a post. -/
theorem pos_of_hasHeard (h : Rising settings f₀ n f) (hh : HasHeard (f.controller 0)) : 0 < n := by
  obtain ⟨seat, hseat, -⟩ := hh
  refine Nat.pos_of_ne_zero fun hzero => ?_
  subst hzero
  have hvacant := (h.current.vacant 0 (by simp [posts])).1
  exact absurd (hvacant.symm.trans hseat) (by simp)

/-- The first controller finds itself the master once it has heard an event. -/
theorem isMaster_of_hasHeard (h : Rising settings f₀ n f) (hh : HasHeard (f.controller 0)) :
    (f.controller 0).isMaster f.toSurroundings = true := by
  have hpos := h.pos_of_hasHeard hh
  obtain ⟨seat', hseat', hconnected⟩ := hh
  obtain ⟨m, hm, -⟩ := h.muster.getElem? hpos
  obtain ⟨-, seat, hs⟩ := h.seated hm
  obtain rfl := Option.some.inj (hs.candidacy.symm.trans hseat')
  rw [isMaster_eq hs.candidacy hs.group, hconnected, hs.service]
  exact (h.muster.isMaster_eq hpos).trans rfl

/-! ## A node is added -/

theorem addNode_eq (settings : Settings) (f : Fleet)
    (hok : ((f.employ (post settings n)).activate f.controllers.size).1 = .ok ()) :
    addNode settings f n
      = .ok ((f.employ (post settings n)).activate f.controllers.size).2 := by
  have hadd : f.add (nodeSettings settings n)
      = (f.controllers.size, (f.add (nodeSettings settings n)).2) := rfl
  -- a newcomer that is bound is one that has taken up its post
  have hactivate : (((f.add (nodeSettings settings n)).2.bindCoordination f.controllers.size
      (some 0)).bindCluster f.controllers.size (some 0)).activate f.controllers.size
      = (.ok (), ((f.employ (post settings n)).activate f.controllers.size).2) :=
    Prod.ext hok rfl
  rw [addNode, hadd]
  simp only [hactivate]

/-- What it comes to that a node is added. -/
structure Joined (settings : Settings) (n : Nat) (f f' : Fleet) : Prop where
  service : ∃ elector : Elector Nat, elector.config.groupPath = settings.groupPath
    ∧ elector.config.nodeType = settings.nodeType
    ∧ f'.services.get 0 = (f.services.get 0).enrol elector n
  sites : f'.sites = f.sites
  size : f'.controllers.size = n + 1
  others : ∀ j, j ≠ n → f'.controller j = f.controller j
  /-- A newcomer has done as little as a controller that was never added. -/
  fresh : ∀ j, (f'.controller j).tally = (f.controller j).tally
    ∧ (f'.controller j).dropped = (f.controller j).dropped

/-- The newcomer's activation goes well, and makes it join the service. -/
theorem joined (h : Rising settings f₀ n f) (hvalid : settings.invalid? = none) :
    ((f.employ (post settings n)).activate n).1 = .ok ()
      ∧ Joined settings n f ((f.employ (post settings n)).activate n).2 := by
  have hnovice : (f.employ (post settings n)).controller n = novice (post settings n) n := by
    rw [← h.size]
    exact controller_employ_self f _
  have hcandidacy : ((f.employ (post settings n)).controller n).candidacy = none := by
    rw [hnovice]
    rfl
  have hat : ((f.employ (post settings n)).controller n).At (post settings n) := by
    rw [hnovice]
    exact ⟨rfl, rfl, rfl⟩
  have hpath : ((f.employ (post settings n)).controller n).settings.groupPath ≠ "" := by
    rw [hat.settings]
    exact path_ne_empty hvalid
  obtain ⟨elector, journal, heq, -⟩ := activate_at hcandidacy hat hpath
  have hothers : ∀ j, j ≠ n →
      ((f.employ (post settings n)).activate n).2.controller j = f.controller j := by
    intro j hj
    rw [heq, controller, Table.get_set_ne _ _ hj]
    exact controller_employ_ne f _ (by rw [h.size]; exact hj)
  refine ⟨activate_ok hcandidacy hat hpath,
    ⟨{ config := ((f.employ (post settings n)).controller n).electorConfig }, ?_, ?_, ?_⟩,
    ?_, ?_, hothers, fun j => ?_⟩
  · rw [hnovice]
    rfl
  · rw [hnovice]
    rfl
  · rw [heq]
    exact Table.get_set_self _ _ _
  · rw [heq]
    rfl
  · rw [heq]
    exact (Table.size_set _ _ _).trans (by rw [size_employ, h.size]; omega)
  · by_cases hj : j = n
    · subst hj
      rw [controller_of_size_le f (Nat.le_of_eq h.size), heq, controller, Table.get_set_self]
      simp only [hnovice]
      exact ⟨rfl, rfl⟩
    · rw [hothers j hj]
      exact ⟨rfl, rfl⟩

/-- **Adding a node cannot fail**, whatever is still waiting, and the invariant goes on to hold. -/
theorem node (h : Rising settings f₀ n f) (hvalid : settings.invalid? = none) :
    ∃ f', addNode settings f n = .ok f' ∧ Rising settings f₀ (n + 1) f' := by
  -- only the first controller is ever called, and only once it stands for election
  have huncalled : ∀ s, ¬ f.Calls s f.controllers.size := by
    intro s hs
    obtain ⟨-, hzero, seat, hseat, -⟩ := h.summons s _ (Or.inl hs)
    have hvacant := (h.current.vacant 0 (by rw [← hzero, h.size]; simp [posts])).1
    exact absurd (hvacant.symm.trans hseat) (by simp)
  have hcurrent := current_employ h.current (by rw [h.size]; simp [posts]) huncalled
    (post settings n)
  rw [← posts_succ] at hcurrent
  obtain ⟨hok, hjoined⟩ := h.joined hvalid
  have hadd := addNode_eq settings f (n := n) (by rw [h.size]; exact hok)
  rw [h.size] at hadd
  obtain ⟨elector, hpath, htype, hservice⟩ := hjoined.service
  obtain ⟨hmuster, hwaiting⟩ := h.muster.enrol (path_ne_empty hvalid) hpath htype
  refine ⟨_, hadd, current_activate hcurrent n (valid_posts hvalid _), hjoined.size,
    by rw [hservice]; exact hmuster, by rw [hjoined.sites]; exact h.answers, fun s j hs => ?_,
    by rw [hjoined.sites]; exact h.nodup, (hjoined.fresh 0).2.trans h.present, ?_,
    fun k hk => ?_, by rw [hjoined.sites]; exact h.calls⟩
  · obtain ⟨hs0, hj0, hh⟩ := h.summons s j
      (by simpa only [Summons, Calls, hjoined.sites] using hs)
    refine ⟨hs0, hj0, ?_⟩
    rw [hjoined.others 0 (Nat.ne_of_lt (h.pos_of_hasHeard hh))]
    exact hh
  · -- whoever comes makes the first member hear one event more
    have haccount := h.passes
    rw [(hjoined.fresh 0).1, hservice, hwaiting, hjoined.sites]
    omega
  · rw [(hjoined.fresh k).1]
    exact h.others k hk

/-! ## An event is delivered -/

/-- A delivery takes the event off the queue, and the member may publish a state. -/
theorem services_deliver (h : Rising settings f₀ n f) (hvalid : settings.invalid? = none)
    {m : Member Nat} (hm : (f.services.get 0).members[k]? = some m) {event : GroupEvent}
    {rest : List GroupEvent} (hq : m.queue = event :: rest) :
    ∃ state, (f.deliver 0 k).services.get 0
      = (f.services.get 0).onMember k fun m => { m with queue := rest, state := state } := by
  obtain ⟨hat, seat, hs⟩ := h.seated hm
  obtain ⟨w₁, c', w', state, heq, -, -, hget, heard⟩ :=
    delivered hat hvalid h.muster.orderly hs hq
  have hsame : (f.deliver 0 k).services = w'.services := congrArg (·.services) heq
  exact ⟨state, by rw [hsame, heard.services]; exact hget⟩

/-- What it comes to that the member with the number `k` hears an event. -/
structure Told (f f' : Fleet) (k : Nat) : Prop where
  delivered : Delivered f f' k (decide (k = 0))
  hasHeard : HasHeard (f'.controller k)
  /-- Only a master is called, and by no other site than the one that is bound. -/
  called : ∀ s, f'.Calls s k → s = 0 ∧ k = 0
  others : ∀ s j, j ≠ k → f'.Calls s j → f.Calls s j

theorem told (h : Rising settings f₀ n f) (hvalid : settings.invalid? = none) {m : Member Nat}
    (hm : (f.services.get 0).members[k]? = some m) {event : GroupEvent} {rest : List GroupEvent}
    (hq : m.queue = event :: rest) : Told f (f.deliver 0 k) k := by
  obtain ⟨hat, seat, hs⟩ := h.seated hm
  have hmaster : (f.services.get 0).isMaster k = decide (k = 0) := by
    refine h.muster.isMaster_eq ?_
    rw [← h.muster.length]
    exact (List.getElem?_eq_some_iff.mp hm).1
  have hup : event.up = true := (h.muster.attending k m hm).up event (by rw [hq]; simp)
  have hdelivered := delivered_up hat hvalid h.muster.orderly hs hq hup h.answers
  obtain ⟨w₁, c', w', -, hdeliver, hsites, -, -, heard⟩ :=
    delivered hat hvalid h.muster.orderly hs hq
  have heq : f.deliver 0 k = { w' with controllers := f.controllers.set k c' } := hdeliver
  have hself : (f.deliver 0 k).controller k = c' := by
    have hhandle : c'.handle = k := heard.handle
    rw [heq, controller, Table.get_set_self, ← hhandle]
  refine ⟨hmaster ▸ hdelivered, ?_, fun s hcall => ?_, fun s j hj hcall => ?_⟩
  · obtain ⟨elector, hcandidacy, -, hconnected⟩ := heard.candidacy
    exact ⟨_, by rw [hself]; exact hcandidacy, hconnected.trans hup⟩
  · have htracked : c'.TrackedAt w' s := by
      rw [Controller.TrackedAt, show c'.handle = k from heard.handle]
      rw [heq] at hcall
      exact hcall
    obtain ⟨hpart, hcluster⟩ := (heard.shows.tracked s).mp htracked
    have hleads := (assigned_eq_master_iff.mp hpart).2
    rw [heard.cluster, hat.cluster] at hcluster
    exact ⟨(Option.some.inj hcluster).symm, by simpa using hmaster.symm.trans hleads⟩
  · rw [heq] at hcall
    have hin := (heard.others s j hj).mp hcall
    rwa [hsites] at hin

/-- What is heard by the member with the number `k` is accounted for. -/
theorem heard (h : Rising settings f₀ n f) (hvalid : settings.invalid? = none) {m : Member Nat}
    (hm : (f.services.get 0).members[k]? = some m) {event : GroupEvent} {rest : List GroupEvent}
    (hq : m.queue = event :: rest) : Rising settings f₀ n (f.deliver 0 k) := by
  obtain ⟨hd, hhas, hcalled, hothers⟩ := h.told hvalid hm hq
  obtain ⟨state, hservice⟩ := h.services_deliver hvalid hm hq
  obtain ⟨-, hcalls, hahead⟩ := (hd.sites 0).calls
  have hlt : k < f.controllers.size := by
    rw [h.size, ← h.muster.length]
    exact (List.getElem?_eq_some_iff.mp hm).1
  refine ⟨current_deliver h.current (valid_posts hvalid n) 0 k, ?_,
    by rw [hservice]; exact h.muster.heard hm hq state,
    by rw [(hd.sites 0).outage]; exact h.answers, fun s j hj => ?_, (hd.sites 0).nodup h.nodup,
    ?_, ?_, fun j hj => ?_, by rw [hcalls, hahead]; exact h.calls⟩
  · rw [hd.size, ← h.size]
    omega
  · have hhasHeard : HasHeard (f.controller 0) → HasHeard ((f.deliver 0 k).controller 0) := by
      intro hh
      by_cases hk : k = 0
      · exact hk ▸ hhas
      · rw [hd.others 0 (Ne.symm hk)]
        exact hh
    have hbefore : Summons f s j → s = 0 ∧ j = 0 ∧ HasHeard ((f.deliver 0 k).controller 0) := by
      intro hs
      obtain ⟨hs0, hj0, hh⟩ := h.summons s j hs
      exact ⟨hs0, hj0, hhasHeard hh⟩
    rcases hj with hj | hj
    · by_cases hjk : j = k
      · subst hjk
        obtain ⟨hs0, rfl⟩ := hcalled s hj
        exact ⟨hs0, rfl, hhas⟩
      · exact hbefore (Or.inl (hothers s j hjk hj))
    · rw [(hd.sites s).calls.1] at hj
      exact hbefore (Or.inr hj)
  · by_cases hk : k = 0
    · subst hk
      exact hd.dropped.trans h.present
    · rw [hd.others 0 (Ne.symm hk)]
      exact h.present
  · -- one event less is waiting for the first member, and one pass more has been run for it
    have haccount := h.passes
    rw [hcalls]
    by_cases hk : k = 0
    · subst hk
      have hpasses := hd.passes
      have hwaiting : ((f.deliver 0 0).services.get 0).waiting 0 + 1
          = (f.services.get 0).waiting 0 := by
        rw [hservice, waiting_of hm, hq]
        simp [waiting, getElem?_onMember, hm]
      simp only [decide_true, if_true] at hpasses
      omega
    · have hwaiting : ((f.deliver 0 k).services.get 0).waiting 0
          = (f.services.get 0).waiting 0 := by
        rw [hservice, waiting, waiting, getElem?_onMember, if_neg hk]
      rw [hd.others 0 (Ne.symm hk), hwaiting]
      exact haccount
  · by_cases hjk : j = k
    · subst hjk
      rw [hd.passes, h.others j hj]
      simp [hj]
    · rw [hd.others j hjk]
      exact h.others j hj

/-- Nobody is ever told anything at another service. -/
theorem queue_elsewhere (h : Rising settings f₀ n f) {service : Nat} (hne : service ≠ 0)
    {m : Member Nat} (hm : (f.services.get service).members[k]? = some m) : m.queue = [] := by
  cases hc : m.closed with
  | true => exact h.current.silent service k m hm hc
  | false =>
      -- every node has its post at the same service
      obtain ⟨j, p, -, hp, rfl, -⟩ := h.current.owned service k m hm hc
      obtain ⟨i, -, rfl⟩ := List.mem_map.mp (List.mem_of_getElem? hp)
      exact absurd rfl hne

/-- **A delivery keeps the account straight.** -/
theorem deliver (h : Rising settings f₀ n f) (hvalid : settings.invalid? = none)
    (service k : Nat) : Rising settings f₀ n (f.deliver service k) := by
  by_cases hne : service = 0
  · subst hne
    cases hm : (f.services.get 0).members[k]? with
    | none =>
        rw [deliver_eq_self (by simp [hm])]
        exact h
    | some m =>
        cases hq : m.queue with
        | nil =>
            rw [deliver_eq_self (by simpa [hm] using hq)]
            exact h
        | cons event rest => exact h.heard hvalid hm hq
  · rw [deliver_eq_self fun m hm => h.queue_elsewhere hne hm]
    exact h

/-! ## The notifier takes a step -/

/-- No site tracks more than one callback. -/
theorem length_callbacks_le_one (h : Rising settings f₀ n f) (s : Nat) :
    (f.sites.get s).store.callbacks.length ≤ 1 := by
  have hzero : ∀ j ∈ (f.sites.get s).store.callbacks, s = 0 ∧ j = 0 := by
    intro j hj
    obtain ⟨hs, hj0, -⟩ := h.summons s j (Or.inl hj)
    exact ⟨hs, hj0⟩
  cases hc : (f.sites.get s).store.callbacks with
  | nil => simp
  | cons a rest =>
      cases rest with
      | nil => simp
      | cons b rest =>
          -- two of them would be the same
          rw [hc] at hzero
          obtain ⟨rfl, rfl⟩ := hzero a (by simp)
          obtain ⟨-, rfl⟩ := hzero b (by simp)
          have hnodup := h.nodup
          rw [hc] at hnodup
          exact absurd hnodup (by simp)

/-- The fleet after a step of the notifier of a site, before anybody is called. -/
def stirred (f : Fleet) (s : Nat) : Fleet :=
  f.changeSite s fun x => { x with store := (f.sites.get s).store.notifierStep.2 }

theorem sites_stirred (f : Fleet) (s s' : Nat) :
    (stirred f s).sites.get s' = if s' = s
      then { f.sites.get s with store := (f.sites.get s).store.notifierStep.2 }
      else f.sites.get s' := by
  by_cases hs : s' = s
  · subst hs
    simp [stirred, changeSite]
  · simp [stirred, changeSite, Table.get_update_ne _ _ hs, hs]

/-- What becomes of a site when the notifier of one takes a step. -/
theorem stirred_spec (h : Rising settings f₀ n f) (s s' : Nat) :
    ((stirred f s).sites.get s').outage = (f.sites.get s').outage
      ∧ ((stirred f s).sites.get s').store.callbacks = (f.sites.get s').store.callbacks
      ∧ (∀ j, Summons (stirred f s) s' j → Summons f s' j)
      ∧ ((stirred f s).sites.get s').store.called.length
          + ((stirred f s).sites.get s').store.outstanding
        ≤ (f.sites.get s').store.called.length + (f.sites.get s').store.outstanding := by
  obtain ⟨hcall, -, -, hbound⟩ :=
    (f.sites.get s).store.calls_notifierStep (h.length_callbacks_le_one s)
  have hcallbacks := callbacks_notifierStep (f.sites.get s).store
  by_cases hs : s' = s
  · subst hs
    have hsite := sites_stirred f s' s'
    rw [if_pos rfl] at hsite
    refine ⟨by rw [hsite], by rw [hsite]; exact hcallbacks, fun j hj => ?_,
      by rw [hsite]; exact hbound⟩
    rcases hj with hj | hj
    · rw [Calls, hsite] at hj
      exact Or.inl (by rw [hcallbacks] at hj; exact hj)
    · rw [hsite] at hj
      exact hcall j hj
  · have hsite := sites_stirred f s s'
    rw [if_neg hs] at hsite
    refine ⟨by rw [hsite], by rw [hsite], fun j hj => ?_, Nat.le_of_eq (by rw [hsite])⟩
    rcases hj with hj | hj
    · exact Or.inl (by rw [Calls, hsite] at hj; exact hj)
    · exact Or.inr (by rw [hsite] at hj; exact hj)

/-- A step in which nobody is called changes no account. -/
theorem notify_of_none (h : Rising settings f₀ n f) {s : Nat}
    (hnone : (f.sites.get s).store.notifierStep.1 = none) (heq : f.notify s = stirred f s) :
    Rising settings f₀ n (f.notify s) := by
  have hcurrent := current_notify h.current s
  rw [heq] at hcurrent ⊢
  obtain ⟨houtage, hcallbacks, -, hbound⟩ := h.stirred_spec s 0
  have hcalled : ((stirred f s).sites.get 0).store.called = (f.sites.get 0).store.called := by
    rw [sites_stirred]
    split
    · rename_i hs
      subst hs
      obtain ⟨-, hcalled, -⟩ :=
        (f.sites.get 0).store.calls_notifierStep (h.length_callbacks_le_one 0)
      rw [hcalled, hnone]
      rfl
    · rfl
  refine ⟨hcurrent, h.size, h.muster, by rw [houtage]; exact h.answers, fun s' j hj => ?_,
    by rw [hcallbacks]; exact h.nodup, h.present, by rw [hcalled]; exact h.passes, h.others,
    by rw [hcalled]; exact h.calls.1, Nat.le_trans hbound h.calls.2⟩
  obtain ⟨-, -, hsummons, -⟩ := h.stirred_spec s s'
  exact h.summons s' j (hsummons j hj)

/-- A step in which the first controller is called is worth one pass to it. -/
theorem notify_of_some (h : Rising settings f₀ n f) (hh : HasHeard (f.controller 0))
    (hsome : (f.sites.get 0).store.notifierStep.1 = some 0)
    (heq : f.notify 0 = (stirred f 0).move 0 Controller.configurationChanged) :
    Rising settings f₀ n (f.notify 0) := by
  have hcurrent := current_notify h.current 0
  rw [heq] at hcurrent ⊢
  obtain ⟨m, hm, -⟩ := h.muster.getElem? (h.pos_of_hasHeard hh)
  obtain ⟨hat, -⟩ := h.seated hm
  have hmaster : ((stirred f 0).controller 0).isMaster (stirred f 0).toSurroundings = true :=
    h.isMaster_of_hasHeard hh
  obtain ⟨houtage, hcallbacks, -, hbound⟩ := h.stirred_spec 0 0
  have hpasses := passes_configurationChanged (c := (stirred f 0).controller 0)
    (w := (stirred f 0).toSurroundings) hat.coordination hat.cluster
    (by rw [show (post settings 0).site = 0 from rfl, houtage]; exact h.answers)
  rw [hmaster, if_pos rfl] at hpasses
  have hfaint := faint_move (stirred f 0) 0 _ (Controller.faint_configurationChanged _ _)
  have hsites : ∀ s, Site.AsBefore ((stirred f 0).sites.get s)
      (((stirred f 0).move 0 Controller.configurationChanged).sites.get s) := fun s =>
    asBefore_configurationChanged _ _ s
  obtain ⟨-, hcalled, hahead⟩ := (hsites 0).calls
  have hself := controller_move_self (stirred f 0) 0 Controller.configurationChanged
  have hothers : ∀ j, j ≠ 0 →
      ((stirred f 0).move 0 Controller.configurationChanged).controller j = f.controller j :=
    fun j hj => controller_move_ne (stirred f 0) 0 hj _
  have hservice : ((stirred f 0).move 0 Controller.configurationChanged).services.get 0
      = f.services.get 0 := hfaint.services 0
  have hcount : ((stirred f 0).sites.get 0).store.called = 0 :: (f.sites.get 0).store.called := by
    obtain ⟨-, hcalled, -⟩ :=
      (f.sites.get 0).store.calls_notifierStep (h.length_callbacks_le_one 0)
    rw [sites_stirred, if_pos rfl, hcalled, hsome]
    rfl
  refine ⟨hcurrent, ?_, by rw [hservice]; exact h.muster,
    by rw [(hsites 0).outage, houtage]; exact h.answers, fun s j hj => ?_,
    (hsites 0).nodup (by rw [hcallbacks]; exact h.nodup), ?_, ?_, fun j hj => ?_,
    by rw [hcalled, hcount]; exact Nat.le_succ_of_le h.calls.1,
    by rw [hcalled, hahead]; exact Nat.le_trans hbound h.calls.2⟩
  · have hsize : (stirred f 0).controllers.size = n := h.size
    have hpos := h.pos_of_hasHeard hh
    exact (Table.size_set _ _ _).trans (by rw [hsize]; omega)
  · have hbefore : Summons (stirred f 0) s j := by
      rcases hj with hj | hj
      · exact Or.inl ((hfaint.calls s j).mp hj)
      · exact Or.inr (by rw [(hsites s).calls.1] at hj; exact hj)
    obtain ⟨-, -, hsummons, -⟩ := h.stirred_spec 0 s
    obtain ⟨hs0, hj0, seat, hseat, hconnected⟩ := h.summons s j (hsummons j hbefore)
    exact ⟨hs0, hj0, seat, (hfaint.alike 0).candidacy.trans hseat, hconnected⟩
  · rw [hself]
    exact (dropped_configurationChanged _ _).trans h.present
  · have haccount := h.passes
    have hbefore : ((stirred f 0).controller 0).tally.passes = (f.controller 0).tally.passes := rfl
    rw [hcalled, hcount, hservice, hself]
    simp only [List.length_cons]
    omega
  · rw [hothers j hj]
    exact h.others j hj

/-- The notifier calls nobody or the first controller, which has heard an event before. -/
theorem notify_cases (h : Rising settings f₀ n f) (s : Nat) :
    ((f.sites.get s).store.notifierStep.1 = none ∧ f.notify s = stirred f s)
      ∨ s = 0 ∧ (f.sites.get 0).store.notifierStep.1 = some 0 ∧ HasHeard (f.controller 0)
        ∧ f.notify s = (stirred f 0).move 0 Controller.configurationChanged := by
  obtain ⟨-, -, hcalled, -⟩ :=
    (f.sites.get s).store.calls_notifierStep (h.length_callbacks_le_one s)
  cases hc : (f.sites.get s).store.notifierStep.1 with
  | none =>
      refine Or.inl ⟨rfl, ?_⟩
      simp only [Fleet.notify, hc]
      rfl
  | some k =>
      obtain ⟨rfl, rfl, hh⟩ := h.summons s k (Or.inr (hcalled k hc))
      refine Or.inr ⟨rfl, hc, hh, ?_⟩
      have hpresent : ((stirred f 0).controller 0).dropped = false := h.present
      simp only [Fleet.notify, hc]
      exact if_neg (by rw [← Bool.not_eq_true] at hpresent; exact hpresent)

/-- **A step of the notifier keeps the account straight.** -/
theorem notify (h : Rising settings f₀ n f) (s : Nat) : Rising settings f₀ n (f.notify s) := by
  rcases h.notify_cases s with ⟨hnone, heq⟩ | ⟨rfl, hsome, hh, heq⟩
  · exact h.notify_of_none hnone heq
  · exact h.notify_of_some hh hsome heq

end Rising

end Daemon

end FleetScaler
