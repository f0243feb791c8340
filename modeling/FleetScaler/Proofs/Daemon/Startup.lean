import FleetScaler.Proofs.CommandLine.Precedence
import FleetScaler.Proofs.Daemon.Rising
import FleetScaler.Proofs.Store.Run

/-!
# A daemon with sensible settings comes up

Settings that make sense leave no way for a node to fail: each joins, publishes and starts, and each
event finds its controller able to take its part. Once all events are handled, whenever that is,
the first node is the master and has run one pass for each node, and all others are standbys.

The events are delivered while the nodes are added, and the notifier of the store runs beside both,
so `Startup` lets these things happen in any order.
-/

namespace FleetScaler.Daemon

open Coordination Controller Fleet

variable {settings : Settings} {f₀ f f' : Fleet} {n k : Nat}

/-! ## Before the first node -/

/-- A fleet with nothing but a store at its first site. -/
def withStore (store : Store Nat) : Fleet := Fleet.changeSite {} 0 fun s => { s with store }

theorem opening_withStore {store : Store Nat} (hcallbacks : store.callbacks = [])
    (hidle : store.notifier = .idle) : Opening (withStore store) := by
  have hsites : ∀ s, ((withStore store).sites.get s).store.callbacks = []
      ∧ ((withStore store).sites.get s).store.notifier = .idle := by
    intro s
    by_cases hs : s = 0
    · subst hs
      rw [withStore, changeSite, Table.get_update_self]
      exact ⟨hcallbacks, hidle⟩
    · rw [withStore, changeSite, Table.get_update_ne _ _ hs]
      exact ⟨rfl, rfl⟩
  exact ⟨fun _ => rfl, rfl, fun s => (hsites s).1, fun s => (hsites s).2, rfl⟩

/-- Whatever the document is, a store that starts with it has nothing to announce. -/
theorem opening_document (document : Document) :
    Opening (withStore { document })
      ∧ ((withStore { document }).sites.get 0).store.isPending = false :=
  ⟨opening_withStore rfl rfl, rfl⟩

/-- A daemon whose requirements have been loaded is ready for its first node. -/
theorem opening_load {files : String → Found} {d : Daemon} (h : load settings files = .ok d) :
    Opening d.fleet := by
  unfold load at h
  split at h
  · obtain rfl := Except.ok.inj h
    exact ⟨fun _ => rfl, rfl, fun _ => rfl, fun _ => rfl, rfl⟩
  · cases hfound : Store.documentOf? (files settings.requirementsPath) with
    | none =>
        obtain ⟨hrefused, -⟩ := Store.load_of_no_document hfound ({} : Store Nat)
          settings.requirementsPath
        split at h
        rename_i loaded store heq
        cases loaded with
        | accepted u => exact absurd (congrArg Prod.fst heq) hrefused
        | refused reason => simp at h
        | failed e => simp at h
    | some document =>
        rw [Store.load_of_document hfound] at h
        obtain rfl := Except.ok.inj h
        exact opening_withStore rfl rfl

/-! ## The order of things -/

/-- What may come of a fleet while nodes are added to it: after `n` nodes, with events delivered and
steps of notifiers taken at any time. -/
inductive Startup (settings : Settings) (f₀ : Fleet) : Nat → Fleet → Prop where
  | opening : Startup settings f₀ 0 f₀
  | node {n : Nat} {f f' : Fleet} (h : Startup settings f₀ n f)
      (hadd : addNode settings f n = .ok f') : Startup settings f₀ (n + 1) f'
  | deliver {n : Nat} {f : Fleet} (h : Startup settings f₀ n f) (service k : Nat) :
      Startup settings f₀ n (f.deliver service k)
  | notify {n : Nat} {f : Fleet} (h : Startup settings f₀ n f) (site : Nat) :
      Startup settings f₀ n (f.notify site)

/-- **The invariant holds all along.** -/
theorem Startup.rising (h : Startup settings f₀ n f) (hvalid : settings.invalid? = none)
    (h₀ : Opening f₀) : Rising settings f₀ n f := by
  induction h with
  | opening => exact rising_opening settings h₀
  | node _ hadd ih =>
      obtain ⟨f', hok, hrising⟩ := ih.node hvalid
      rw [hadd] at hok
      exact Except.ok.inj hok ▸ hrising
  | deliver _ service k ih => exact ih.deliver hvalid service k
  | notify _ site ih => exact ih.notify site

/-- Nodes that are added one right after the other. -/
theorem addNodes_ok (hvalid : settings.invalid? = none) (h₀ : Opening f₀) :
    ∃ f, addNodes settings f₀ = .ok f ∧ Startup settings f₀ settings.nodes.toNat f := by
  -- by induction on the number of nodes: the invariant of what there is lets the next one join
  have hrange : ∀ n, ∃ f, (List.range n).foldlM (addNode settings) f₀ = .ok f
      ∧ Startup settings f₀ n f := by
    intro n
    induction n with
    | zero => exact ⟨f₀, rfl, .opening⟩
    | succ n ih =>
        obtain ⟨f, hf, hstartup⟩ := ih
        obtain ⟨f', hadd, -⟩ := (hstartup.rising hvalid h₀).node hvalid
        refine ⟨f', ?_, hstartup.node hadd⟩
        rw [List.range_succ, List.foldlM_append, hf]
        simp [bind, Except.bind, hadd, pure, Except.pure]
  exact hrange settings.nodes.toNat

/-! ## Handling what waits -/

theorem Startup.repeat_deliver (h : Startup settings f₀ n f) (service k times : Nat) :
    Startup settings f₀ n (Nat.repeat (fun f => f.deliver service k) times f) := by
  induction times with
  | zero => exact h
  | succ times ih => exact ih.deliver service k

theorem Startup.repeat_notify (h : Startup settings f₀ n f) (site times : Nat) :
    Startup settings f₀ n (Nat.repeat (fun f => f.notify site) times f) := by
  induction times with
  | zero => exact h
  | succ times ih => exact ih.notify site

/-- Handling all that waits is a part of coming up. -/
theorem Startup.quiesce (h : Startup settings f₀ n f) : Startup settings f₀ n f.quiesce := by
  have hservice : ∀ f, Startup settings f₀ n f → ∀ service,
      Startup settings f₀ n (f.deliverService service) := fun f hf service =>
    List.foldlRecOn _ _ hf fun _ hg k _ => hg.repeat_deliver service k _
  have hdelivered : Startup settings f₀ n ((List.range f.services.size).foldl deliverService f) :=
    List.foldlRecOn _ _ h fun _ hg service _ => hservice _ hg service
  exact List.foldlRecOn _ _ hdelivered fun _ hg site _ => hg.repeat_notify site _

/-- What has been heard once is not waiting any more, and nothing else has come. -/
theorem Rising.waiting_deliver (h : Rising settings f₀ n f) (hvalid : settings.invalid? = none)
    (k j : Nat) : ((f.deliver 0 k).services.get 0).waiting j
      = if j = k then (f.services.get 0).waiting j - 1 else (f.services.get 0).waiting j := by
  cases hm : (f.services.get 0).members[k]? with
  | none =>
      rw [deliver_eq_self (by simp [hm])]
      split
      · rename_i hj
        subst hj
        simp [waiting, hm]
      · rfl
  | some m =>
      cases hq : m.queue with
      | nil =>
          rw [deliver_eq_self (by simpa [hm] using hq)]
          split
          · rename_i hj
            subst hj
            simp [waiting, hm, hq]
          · rfl
      | cons event rest =>
          obtain ⟨state, hservice⟩ := h.services_deliver hvalid hm hq
          rw [hservice, waiting, getElem?_onMember]
          by_cases hj : j = k
          · subst hj
            simp [waiting, hm, hq]
          · rw [if_neg (Ne.symm hj), if_neg hj]
            rfl

/-- Nobody has anything to hear. -/
def Drained (f : Fleet) : Prop := ∀ j, (f.services.get 0).waiting j = 0

namespace Rising

theorem repeat_deliver (h : Rising settings f₀ n f) (hvalid : settings.invalid? = none)
    (k times : Nat) :
    Rising settings f₀ n (Nat.repeat (fun f => f.deliver 0 k) times f)
      ∧ ∀ j, ((Nat.repeat (fun f => f.deliver 0 k) times f).services.get 0).waiting j
          = if j = k then (f.services.get 0).waiting j - times
            else (f.services.get 0).waiting j := by
  induction times with
  | zero => exact ⟨h, fun j => by simp [Nat.repeat]⟩
  | succ times ih =>
      obtain ⟨hr, hw⟩ := ih
      refine ⟨hr.deliver hvalid 0 k, fun j => ?_⟩
      rw [Nat.repeat, hr.waiting_deliver hvalid k j, hw j]
      split <;> omega

/-- Delivering all that waits for a member leaves nothing for it, and nothing new for anybody. -/
theorem deliverMember (h : Rising settings f₀ n f) (hvalid : settings.invalid? = none) (k : Nat) :
    Rising settings f₀ n (Fleet.deliverMember 0 f k)
      ∧ ∀ j, ((Fleet.deliverMember 0 f k).services.get 0).waiting j
          = if j = k then 0 else (f.services.get 0).waiting j := by
  obtain ⟨hr, hw⟩ := h.repeat_deliver hvalid k ((f.services.get 0).waiting k)
  refine ⟨hr, fun j => (hw j).trans ?_⟩
  split
  · rename_i hj
    rw [hj, Nat.sub_self]
  · rfl

/-- Delivering all that waits at a service leaves nothing there. -/
theorem deliverService (h : Rising settings f₀ n f) (hvalid : settings.invalid? = none) :
    Rising settings f₀ n (f.deliverService 0) ∧ Drained (f.deliverService 0) := by
  -- the first `l` members have nothing left to hear, and no other has heard anything
  have hrange : ∀ l : Nat, Rising settings f₀ n ((List.range l).foldl (Fleet.deliverMember 0) f)
      ∧ ∀ j, (((List.range l).foldl (Fleet.deliverMember 0) f).services.get 0).waiting j
          = if j < l then 0 else (f.services.get 0).waiting j := by
    intro l
    induction l with
    | zero => exact ⟨h, fun j => rfl⟩
    | succ l ih =>
        obtain ⟨hr, hw⟩ := ih
        obtain ⟨hr', hw'⟩ := hr.deliverMember hvalid l
        rw [List.range_succ, List.foldl_append]
        refine ⟨hr', fun j => (hw' j).trans ?_⟩
        rw [hw j]
        by_cases hj : j = l
        · rw [if_pos hj, if_pos (by omega)]
        · rw [if_neg hj]
          have hlt : j < l ↔ j < l + 1 := by omega
          simp only [hlt]
  obtain ⟨hr, hw⟩ := hrange (f.services.get 0).members.length
  refine ⟨hr, fun j => (hw j).trans ?_⟩
  split
  · rfl
  · rename_i hj
    simp [waiting, List.getElem?_eq_none (Nat.not_lt.mp hj)]

/-- At any other service there is nothing to deliver. -/
theorem deliverService_elsewhere (h : Rising settings f₀ n f) {service : Nat} (hne : service ≠ 0) :
    f.deliverService service = f := by
  have hmember : ∀ k, Fleet.deliverMember service f k = f := by
    intro k
    have hself : ∀ times, Nat.repeat (fun f => f.deliver service k) times f = f := by
      intro times
      induction times with
      | zero => rfl
      | succ times ih =>
          rw [Nat.repeat, ih, deliver_eq_self fun m hm => h.queue_elsewhere hne hm]
    exact hself _
  exact List.foldlRecOn (motive := fun g => g = f) _ _ rfl fun g hg k _ => by rw [hg, hmember k]

/-- Delivering all that waits anywhere leaves nothing. -/
theorem drained_deliver (h : Rising settings f₀ n f) (hvalid : settings.invalid? = none) :
    Drained ((List.range f.services.size).foldl Fleet.deliverService f) := by
  have hfold : ∀ (l : List Nat) (f : Fleet), Rising settings f₀ n f → 0 ∈ l ∨ Drained f →
      Drained (l.foldl Fleet.deliverService f) := by
    intro l
    induction l with
    | nil => exact fun f _ hor => hor.resolve_left List.not_mem_nil
    | cons service l ih =>
        intro f h hor
        by_cases hs : service = 0
        · subst hs
          obtain ⟨hr, hd⟩ := h.deliverService hvalid
          exact ih _ hr (Or.inr hd)
        · rw [List.foldl_cons, h.deliverService_elsewhere hs]
          exact ih f h (hor.imp_left fun hin => (List.mem_cons.mp hin).resolve_left (Ne.symm hs))
  refine hfold _ f h ?_
  rcases Nat.eq_zero_or_pos f.services.size with hzero | hpos
  · -- no service has been written, so nobody has joined any
    refine Or.inr fun j => ?_
    rw [Table.get_of_size_le (Nat.le_of_eq hzero)]
    rfl
  · exact Or.inl (List.mem_range.mpr hpos)

end Rising

theorem services_notify (f : Fleet) (site : Nat) : (f.notify site).services = f.services := by
  have hcall : ∀ (g : Fleet) k, (g.call k).services = g.services := by
    intro g k
    unfold Fleet.call
    split
    · rfl
    · exact (Controller.faint_configurationChanged _ _).services
  unfold Fleet.notify
  simp only
  split
  · rfl
  · exact hcall _ _

/-- Where no member has anything to hear, no event is waiting. -/
theorem settled_of_queues
    (h : ∀ (s k : Nat) (m : Member Nat), (f.services.get s).members[k]? = some m → m.queue = []) :
    f.Settled := by
  have hbacklog : ∀ members : List (Member Nat), (∀ m ∈ members, m.queue = []) →
      members.foldr (fun m n => m.queue.length + n) 0 = 0 := by
    intro members
    induction members with
    | nil => exact fun _ => rfl
    | cons m rest ih =>
        intro hqueue
        rw [List.foldr_cons, ih fun x hx => hqueue x (List.mem_cons_of_mem _ hx),
          hqueue m (List.mem_cons_self ..)]
        rfl
  intro service hin
  obtain ⟨s, hs⟩ := List.mem_iff_getElem?.mp hin
  have hget : f.services.get s = service := by
    rw [Table.get, List.getD_eq_getElem?_getD, hs]
    rfl
  refine hbacklog _ fun m hm => ?_
  obtain ⟨k, hk⟩ := List.mem_iff_getElem?.mp hm
  exact h s k m (by rw [hget]; exact hk)

/-- **A fleet in which everything has been handled is settled.** -/
theorem Rising.settled_quiesce (h : Rising settings f₀ n f) (hvalid : settings.invalid? = none)
    (hq : Rising settings f₀ n f.quiesce) : f.quiesce.Settled := by
  -- the notifiers come last, and no service hears of what they do
  have hnotify : ∀ (sites : List Nat) (g : Fleet),
      (sites.foldl Fleet.notifySite g).services = g.services := by
    intro sites g
    refine List.foldlRecOn (motive := fun g' : Fleet => g'.services = g.services) _ _ rfl
      fun g' hg site _ => ?_
    have hrepeat : ∀ times,
        (Nat.repeat (fun f => f.notify site) times g').services = g'.services := by
      intro times
      induction times with
      | zero => rfl
      | succ times ih => rw [Nat.repeat, services_notify, ih]
    exact (hrepeat _).trans hg
  have hdrained := h.drained_deliver hvalid
  refine settled_of_queues fun s k m hm => ?_
  by_cases hs : s = 0
  · subst hs
    have hwaiting := waiting_of hm
    rw [Fleet.quiesce, hnotify, hdrained k] at hwaiting
    exact List.length_eq_zero_iff.mp hwaiting.symm
  · exact hq.queue_elsewhere hs hm

/-! ## What has come up -/

/-- The calls of the first site's store since the fleet was `f₀`. -/
def announcements (f₀ f : Fleet) : Nat :=
  (f.sites.get 0).store.called.length - (f₀.sites.get 0).store.called.length

/-- All nodes are up: one master, which has run a pass for its own election and one for each node
that came later, and standbys for the rest. -/
structure Up (settings : Settings) (f₀ f : Fleet) : Prop where
  /-- There are as many started members as nodes, with distinct ids. -/
  members : ((f.services.get 0).membersOf settings.groupPath).length = settings.nodes.toNat
    ∧ ((f.services.get 0).membersOf settings.groupPath).Nodup
  master : (f.controller 0).state = .master ∧ (f.controller 0).timer.isEnabled = true
  /-- The first controller's callback is the only one that is tracked. -/
  tracked : (f.sites.get 0).store.callbacks = [0]
  /-- Without an earlier change of the requirements that is still to be announced, the passes are
  those for the nodes. -/
  passes : (f₀.sites.get 0).store.isPending = false →
    (f.controller 0).tally.passes = settings.nodes.toNat
  /-- Each call of the store is worth another pass, and there is at most one. -/
  announced : (f.controller 0).tally.passes = settings.nodes.toNat + announcements f₀ f
    ∧ announcements f₀ f ≤ 1
  standbys : ∀ k, 0 < k → k < settings.nodes.toNat → (f.controller k).state = .standby
    ∧ (f.controller k).timer.isEnabled = false ∧ (f.controller k).tally.passes = 0

/-- No delivery can fail: whoever hears the next event of a member can deal with it. -/
def Untroubled (f : Fleet) : Prop :=
  ∀ (service k : Nat) (m : Member Nat) (event : GroupEvent) (rest : List GroupEvent),
    (f.services.get service).members[k]? = some m → m.queue = event :: rest →
      ∀ listener ∈ m.listeners, ∀ memberId,
        (((f.taken service k rest).controller listener).hear memberId event
          (f.taken service k rest).toSurroundings).1 = .ok ()

namespace Rising

/-- Once everything is handled, the first controller shows that it is the master, and all others
that they are standbys. -/
theorem shows (h : Rising settings f₀ n f) (hsettled : f.Settled) (hk : k < n) :
    (f.controller k).Shows f.toSurroundings (if k = 0 then .master else .standby) := by
  obtain ⟨m, hm, ha⟩ := h.muster.getElem? hk
  obtain ⟨-, seat, hs⟩ := h.seated hm
  obtain ⟨-, hshows⟩ := hs.heard (hsettled.queue hm)
  have hmaster : (f.services.get (post settings k).service).isMaster k = decide (k = 0) :=
    h.muster.isMaster_eq hk
  rw [ha.connected, hmaster] at hshows
  simpa [assigned] using hshows

/-- The master is the only one whom the site calls. -/
theorem callbacks_eq (h : Rising settings f₀ n f) (hpos : 0 < n)
    (hfirst : (f.controller 0).Shows f.toSurroundings .master) :
    (f.sites.get 0).store.callbacks = [0] := by
  obtain ⟨m, hm, -⟩ := h.muster.getElem? hpos
  have hcalled : 0 ∈ (f.sites.get 0).store.callbacks :=
    (hfirst.tracked 0).mpr ⟨rfl, (h.seated hm).1.cluster⟩
  obtain ⟨k, hk⟩ := List.length_eq_one_iff.mp
    (Nat.le_antisymm (h.length_callbacks_le_one 0) (List.length_pos_of_mem hcalled))
  rw [hk, List.mem_singleton] at hcalled
  rw [hk, ← hcalled]

/-- **Once everything is handled, all nodes are up.** -/
theorem up (h : Rising settings f₀ settings.nodes.toNat f) (h₀ : Opening f₀)
    (hpos : 0 < settings.nodes.toNat) (hsettled : f.Settled) : Up settings f₀ f := by
  have hfirst : (f.controller 0).Shows f.toSurroundings .master := h.shows hsettled hpos
  have hwaiting : (f.services.get 0).waiting 0 = 0 := by
    obtain ⟨m, hm, -⟩ := h.muster.getElem? hpos
    rw [waiting_of hm, hsettled.queue hm]
    rfl
  have haccount := h.passes
  obtain ⟨hsince, hbound⟩ := h.calls
  have hone := (f₀.sites.get 0).store.outstanding_le_one (h₀.idle 0)
  refine ⟨h.muster.membersOf, ⟨hfirst.state, hfirst.timer (by simp)⟩, h.callbacks_eq hpos hfirst,
    fun hquiet => ?_, ⟨?_, ?_⟩, fun k hk hlt => ?_⟩
  · -- whoever has nothing to announce calls nobody
    rw [Store.outstanding_of_not_pending _ hquiet] at hbound
    omega
  · unfold announcements
    omega
  · unfold announcements
    omega
  · have hstandby := h.shows hsettled hlt
    rw [if_neg (Nat.ne_of_gt hk)] at hstandby
    exact ⟨hstandby.state, hstandby.timer (by simp), h.others k (Nat.ne_of_gt hk)⟩

/-- Only seated controllers hear events, so every delivery goes well. -/
theorem untroubled (h : Rising settings f₀ n f) (hvalid : settings.invalid? = none) :
    Untroubled f := by
  intro service k m event rest hm hq listener hl memberId
  by_cases hne : service = 0
  · subst hne
    rw [(h.muster.attending k m hm).listeners, List.mem_singleton] at hl
    obtain ⟨hat, seat, hs⟩ := h.seated hm
    obtain ⟨c', w', hear⟩ := hear_taken hat hvalid hs rest memberId event
    rw [hl]
    exact congrArg Prod.fst hear
  · exact absurd ((h.queue_elsewhere hne hm).symm.trans hq) (by simp)

end Rising

/-- Sensible settings name a log level and at least one node. -/
theorem level_and_nodes (hvalid : settings.invalid? = none) :
    (∃ level, Log.Level.parse? settings.logLevel = some level) ∧ 0 < settings.nodes.toNat := by
  unfold Settings.invalid? at hvalid
  iterate 5 (split at hvalid; · exact absurd hvalid (by simp))
  rename_i hlevel hnodes
  refine ⟨Option.ne_none_iff_exists'.mp hlevel, Nat.pos_of_ne_zero fun hzero => hnodes ?_⟩
  simp [UInt32.lt_iff_toNat_lt, hzero]

/-- **A daemon with sensible settings comes up**, whatever its requirements are and in whatever
order nodes are added, events delivered and changes announced. -/
theorem comes_up (hvalid : settings.invalid? = none) (h₀ : Opening f₀) :
    (∃ level, Log.Level.parse? settings.logLevel = some level)
      ∧ (∃ f, addNodes settings f₀ = .ok f ∧ f.quiesce.Settled ∧ Up settings f₀ f.quiesce)
      ∧ ∀ n f, Startup settings f₀ n f →
          (∃ f', addNode settings f n = .ok f') ∧ Untroubled f
            ∧ (n = settings.nodes.toNat → f.Settled → Up settings f₀ f) := by
  obtain ⟨hlevel, hpos⟩ := level_and_nodes hvalid
  obtain ⟨f, hadd, hstartup⟩ := addNodes_ok hvalid h₀
  refine ⟨hlevel, ⟨f, hadd, ?_⟩, fun n f hf => ?_⟩
  · have hrising := hstartup.quiesce.rising hvalid h₀
    have hsettled := (hstartup.rising hvalid h₀).settled_quiesce hvalid hrising
    exact ⟨hsettled, hrising.up h₀ hpos hsettled⟩
  · have hrising := hf.rising hvalid h₀
    obtain ⟨f', hnode, -⟩ := hrising.node hvalid
    refine ⟨⟨f', hnode⟩, hrising.untroubled hvalid, ?_⟩
    rintro rfl hsettled
    exact hrising.up h₀ hpos hsettled

/-- Three nodes over a document with one profile: the second and the third have each made the first
run another pass. -/
theorem three_nodes_come_up :
    ∃ f, addNodes { nodes := 3 } (withStore { document := ⟨[{ profile := "web" }], by decide⟩ })
        = .ok f
      ∧ (f.quiesce.controller 0).state = .master ∧ (f.quiesce.controller 0).tally.passes = 3
      ∧ (f.quiesce.controller 2).state = .standby := by
  obtain ⟨hopening, hquiet⟩ := opening_document ⟨[{ profile := "web" }], by decide⟩
  obtain ⟨-, ⟨f, hadd, -, hup⟩, -⟩ :=
    @comes_up { nodes := 3 } _ (by decide +kernel) hopening
  exact ⟨f, hadd, hup.master.1, hup.passes hquiet, (hup.standbys 2 (by decide) (by decide)).1⟩

/-- **A program starts once its settings have been resolved and its requirements loaded.** -/
theorem start_of_load {arguments : List String} {files : String → Found} {line : CommandLine}
    {d : Daemon} (hparse : CommandLine.parse arguments = .ok (.run line))
    (hresolve : line.resolve files = .ok settings) (hload : load settings files = .ok d) :
    ∃ f, start arguments files = .ok (.run { d with fleet := f })
      ∧ Startup settings d.fleet settings.nodes.toNat f := by
  obtain ⟨-, -, -, hvalid⟩ := CommandLine.resolve_eq_ok_iff.mp hresolve
  obtain ⟨f, hadd, hstartup⟩ := addNodes_ok hvalid (opening_load hload)
  refine ⟨f, ?_, hstartup⟩
  simp [start, hparse, hresolve, hload, hadd, bind, Except.bind]

end FleetScaler.Daemon
