import FleetScaler.Proofs.Controller.Seats
import FleetScaler.Proofs.Fleet.Run

/-!
# Only the master acts on its own

Ticks, changed requirements and events of a group make controllers run passes that nobody asked
for. Over every run of a fleet, such a pass is the work of a controller whose member is first in
the line of its path, and as long as that line stays as it is no other controller takes its place.

Two things carry this. A controller that runs a pass of its own accord has looked at the group
(`Dutiful`), and what it saw is the state of the lines before and after the step (`Quiet`). And
nobody takes a seat that is taken or has been taken before (`Sound`, `Shifts`).
-/

namespace FleetScaler.Fleet

open Coordination

variable {f f' f'' : Fleet}

/-! ## Steps without a change of the lines -/

/-- Nobody moves, and whoever runs a pass is leading. -/
structure Quiet (f f' : Fleet) : Prop where
  settings : ∀ k, (f'.controller k).settings = (f.controller k).settings
  seats : ∀ k, (f'.controller k).seat? = (f.controller k).seat?
  lines : ∀ i, (f.services.get i).SameLines (f'.services.get i)
  passes : ∀ k, (f'.controller k).tally.passes ≠ (f.controller k).tally.passes →
    (f.controller k).Leading f.toSurroundings

theorem Quiet.refl (f : Fleet) : Quiet f f where
  settings _ := rfl
  seats _ := rfl
  lines _ := .refl _
  passes _ hne := absurd rfl hne

/-- Where the lines are in order, what leads after a quiet step was leading before it. -/
theorem Quiet.leading (h : Quiet f f') (ho : ∀ i, Orderly (f.services.get i)) {k : Nat}
    (hl : (f'.controller k).Leading f'.toSurroundings) :
    (f.controller k).Leading f.toSurroundings := by
  obtain ⟨service, number, hs, hm⟩ := hl
  refine ⟨service, number, (h.seats k) ▸ hs, ?_⟩
  rw [← (h.lines service).isMaster (ho service)]
  exact hm

theorem Quiet.trans (h : Quiet f f') (h' : Quiet f' f'')
    (ho : ∀ i, Orderly (f.services.get i)) : Quiet f f'' where
  settings k := (h'.settings k).trans (h.settings k)
  seats k := (h'.seats k).trans (h.seats k)
  lines i := (h.lines i).trans (h'.lines i)
  passes k hne := by
    by_cases hk : (f'.controller k).tally.passes = (f.controller k).tally.passes
    · exact h.leading ho (h'.passes k (by rw [hk]; exact hne))
    · exact h.passes k hk

/-- What a controller does when it looks before it acts is quiet. -/
theorem quiet_move (f : Fleet) (k : Nat)
    (g : Controller → Surroundings → Controller × Surroundings)
    (hg : ∀ c w, Controller.Dutiful c w (g c w).1 (g c w).2) : Quiet f (f.move k g) := by
  have hk := hg (f.controller k) f.toSurroundings
  refine ⟨?_, ?_, hk.lines, ?_⟩
  · intro j
    by_cases hj : j = k
    · subst hj
      rw [controller_move_self]
      exact hk.settings
    · rw [controller_move_ne f k hj]
  · intro j
    by_cases hj : j = k
    · subst hj
      rw [controller_move_self]
      exact hk.seat
    · rw [controller_move_ne f k hj]
  · intro j hne
    by_cases hj : j = k
    · subst hj
      rw [controller_move_self] at hne
      exact hk.passes hne
    · rw [controller_move_ne f k hj] at hne
      exact absurd rfl hne

theorem quiet_services {t : Table (Coordination Nat)}
    (h : ∀ i, (f.services.get i).SameLines (t.get i)) : Quiet f { f with services := t } where
  settings _ := rfl
  seats _ := rfl
  lines := h
  passes _ hne := absurd rfl hne

theorem quiet_changeSite (f : Fleet) (site : Nat) (g : Site Nat → Site Nat) :
    Quiet f (f.changeSite site g) where
  settings _ := rfl
  seats _ := rfl
  lines _ := .refl _
  passes _ hne := absurd rfl hne

theorem quiet_call (f : Fleet) (k : Nat) : Quiet f (f.call k) := by
  unfold call
  split
  · exact .refl f
  · exact quiet_move f k _ Controller.dutiful_configurationChanged

theorem quiet_notify (f : Fleet) (site : Nat) (ho : ∀ i, Orderly (f.services.get i)) :
    Quiet f (f.notify site) := by
  unfold notify
  have hsite := quiet_changeSite f site fun s =>
    { s with store := (f.sites.get site).store.notifierStep.2 }
  simp only
  split
  · exact hsite
  · rename_i k _
    exact hsite.trans (quiet_call _ k) ho

theorem quiet_hearAt (f : Fleet) (service member : Nat) (event : GroupEvent) (listener : Nat)
    (ho : ∀ i, Orderly (f.services.get i)) :
    Quiet f (hearAt service member event f listener) := by
  have hheard := quiet_move f listener _ fun c w =>
    Controller.dutiful_hear c ((f.services.get service).idOf member) event w
  unfold hearAt
  simp only
  rw [← act_eq_move] at hheard
  split
  · rename_i heq
    rwa [heq] at hheard
  · rename_i g heq
    rw [heq] at hheard
    refine hheard.trans (quiet_services fun i => ?_) ho
    by_cases hi : i = service
    · subst hi
      rw [Table.get_update_self]
      exact sameLines_note _ _ _
    · rw [Table.get_update_ne _ _ hi]
      exact .refl _

theorem quiet_deliver (f : Fleet) (service member : Nat)
    (ho : ∀ i, Orderly (f.services.get i)) : Quiet f (f.deliver service member) := by
  have htaken := (f.services.get service).sameLines_takeEvent member
  unfold deliver
  split
  · exact .refl f
  · rename_i event listeners s heq
    rw [heq] at htaken
    have hstart := quiet_services (sameLines_set (w := f.toSurroundings) htaken)
    -- the listeners hear one after the other, each in the fleet that the last one has left
    have hall : ∀ (listeners : List Nat) (g : Fleet), Quiet f g →
        Quiet f (listeners.foldl (hearAt service member event) g) := by
      intro listeners
      induction listeners with
      | nil => exact fun g hg => hg
      | cons k rest ih =>
          intro g hg
          have hg' : ∀ i, Orderly (g.services.get i) := fun i => (hg.lines i).orderly (ho i)
          exact ih _ (hg.trans (quiet_hearAt g service member event k hg') ho)
    exact hall listeners _ hstart

/-! ## Steps that may change the lines -/

/-- Services grow, and no controller but `k` takes or leaves a seat. -/
structure Shifts (f f' : Fleet) (k : Nat) : Prop where
  grows : ∀ i, (f.services.get i).Grows (f'.services.get i)
  others : ∀ j, j ≠ k → (f'.controller j).settings = (f.controller j).settings
    ∧ (f'.controller j).seat? = (f.controller j).seat?
  /-- A seat that `k` takes is for a new member, on the path of its settings. -/
  seat : (f'.controller k).seat? = none ∨
    (f'.controller k).settings = (f.controller k).settings
      ∧ ((f'.controller k).seat? = (f.controller k).seat?
        ∨ (f.controller k).Takes f.toSurroundings (f'.controller k) f'.toSurroundings)

theorem Quiet.shifts (h : Quiet f f') (k : Nat) : Shifts f f' k where
  grows i := (h.lines i).grows
  others j _ := ⟨h.settings j, h.seats j⟩
  seat := Or.inr ⟨h.settings k, Or.inl (h.seats k)⟩

theorem shifts_move (f : Fleet) (k : Nat)
    (g : Controller → Surroundings → Controller × Surroundings)
    (hg : ∀ c w, Controller.Moves c w (g c w).1 (g c w).2) : Shifts f (f.move k g) k where
  grows := (hg (f.controller k) f.toSurroundings).grows
  others j hj := by rw [controller_move_ne f k hj]; exact ⟨rfl, rfl⟩
  seat := by
    have hk := hg (f.controller k) f.toSurroundings
    rw [controller_move_self]
    exact hk.seat.imp_right fun h => ⟨hk.settings, h⟩

/-- What happens to the services alone leaves every controller in its seat. -/
theorem shifts_services {t : Table (Coordination Nat)}
    (h : ∀ i, (f.services.get i).Grows (t.get i)) (k : Nat) :
    Shifts f { f with services := t } k where
  grows := h
  others _ _ := ⟨rfl, rfl⟩
  seat := Or.inr ⟨rfl, Or.inl rfl⟩

theorem shifts_add (f : Fleet) (settings : Settings) :
    Shifts f (f.add settings).2 f.controllers.size where
  grows _ := .refl _
  others j hj := by rw [controller_add_ne f hj]; exact ⟨rfl, rfl⟩
  seat := Or.inl (by rw [controller_add_self]; rfl)

/-! ## Seats -/

/-- The controller `k` stands for the member with the number `n` of a service. -/
def Holds (f : Fleet) (k service n : Nat) : Prop := (f.controller k).seat? = some (service, some n)

/-- Lines are in order, and no two controllers stand for the same member. -/
structure Sound (f : Fleet) : Prop where
  orderly : ∀ i, Orderly (f.services.get i)
  /-- Whoever has a seat stands for a member on the path of its settings. -/
  seated : ∀ k service group, (f.controller k).seat? = some (service, group) →
    ∃ n m, group = some n ∧ (f.services.get service).members[n]? = some m
      ∧ m.path = (f.controller k).settings.groupPath
  sole : ∀ j k service n, f.Holds j service n → f.Holds k service n → j = k

theorem sound_empty : Sound {} where
  orderly i := by
    rw [Table.get_of_size_le (Nat.zero_le i)]
    exact orderly_empty
  seated k service group h := by
    rw [controller_of_size_le _ (Nat.zero_le k)] at h
    exact absurd h (by simp [Controller.seat?])
  sole j k service n h := by
    rw [Holds, controller_of_size_le _ (Nat.zero_le j)] at h
    exact absurd h (by simp [Controller.seat?])

theorem Sound.lt_length (h : Sound f) {k service n : Nat} (hk : f.Holds k service n) :
    n < (f.services.get service).members.length := by
  obtain ⟨n', m, hn, hm, _⟩ := h.seated k service (some n) hk
  obtain rfl := Option.some.inj hn
  exact (List.getElem?_eq_some_iff.mp hm).1

/-- **Nobody takes a seat that has been there before.** -/
theorem Shifts.holds {k j service n : Nat} (h : Shifts f f' k)
    (hn : n < (f.services.get service).members.length) (hj : f'.Holds j service n) :
    f.Holds j service n := by
  by_cases hjk : j = k
  · subst hjk
    rcases h.seat with hnone | ⟨_, hsame | ⟨s, m, hnew, _, _⟩⟩
    · exact absurd (hnone.symm.trans hj) (by simp)
    · exact hsame.symm.trans hj
    · -- the number of a new member is beyond all others
      have heq := hnew.symm.trans hj
      simp only [Option.some.injEq, Prod.mk.injEq] at heq
      obtain ⟨rfl, rfl⟩ := heq
      exact absurd hn (Nat.lt_irrefl _)
  · exact (h.others j hjk).2.symm.trans hj

theorem sound_shifts {k : Nat} (hs : Sound f) (h : Shifts f f' k) : Sound f' := by
  -- members are never removed, so seats that are kept stay occupied
  have old : ∀ j service group, (f.controller j).seat? = some (service, group) →
      (f'.controller j).settings = (f.controller j).settings →
      ∃ n m, group = some n ∧ (f'.services.get service).members[n]? = some m
        ∧ m.path = (f'.controller j).settings.groupPath := by
    intro j service group hj hset
    obtain ⟨n, m, hg, hm, hpath⟩ := hs.seated j service group hj
    obtain ⟨m', hm', _, hpath'⟩ := (h.grows service).kept n m hm
    exact ⟨n, m', hg, hm', by rw [hpath', hset, hpath]⟩
  refine ⟨fun i => (h.grows i).orderly (hs.orderly i), ?_, ?_⟩
  · intro j service group hj
    by_cases hjk : j = k
    · subst hjk
      rcases h.seat with hnone | ⟨hset, hsame | ⟨s, m, hnew, hm, hpath⟩⟩
      · exact absurd (hnone.symm.trans hj) (by simp)
      · exact old j service group (hsame.symm.trans hj) hset
      · have heq := hnew.symm.trans hj
        simp only [Option.some.injEq, Prod.mk.injEq] at heq
        obtain ⟨rfl, rfl⟩ := heq
        exact ⟨_, m, rfl, hm, by rw [hset, hpath]⟩
    · obtain ⟨hset, hsame⟩ := h.others j hjk
      exact old j service group (hsame.symm.trans hj) hset
  · -- if one of the two has just sat down, the other one has no seat for so new a member
    have fresh : ∀ i j service n, f'.Holds i service n → f'.Holds j service n → i ≠ k → i = j := by
      intro i j service n hi hj hik
      have hi' : f.Holds i service n := (h.others i hik).2.symm.trans hi
      exact hs.sole i j service n hi' (h.holds (hs.lt_length hi') hj)
    intro i j service n hi hj
    by_cases hik : i = k
    · by_cases hjk : j = k
      · rw [hik, hjk]
      · exact (fresh j i service n hj hi hjk).symm
    · exact fresh i j service n hi hj hik

/-! ## All actions -/

theorem passes_move (f : Fleet) (k : Nat)
    (g : Controller → Surroundings → Controller × Surroundings)
    (hg : ∀ c w, (g c w).1.tally = c.tally) (j : Nat) :
    ((f.move k g).controller j).tally.passes = (f.controller j).tally.passes := by
  by_cases hj : j = k
  · subst hj
    rw [controller_move_self]
    exact congrArg Tally.passes (hg _ _)
  · rw [controller_move_ne f k hj]

/-- **An action is quiet, or it is a pass that was asked for, or it runs no pass at all.** -/
theorem perform_cases (hs : Sound f) (a : Action) :
    Quiet f (f.perform a) ∨
    (∃ k, a = .reconcile k) ∨
    ∀ k, ((f.perform a).controller k).tally.passes = (f.controller k).tally.passes := by
  cases a with
  | add settings =>
      refine Or.inr (Or.inr fun j => ?_)
      by_cases hj : j = f.controllers.size
      · subst hj
        rw [perform, controller_add_self, controller_of_size_le f (Nat.le_refl _)]
      · rw [perform, controller_add_ne f hj]
  | bindCoordination k service => exact Or.inr (Or.inr (passes_move f k _ fun _ _ => rfl))
  | unbindCoordination k service => exact Or.inr (Or.inr (passes_move f k _ fun _ _ => rfl))
  | bindCluster k site => exact Or.inr (Or.inr (passes_move f k _ fun _ _ => rfl))
  | unbindCluster k site => exact Or.inr (Or.inr (passes_move f k _ fun _ _ => rfl))
  | activate k =>
      exact Or.inr (Or.inr (passes_move f k _ fun c w => (c.moves_activate w).2))
  | deactivate k =>
      exact Or.inr (Or.inr (passes_move f k _ fun c w => (c.moves_deactivate w).2))
  | drop k => exact Or.inr (Or.inr (passes_move f k _ fun c w => (c.moves_drop w).2))
  | reconcile k => exact Or.inr (Or.inl ⟨k, rfl⟩)
  | event k e => exact Or.inl (quiet_move f k _ fun c w => c.dutiful_membershipEvent e w)
  | tick k => exact Or.inl (quiet_move f k _ Controller.dutiful_tick)
  | call k => exact Or.inl (quiet_call f k)
  | request service r => exact Or.inr (Or.inr fun _ => rfl)
  | changeSite site g => exact Or.inl (quiet_changeSite f site g)
  | deliver service member => exact Or.inl (quiet_deliver f service member hs.orderly)
  | notify site => exact Or.inl (quiet_notify f site hs.orderly)
  | resign k => exact Or.inr (Or.inr (passes_move f k _ fun _ _ => rfl))
  | stopTimer k => exact Or.inr (Or.inr (passes_move f k _ fun _ _ => rfl))
  | unlisten service member k => exact Or.inr (Or.inr fun _ => rfl)

/-- A controller that changes nothing but itself, and keeps its seat, has not moved. -/
theorem shifts_self (f : Fleet) (k : Nat) (g : Controller → Controller)
    (hs : ∀ c, (g c).settings = c.settings) (hc : ∀ c, (g c).seat? = c.seat?) :
    Shifts f (f.move k fun c w => (g c, w)) k :=
  shifts_move f k _ fun c _ => (Controller.keeps_of_eq (hs c) (hc c) rfl).moves

/-- Every action moves at most one controller to another seat. -/
theorem shifts_perform (hs : Sound f) (a : Action) : ∃ k, Shifts f (f.perform a) k := by
  cases a with
  | add settings => exact ⟨_, shifts_add f settings⟩
  | bindCoordination k service =>
      exact ⟨k, shifts_self f k (·.bindCoordination service) (fun _ => rfl) fun _ => rfl⟩
  | unbindCoordination k service =>
      exact ⟨k, shifts_self f k (·.unbindCoordination service) (fun _ => rfl) fun _ => rfl⟩
  | bindCluster k site =>
      exact ⟨k, shifts_self f k (·.bindCluster site) (fun _ => rfl) fun _ => rfl⟩
  | unbindCluster k site =>
      refine ⟨k, shifts_move f k (fun c w => c.unbindCluster site w) fun c w => ?_⟩
      refine Controller.Keeps.moves (Controller.keeps_of_eq rfl rfl ?_)
      cases site <;> rfl
  | activate k =>
      exact ⟨k, shifts_move f k (fun c w => (c.activate w).2) fun c w => (c.moves_activate w).1⟩
  | deactivate k =>
      exact ⟨k, shifts_move f k Controller.deactivate fun c w => (c.moves_deactivate w).1⟩
  | drop k => exact ⟨k, shifts_move f k Controller.drop fun c w => (c.moves_drop w).1⟩
  | reconcile k =>
      exact ⟨k, shifts_move f k (fun c w => (c.reconcile w).2) fun c w =>
        (c.keeps_reconcile w).moves⟩
  | event k e =>
      exact ⟨k, (quiet_move f k _ fun c w => c.dutiful_membershipEvent e w).shifts k⟩
  | tick k => exact ⟨k, (quiet_move f k _ Controller.dutiful_tick).shifts k⟩
  | call k => exact ⟨k, (quiet_call f k).shifts k⟩
  | request service r =>
      exact ⟨0, shifts_services (grows_set (w := f.toSurroundings) (grows_serve _ r)) 0⟩
  | changeSite site g => exact ⟨0, (quiet_changeSite f site g).shifts 0⟩
  | deliver service member => exact ⟨0, (quiet_deliver f service member hs.orderly).shifts 0⟩
  | notify site => exact ⟨0, (quiet_notify f site hs.orderly).shifts 0⟩
  | resign k =>
      refine ⟨k, shifts_move f k (fun c w => ({ c with candidacy := none }, w)) fun c w => ?_⟩
      exact ⟨rfl, Or.inl rfl, fun _ => .refl _⟩
  | stopTimer k => exact ⟨k, shifts_self f k (·.stopTimer) (fun _ => rfl) fun _ => rfl⟩
  | unlisten service member k =>
      exact ⟨0, shifts_services
        (grows_set (w := f.toSurroundings) (sameLines_unlisten _ member k).grows) 0⟩

/-! ## Runs -/

theorem sound_perform (hs : Sound f) (a : Action) : Sound (f.perform a) := by
  obtain ⟨k, h⟩ := shifts_perform hs a
  exact sound_shifts hs h

/-- **Every run keeps a fleet sound.** -/
theorem sound_run (hs : Sound f) (actions : List Action) : Sound (f.run actions) := by
  induction actions generalizing f with
  | nil => exact hs
  | cons a rest ih => exact ih (sound_perform hs a)

/-- Whoever holds a seat that was there before a run has held it all the time. -/
theorem holds_of_run (hs : Sound f) (actions : List Action) {k service n : Nat}
    (hn : n < (f.services.get service).members.length) (hk : (f.run actions).Holds k service n) :
    f.Holds k service n := by
  induction actions generalizing f with
  | nil => exact hk
  | cons a rest ih =>
      obtain ⟨j, h⟩ := shifts_perform hs a
      have hn' := Nat.lt_of_lt_of_le hn (h.grows service).length
      exact h.holds hn (ih (sound_shifts hs h) hn' hk)

/-! ## Passes -/

/-- The fleet after a run from nothing at all. -/
def after (actions : List Action) : Fleet := ({} : Fleet).run actions

/-- An action makes a controller run a pass of its own accord. -/
def Volunteers (f : Fleet) (a : Action) (k : Nat) : Prop :=
  a ≠ .reconcile k
    ∧ ((f.perform a).controller k).tally.passes ≠ (f.controller k).tally.passes

/-- The controller `k` stands for the member `n` of a service, which is open, started and
connected, and the master and first in line on the path of the controller. -/
structure Leads (f : Fleet) (k service n : Nat) (path : String) : Prop where
  seat : ∃ seat, (f.controller k).candidacy = some seat ∧ seat.service = service
    ∧ seat.elector.group = some n
  onPath : (f.controller k).settings.groupPath = path
  member : ∃ m, (f.services.get service).members[n]? = some m ∧ m.path = path
    ∧ m.started = true ∧ m.connected = true ∧ m.closed = false
    ∧ (f.services.get service).masterOf path = m.id
  first : ((f.services.get service).ranked path).head? = some n

theorem holds_iff {k service n : Nat} :
    f.Holds k service n ↔ ∃ seat, (f.controller k).candidacy = some seat
      ∧ seat.service = service ∧ seat.elector.group = some n := by
  simp [Holds, Controller.seat?]

/-- In a sound fleet, a controller whose member is the master leads. -/
theorem Sound.leads (hs : Sound f) {k : Nat} (h : (f.controller k).Leading f.toSurroundings) :
    ∃ service n, f.Leads k service n (f.controller k).settings.groupPath := by
  obtain ⟨service, n, hseat, hmaster⟩ := h
  obtain ⟨_, m, hn, hm, hpath⟩ := hs.seated k service (some n) hseat
  obtain rfl := Option.some.inj hn
  obtain ⟨path, hfirst⟩ := (hs.orderly service).isMaster_iff.mp hmaster
  obtain ⟨m', hm', hpath', hline⟩ := standsOn_iff.mp hfirst.1
  obtain rfl := Option.some.inj (hm.symm.trans hm')
  have hp : path = (f.controller k).settings.groupPath := hpath'.symm.trans hpath
  subst hp
  simp only [Member.inLine, Bool.and_eq_true, Bool.not_eq_true'] at hline
  refine ⟨service, n, holds_iff.mp hseat, rfl,
    ⟨m, hm, hpath, hline.1.1, hline.1.2, hline.2, ?_⟩, (hs.orderly service).head?_ranked.mpr hfirst⟩
  rw [(hs.orderly service).masterOf_of_first hfirst, idOf_of hm]

/-- Whoever runs a pass of its own accord leads, and the step leaves all lines alone. -/
theorem Sound.leads_of_volunteers (hs : Sound f) {a : Action} {k : Nat} (h : Volunteers f a k) :
    (∃ service n, f.Leads k service n (f.controller k).settings.groupPath)
      ∧ ∀ i path, ((f.perform a).services.get i).ranked path = (f.services.get i).ranked path := by
  obtain ⟨hunasked, hpass⟩ := h
  rcases perform_cases hs a with hq | ⟨j, rfl⟩ | hidle
  · exact ⟨hs.leads (hq.passes k hpass), fun i path => (hq.lines i).ranked path⟩
  · -- a pass that somebody else is asked for is no pass of `k`
    have hjk : k ≠ j := fun he => hunasked (by rw [he])
    refine absurd ?_ hpass
    rw [perform, reconcile, act_eq_move, controller_move_ne f j hjk]
  · exact absurd (hidle k) hpass

/-- The controller is inactive, or its member has no session or is not first in line. -/
def Sidelined (f : Fleet) (k : Nat) : Prop :=
  (f.controller k).candidacy = none ∨
  ∃ seat n m, (f.controller k).candidacy = some seat ∧ seat.elector.group = some n
    ∧ (f.services.get seat.service).members[n]? = some m
    ∧ (m.connected = false ∨ ((f.services.get seat.service).ranked m.path).head? ≠ some n)

theorem Leads.not_sidelined {k service n : Nat} {path : String} (h : f.Leads k service n path) :
    ¬ f.Sidelined k := by
  obtain ⟨seat, hseat, rfl, hn⟩ := h.seat
  obtain ⟨m, hm, hpath, _, hup, _⟩ := h.member
  rintro (hnone | ⟨seat', n', m', hseat', hn', hm', hout⟩)
  · exact absurd (hnone.symm.trans hseat) (by simp)
  · obtain rfl := Option.some.inj (hseat.symm.trans hseat')
    obtain rfl := Option.some.inj (hn.symm.trans hn')
    obtain rfl := Option.some.inj (hm.symm.trans hm')
    rcases hout with hdown | hnot
    · exact absurd (hup.symm.trans hdown) (by simp)
    · exact hnot (hpath ▸ h.first)

/--
**Only the master acts on its own.** In a fleet that any run has led to, consider
the passes that nobody asked for.

* Such a pass is run by a controller that leads: its member is the master and the
  first in line of its path. No line changes meanwhile, so this is so at the look
  at the group as well as before and after the step.
* Two such passes, at the same time or at different times, whose controllers lead
  on the same path of a service with the same line, are run by one controller.
* A controller that is inactive, or whose member has lost its session or is not
  the first in line, runs no such pass.
-/
theorem only_the_master_acts (actions : List Action) :
    (∀ a k, (after actions).Volunteers a k →
      (∃ service n,
        (after actions).Leads k service n ((after actions).controller k).settings.groupPath) ∧
      ∀ i path, (((after actions).perform a).services.get i).ranked path
        = ((after actions).services.get i).ranked path) ∧
    (∀ a k service n path (later : List Action) b j n',
      (after actions).Volunteers a k → (after actions).Leads k service n path →
      (after (actions ++ later)).Volunteers b j →
      (after (actions ++ later)).Leads j service n' path →
      ((after (actions ++ later)).services.get service).ranked path
        = ((after actions).services.get service).ranked path →
      j = k) ∧
    (∀ a k, (after actions).Sidelined k → ¬ (after actions).Volunteers a k) := by
  have hs : Sound (after actions) := sound_run sound_empty actions
  refine ⟨fun a k h => hs.leads_of_volunteers h, ?_, ?_⟩
  · intro a k service n path later b j n' _ hk _ hj hsame
    have hn : n' = n := by
      have h := hj.first
      rw [hsame, hk.first] at h
      exact (Option.some.inj h).symm
    subst hn
    have hheld := holds_iff.mpr hk.seat
    have hheld' := holds_iff.mpr hj.seat
    rw [after, run_append] at hheld'
    -- the later holder has held the seat since the first of the two passes
    exact hs.sole j k service n' (holds_of_run hs _ (hs.lt_length hheld) hheld') hheld
  · intro a k hside h
    obtain ⟨⟨service, n, hl⟩, _⟩ := hs.leads_of_volunteers h
    exact hl.not_sidelined hside

/-- Two controllers of one group have been activated and have heard of it. -/
def pairUp : List Action :=
  [.add {}, .add {}, .bindCoordination 0 (some 0), .bindCoordination 1 (some 0),
    .bindCluster 0 (some 0), .bindCluster 1 (some 0), .activate 0, .activate 1,
    .deliver 0 0, .deliver 0 1]

/-- The first of the two acts when its timer ticks, and the second one does not. -/
theorem first_of_pair_acts :
    (after pairUp).Volunteers (.tick 0) 0 ∧
    (∃ service n,
      (after pairUp).Leads 0 service n ((after pairUp).controller 0).settings.groupPath) ∧
    (after pairUp).Sidelined 1 ∧ ¬ (after pairUp).Volunteers (.tick 1) 1 := by
  have hacts : (after pairUp).Volunteers (.tick 0) 0 := ⟨by simp, by decide⟩
  have hwaits : (after pairUp).Sidelined 1 := by
    refine Or.inr ⟨_, 1, _, rfl, rfl, rfl, Or.inr fun hhead => ?_⟩
    have hfirst : First ((after pairUp).services.get 0) "/autoscale/controllers" 1 :=
      ((sound_run sound_empty pairUp).orderly 0).head?_ranked.mp hhead
    -- the first member has the earlier place
    exact absurd (hfirst.2 0 (by decide)) (by decide)
  obtain ⟨hleads, _, hsidelined⟩ := only_the_master_acts pairUp
  exact ⟨hacts, (hleads _ _ hacts).1, hwaits, hsidelined _ _ hwaits⟩

end FleetScaler.Fleet
