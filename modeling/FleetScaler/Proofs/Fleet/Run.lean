import FleetScaler.Fleet.Delivery
import FleetScaler.Proofs.Controller.Seats

/-!
# Runs of a fleet

An `Action` is anything that can happen to a fleet in one step, and a run is a list of them. Apart
from what a fleet does as a whole there are the parts of a deactivation, which other things may
come between, and calls on a coordination service by parties that are no controllers.
-/

namespace FleetScaler

theorem Table.get_of_size_le {α : Type} [Inhabited α] {t : Table α} {i : Nat} (h : t.size ≤ i) :
    t.get i = default := by
  rw [get, List.getD_eq_getElem?_getD, List.getElem?_eq_none h]
  rfl

theorem Table.length_updateList {α : Type} [Inhabited α] (f : α → α) (i : Nat) (as : List α) :
    (updateList f i as).length = max as.length (i + 1) := by
  induction i generalizing as with
  | zero => cases as <;> simp [updateList]
  | succ i ih => cases as <;> simp [updateList, ih]

theorem Table.size_set {α : Type} [Inhabited α] (t : Table α) (i : Nat) (a : α) :
    (t.set i a).size = max t.size (i + 1) := length_updateList _ _ _

/-- Something that happens in a fleet. -/
inductive Action where
  | add (settings : Settings)
  | bindCoordination (k : Nat) (service : Option Nat)
  | unbindCoordination (k : Nat) (service : Option Nat)
  | bindCluster (k : Nat) (site : Option Nat)
  | unbindCluster (k : Nat) (site : Option Nat)
  | activate (k : Nat)
  | deactivate (k : Nat)
  | drop (k : Nat)
  /-- Somebody asks a controller for a pass. -/
  | reconcile (k : Nat)
  | event (k : Nat) (event : MembershipEvent)
  | tick (k : Nat)
  | call (k : Nat)
  /-- A session is lost or comes back, or somebody else comes, starts or goes. -/
  | request (service : Nat) (r : Request)
  | changeSite (site : Nat) (g : Site Nat → Site Nat)
  | deliver (service member : Nat)
  | notify (site : Nat)
  /-- A controller parts with its elector. -/
  | resign (k : Nat)
  /-- A controller's timer is stopped. -/
  | stopTimer (k : Nat)
  /-- A controller no longer listens to a member. -/
  | unlisten (service member k : Nat)

namespace Fleet

/-- A call on a coordination service. -/
def request (f : Fleet) (service : Nat) (r : Request) : Fleet :=
  { f with services := f.services.set service ((f.services.get service).serve r) }

/-- The fleet after an action. -/
def perform (f : Fleet) : Action → Fleet
  | .add settings => (f.add settings).2
  | .bindCoordination k service => f.bindCoordination k service
  | .unbindCoordination k service => f.unbindCoordination k service
  | .bindCluster k site => f.bindCluster k site
  | .unbindCluster k site => f.unbindCluster k site
  | .activate k => (f.activate k).2
  | .deactivate k => f.deactivate k
  | .drop k => f.drop k
  | .reconcile k => (f.reconcile k).2
  | .event k e => (f.membershipEvent k e).2
  | .tick k => f.tick k
  | .call k => f.call k
  | .request service r => f.request service r
  | .changeSite site g => f.changeSite site g
  | .deliver service member => f.deliver service member
  | .notify site => f.notify site
  | .resign k => f.move k fun c w => ({ c with candidacy := none }, w)
  | .stopTimer k => f.move k fun c w => (c.stopTimer, w)
  | .unlisten service member k =>
    { f with services := f.services.set service ((f.services.get service).unlisten member k) }

/-- The fleet after some actions, one after the other. -/
def run (f : Fleet) (actions : List Action) : Fleet := actions.foldl perform f

@[simp] theorem run_nil (f : Fleet) : f.run [] = f := rfl

@[simp] theorem run_cons (f : Fleet) (a : Action) (rest : List Action) :
    f.run (a :: rest) = (f.perform a).run rest := rfl

theorem run_append (f : Fleet) (first second : List Action) :
    f.run (first ++ second) = (f.run first).run second := List.foldl_append

/-! ## Sessions and requirements

What is done to a fleet from outside is a call on a service, or a change to a site. -/

theorem disconnect_eq_perform (f : Fleet) (service : Nat) (id : String) :
    (f.disconnect service id).2 = f.perform (.request service (.disconnect id)) := rfl

theorem reconnect_eq_perform (f : Fleet) (service : Nat) (id : String) :
    (f.reconnect service id).2 = f.perform (.request service (.reconnect id)) := rfl

theorem setRequirements_eq_perform (f : Fleet) (site : Nat) (document : Document) :
    f.setRequirements site document
      = f.perform (.changeSite site (Site.onStore fun store => store.set document)) := rfl

/-! ## Reading a fleet after a move -/

variable (f : Fleet) (k : Nat)

@[simp] theorem handle_controller : (f.controller k).handle = k := rfl

theorem controller_move_self (g : Controller → Surroundings → Controller × Surroundings) :
    (f.move k g).controller k = { (g (f.controller k) f.toSurroundings).1 with handle := k } := by
  simp [controller, move]

theorem controller_move_ne {j : Nat} (hj : j ≠ k)
    (g : Controller → Surroundings → Controller × Surroundings) :
    (f.move k g).controller j = f.controller j := by
  simp [controller, move, Table.get_set_ne _ _ hj]

theorem toSurroundings_move (g : Controller → Surroundings → Controller × Surroundings) :
    (f.move k g).toSurroundings = (g (f.controller k) f.toSurroundings).2 := rfl

/-- For the fleet it is all the same whether something comes of an action for whoever asked. -/
theorem act_eq_move {α : Type} (g : Controller → Surroundings → α × Controller × Surroundings) :
    (f.act k g).2 = f.move k fun c w => (g c w).2 := rfl

theorem controller_add_self (settings : Settings) :
    (f.add settings).2.controller f.controllers.size
      = { settings, handle := f.controllers.size } := by
  simp [controller, add]

theorem controller_add_ne {j : Nat} (hj : j ≠ f.controllers.size) (settings : Settings) :
    (f.add settings).2.controller j = f.controller j := by
  simp [controller, add, Table.get_set_ne _ _ hj]

/-- A number that was never given belongs to a controller that has done nothing. -/
theorem controller_of_size_le {k : Nat} (h : f.controllers.size ≤ k) :
    f.controller k = { handle := k } := by
  rw [controller, Table.get_of_size_le h]
  rfl

/-! ## A deactivation in parts -/

/-- The parts of a deactivation, in their order: the controller parts with its elector, which leaves
the group, the timer stops, and the site that is bound no longer calls the controller. -/
def partsOfDeactivation (c : Controller) (k service n : Nat) : List Action :=
  [.resign k, .unlisten service n k, .request service (.close n), .stopTimer k] ++
    c.cluster.value.toList.map fun site => .changeSite site (Site.untrack c.callback)

/-- **A deactivation is its parts**, up to log records and what the controller says of itself. -/
theorem deactivate_in_parts {seat : Candidacy} {n : Nat}
    (hs : (f.controller k).candidacy = some seat) (hn : seat.elector.group = some n) :
    let g := f.run (partsOfDeactivation (f.controller k) k seat.service n)
    (∃ journal, (f.deactivate k).controller k
        = { g.controller k with state := .unknown, journal := journal }) ∧
    (∀ j, j ≠ k → (f.deactivate k).controller j = g.controller j) ∧
    (∀ i, (f.deactivate k).services.get i = g.services.get i) ∧
    (∀ i, (f.deactivate k).sites.get i = g.sites.get i) := by
  -- both ways come to the same controllers, services and sites, one after the other
  obtain ⟨journal, hwhole⟩ := Controller.deactivate_eq (f.controller k) f.toSurroundings
  intro g
  -- the change of the site touches nothing but the site
  have hg : g = { (f.run [.resign k, .unlisten seat.service n k, .request seat.service (.close n),
      .stopTimer k]) with sites := ((f.controller k).untracked f.toSurroundings).sites } := by
    simp only [g, partsOfDeactivation, Controller.untracked]
    cases (f.controller k).cluster.value <;> rfl
  refine ⟨⟨journal, ?_⟩, ?_, ?_, ?_⟩
  · rw [deactivate, controller_move_self, hwhole, hg]
    simp [perform, request, controller, move, Controller.stopTimer]
  · intro j hj
    rw [deactivate, controller_move_ne f k hj, hg]
    simp [perform, request, controller, move, Table.get_set_ne _ _ hj]
  · intro i
    rw [deactivate, toSurroundings_move, hwhole, hg]
    rw [Controller.services_untracked, Controller.services_leave hs hn]
    by_cases hi : i = seat.service
    · subst hi
      simp [perform, request, move, Coordination.serve]
    · simp [perform, request, move, Table.get_set_ne _ _ hi]
  · intro i
    rw [deactivate, toSurroundings_move, hwhole, hg]
    simp only [Controller.untracked]
    cases (f.controller k).cluster.value with
    | none => rw [Controller.sites_leave]
    | some site => simp [Surroundings.onSite]

end Fleet

end FleetScaler
