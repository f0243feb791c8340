import FleetScaler.Pass.Basic

/-!
# The simulated cluster

A cluster in memory. Instances that are asked for are pending until the cluster settles; dead ones
stay in sight until then, too. Each instance gets a sequence number, and its id is made of the
profile and that number. When instances are stopped, those that are not alive go first and then the
newest, whatever the candidates say about them.
-/

namespace FleetScaler

/-- The source that a cluster names in its log records. -/
def clusterSource : String := "cluster"

/-- An instance of a cluster with its place in the order of creation. -/
structure Placement extends Instance where
  sequence : Nat
  deriving DecidableEq, Repr

/-- The instances of a cluster, and what it offers. -/
structure Cluster where
  /-- The instances, oldest first. -/
  placements : List Placement := []
  /-- The number that the next instance gets. -/
  nextSequence : Nat := 0
  /-- Profiles for which no autoscaler is offered. -/
  unscalable : List String := []
  /-- The version that new instances run. -/
  version : String := "1.0"
  journal : Log.Journal := []
  deriving Repr

namespace Placement

/-- The instance that is created under the given number. -/
def create (profile : String) (alive pending : Bool) (sequence : Nat) : Placement :=
  { id := profile ++ "-" ++ toString sequence, profile, alive, pending, sequence }

/-- The instance after its death. -/
def killed (p : Placement) : Placement :=
  { p with alive := false, pending := false }

/-- The instance after the cluster has settled. -/
def settled (p : Placement) : Placement :=
  if p.pending then { p with alive := true, pending := false } else p

/-- The first instance is to be stopped before the second, or they are the same. -/
def goesFirst (p q : Placement) : Bool :=
  if p.alive = q.alive then q.sequence ≤ p.sequence else !p.alive

end Placement

namespace Cluster

/-! ## What can be seen -/

/-- The instances of the cluster, oldest first. -/
def instances (c : Cluster) : List Instance := c.placements.map Placement.toInstance

/-- The instances of a profile, oldest first. -/
def instancesOf (c : Cluster) (profile : String) : List Instance :=
  c.instances.filter fun i => i.profile = profile

/-- The number of countable instances of a profile. -/
def countableCount (c : Cluster) (profile : String) : Nat :=
  c.instances.countP fun i => i.profile = profile && i.isCountable

/-- The cluster can start and stop instances of the profile. -/
def scales (c : Cluster) (profile : String) : Bool := profile ∉ c.unscalable

/-! ## What happens to it -/

/-- Adds an instance and gives its id. -/
def add (c : Cluster) (profile : String) (alive pending : Bool) : String × Cluster :=
  let p := Placement.create profile alive pending c.nextSequence
  (p.id,
    { c with placements := c.placements ++ [p], nextSequence := c.nextSequence + 1 })

/-- Applies a function to the first placement of the given id. -/
def onFirst (f : Placement → Placement) (id : String) : List Placement → List Placement
  | [] => []
  | p :: rest => if p.id = id then f p :: rest else p :: onFirst f id rest

/-- Kills an instance; false if there is none of that id. -/
def kill (c : Cluster) (id : String) : Bool × Cluster :=
  (c.placements.any (fun p => p.id = id),
    { c with placements := onFirst Placement.killed id c.placements })

/-- Brings up what is pending and removes what is dead; gives the number that came up. -/
def settle (c : Cluster) : Nat × Cluster :=
  (c.placements.countP (·.pending),
    { c with placements :=
        (c.placements.map Placement.settled).filter (·.isCountable) })

/-- Offers an autoscaler for a profile, or no longer. -/
def setUnscalable (c : Cluster) (profile : String) (unscalable : Bool) : Cluster :=
  let others := c.unscalable.filter (· ≠ profile)
  { c with unscalable := if unscalable then profile :: others else others }

/-- Sets the version that new instances run. -/
def setVersion (c : Cluster) (version : String) : Cluster := { c with version }

/-! ## Scaling -/

/-- The instances that a request starts, the first under the given number. -/
def started (request : ScaleUp) (first : Nat) : List Placement :=
  (List.range request.count.toNat).map fun k =>
    Placement.create request.profile false true (first + k)

/-- Starts as many instances as are asked for; none for a count that is not positive. -/
def provision (c : Cluster) (request : ScaleUp) : Cluster :=
  let new := started request c.nextSequence
  { c with
    placements := c.placements ++ new
    nextSequence := c.nextSequence + new.length
    journal := new.foldl (fun journal p => journal.add .info clusterSource
      ("provisioning " ++ p.id ++ " at version " ++ request.version)) c.journal }

/-- The instances of a profile that candidates name, in the order of the candidates. -/
def named (c : Cluster) (profile : String) (candidates : List Instance) : List Placement :=
  candidates.flatMap fun candidate =>
    c.placements.filter fun p => p.id = candidate.id && p.profile = profile

/-- The instances that a request names, in the order in which they are to be stopped. -/
def order (c : Cluster) (request : ScaleDown) : List Placement :=
  (c.named request.profile request.candidates).mergeSort Placement.goesFirst

/-- The first of some instances, as many as the count says, or all if they are not more than that.
How many there are is a 32-bit number; a list that is too long cannot be cut to a negative count. -/
def cut (count : Int) (order : List Placement) : Except Failure (List Placement) :=
  if count < count32 order then
    if count < 0 then .error .negativeCount else .ok (order.take count.toNat)
  else .ok order

/-- The instances that a request stops, in the order in which they are stopped. -/
def victims (c : Cluster) (request : ScaleDown) : Except Failure (List Placement) :=
  cut request.count (c.order request)

/-- The cluster without some of its instances, which are known by their ids. -/
def stop (c : Cluster) (victims : List Placement) : Cluster :=
  let doomed := victims.map (·.id)
  { c with
    placements := c.placements.filter fun p => p.id ∉ doomed
    journal := victims.foldl (fun journal p => journal.add .info clusterSource
      ("stopping " ++ p.id)) c.journal }

/-- Stops as many of the candidates as are asked for. -/
def decommission (c : Cluster) (request : ScaleDown) : Except Failure Cluster :=
  (c.victims request).map c.stop

/-! ## Autoscalers

An autoscaler knows its cluster only by name: it may outlive the cluster, and then it fails. -/

/-- Starts instances through an autoscaler of a cluster that may be gone. -/
def provisionThrough (cluster : Option Cluster) (request : ScaleUp) : Except Failure Cluster :=
  match cluster with
  | none => .error .clusterGone
  | some c => .ok (c.provision request)

/-- Stops instances through an autoscaler of a cluster that may be gone. -/
def decommissionThrough (cluster : Option Cluster) (request : ScaleDown) :
    Except Failure Cluster :=
  match cluster with
  | none => .error .clusterGone
  | some c => c.decommission request

/-! ## The cluster as collaborator of a pass -/

/-- The cluster as inventory, factory, version source and autoscaler. -/
def collaborators : Collaborators Cluster Unit where
  offer _ requirement c := (.ok (if c.scales requirement.profile then some () else none), c)
  instances profile c := (.ok (c.instancesOf profile), c)
  version c := (.ok c.version, c)
  create _ request c := (.ok (), c.provision request)
  destroy _ request c :=
    match c.decommission request with
    | .ok c' => (.ok (), c')
    | .error e => (.error e, c)
  note record c := { c with journal := record :: c.journal }

/-- One pass of a document over the cluster. -/
def pass (c : Cluster) (document : Document) : Report × Cluster :=
  Pass.run collaborators document c

end Cluster

end FleetScaler
