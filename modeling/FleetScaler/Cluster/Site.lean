import FleetScaler.Cluster.Basic
import FleetScaler.Store

/-!
# Sites

A site is a cluster together with the requirements store that rules it. For drills, the store or
the inventory of single profiles can be taken offline; what is offline fails when it is asked. The
site also remembers which callback was tracked last, so that a drill can call it out of turn.
-/

namespace FleetScaler

/-- What is offline at a site. -/
structure Outage where
  requirements : Bool := false
  /-- Profiles about which the inventory does not answer. -/
  inventory : List String := []
  deriving DecidableEq, Repr

/-- A cluster and its requirements store, with callbacks of type `κ`. -/
structure Site (κ : Type) where
  cluster : Cluster := {}
  store : Store κ := {}
  outage : Outage := {}
  /-- The callback that was tracked last, whether or not it is still tracked. -/
  lastTracked : Option κ := none
  deriving Repr

instance {κ : Type} : Inhabited (Site κ) := ⟨{}⟩

namespace Site

variable {κ : Type}

/-- A site over a store, which it cannot do without. -/
def create (store : Option (Store κ)) (version : String := "1.0") : Except Failure (Site κ) :=
  match store with
  | none => .error .noStore
  | some store => .ok { cluster := { version }, store }

/-- The requirements in force. -/
def requirements (s : Site κ) : Except Failure Document :=
  if s.outage.requirements then .error (.collaborator "requirements store offline")
  else .ok s.store.document

/-- The instances of a profile. -/
def instancesOf (s : Site κ) (profile : String) : Except Failure (List Instance) :=
  if profile ∈ s.outage.inventory then
    .error (.collaborator ("inventory unavailable for " ++ profile))
  else .ok (s.cluster.instancesOf profile)

/-- Takes the requirements offline, or online again. -/
def failRequirements (s : Site κ) (offline : Bool) : Site κ :=
  { s with outage := { s.outage with requirements := offline } }

/-- Takes the inventory of a profile offline, or online again. -/
def failInventory (s : Site κ) (profile : String) (offline : Bool) : Site κ :=
  let others := s.outage.inventory.filter (· ≠ profile)
  let inventory := if offline then profile :: others else others
  { s with outage := { s.outage with inventory } }

/-- The site as collaborator of a pass: its cluster, but with an inventory that may be offline. -/
def collaborators : Collaborators (Site κ) Unit where
  offer document requirement s :=
    let (answer, cluster) := Cluster.collaborators.offer document requirement s.cluster
    (answer, { s with cluster })
  instances profile s := (s.instancesOf profile, s)
  version s := (.ok s.cluster.version, s)
  create autoscaler request s :=
    let (answer, cluster) := Cluster.collaborators.create autoscaler request s.cluster
    (answer, { s with cluster })
  destroy autoscaler request s :=
    let (answer, cluster) := Cluster.collaborators.destroy autoscaler request s.cluster
    (answer, { s with cluster })
  note record s := { s with cluster := Cluster.collaborators.note record s.cluster }

/-- One pass of a document over the site. -/
def pass (s : Site κ) (document : Document) : Report × Site κ :=
  Pass.run collaborators document s

/-! ## Changes to a site -/

/-- Applies a change to the cluster. -/
def onCluster (f : Cluster → Cluster) (s : Site κ) : Site κ := { s with cluster := f s.cluster }

/-- Applies a change to the store. -/
def onStore (f : Store κ → Store κ) (s : Site κ) : Site κ := { s with store := f s.store }

/-- Has a callback called after every change of the requirements. -/
def track [DecidableEq κ] (callback : Option κ) (s : Site κ) : Site κ :=
  { s with store := s.store.track callback, lastTracked := callback <|> s.lastTracked }

/-- Has a callback called no longer. -/
def untrack [DecidableEq κ] (callback : Option κ) (s : Site κ) : Site κ :=
  { s with store := s.store.untrack callback }

end Site

end FleetScaler
