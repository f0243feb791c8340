import FleetScaler.Pass.Collaborators
import FleetScaler.Pass.Report

/-!
# The pass

One pass compares, profile by profile in the order of the document, the minimum with the countable
instances, and asks the autoscaler for the difference. Three rules give it its shape.

* The inventory is asked about a profile until it answers once. That answer serves the profile's
  own count and every dependency check of the same pass.
* A profile may grow only when each of its dependencies that has a minimum has reached it; the
  first one that has not is named in the verdict.
* A collaborator that fails spoils the verdict on the profile at hand and nothing else.

Counts are 32-bit numbers: the number of instances is cut to 32 bits before it is compared, told or
subtracted, and a difference wraps around.
-/

namespace FleetScaler

/-- The 32-bit number that a whole number wraps around to. -/
def wrap32 (i : Int) : Int := (BitVec.ofInt 32 i).toInt

/-- The number of entries of a list, cut to 32 bits. -/
def count32 {β : Type} (l : List β) : Int := wrap32 l.length

/-- The source that a pass names in its log records. -/
def passSource : String := "reconcile"

/-- What a pass carries from profile to profile. -/
structure PassState (σ : Type) where
  /-- The state of the collaborators. -/
  world : σ
  /-- A copy of the document, which dependency checks extend by what they look up. -/
  lookup : Document
  /-- The countable instances of each profile about which the inventory has answered. -/
  answers : List (String × List Instance) := []

namespace Pass

variable {σ α : Type}

/-- Writes a log record of the pass. -/
def note (c : Collaborators σ α) (level : Log.Level) (message : String)
    (context : List (String × String)) (s : PassState σ) : PassState σ :=
  { s with world := c.note { level, source := passSource, message, context } s.world }

/-- A truth value in a log message. -/
def flag (b : Bool) : String := if b then "1" else "0"

/-- Writes a log record about each of the instances. -/
def noteInstances (c : Collaborators σ α) (instances : List Instance) (s : PassState σ) :
    PassState σ :=
  instances.foldl (fun s i =>
    note c .trace ("instance " ++ i.id ++ " alive=" ++ flag i.alive ++
      " provisioning_pending=" ++ flag i.pending) [] s) s

/-- The countable instances of a profile, from the one answer that serves the whole pass. -/
def countable (c : Collaborators σ α) (profile : String) (s : PassState σ) :
    Except Failure (List Instance) × PassState σ :=
  match s.answers.lookup profile with
  | some instances => (.ok instances, s)
  | none =>
    match c.instances profile s.world with
    | (.error e, world) => (.error e, { s with world })
    | (.ok all, world) =>
      let instances := all.filter Instance.isCountable
      let s := noteInstances c instances { s with world }
      (.ok instances, { s with answers := (profile, instances) :: s.answers })

/-- The first of the dependencies that has a minimum and has not reached it. -/
def blocking? (c : Collaborators σ α) (profile : String) :
    List String → PassState σ → Except Failure (Option String) × PassState σ
  | [], s => (.ok none, s)
  | dependency :: rest, s =>
    let (requirement, lookup) := s.lookup.getOrCreate dependency
    let s := { s with lookup }
    match requirement.minimum with
    | none => blocking? c profile rest s
    | some minimum =>
      match countable c dependency s with
      | (.error e, s) => (.error e, s)
      | (.ok instances, s) =>
        let available := count32 instances
        if available < minimum then
          (.ok (some dependency), note c .info
            ("cannot yet scale up " ++ profile ++ " since dependent profile " ++ dependency ++
              " has only " ++ toString available ++ " instance(s) when it requires " ++
              toString minimum)
            [("profile", profile), ("dependency", dependency)] s)
        else blocking? c profile rest s

/-- Gives up on a profile. -/
def giveUp (c : Collaborators σ α) (v : Verdict) (e : Failure) (s : PassState σ) :
    Verdict × PassState σ :=
  ({ v with outcome := .failed, error := e.message },
    note c .error ("failed to auto-scale " ++ v.profile ++ ": " ++ e.message)
      [("profile", v.profile)] s)

/-- The counts behind a scale command, for its log record. -/
def counts (v : Verdict) : String :=
  "(" ++ toString v.observed ++ " running, " ++ toString v.desired ++ " required)"

/-- Stops the instances that are too many. -/
def shrink (c : Collaborators σ α) (autoscaler : α) (v : Verdict) (instances : List Instance)
    (s : PassState σ) : Verdict × PassState σ :=
  let count := wrap32 (-v.delta)
  let s := note c .info ("scaling down " ++ v.profile ++ " by " ++ toString count ++ " " ++
    counts v) [] s
  match c.destroy autoscaler { profile := v.profile, count, candidates := instances } s.world with
  | (.error e, world) => giveUp c v e { s with world }
  | (.ok _, world) => ({ v with outcome := .scaledDown }, { s with world })

/-- Starts the instances that are missing, unless a dependency has to come up first. -/
def grow (c : Collaborators σ α) (document : Document) (requirement : Requirement)
    (autoscaler : α) (v : Verdict) (s : PassState σ) : Verdict × PassState σ :=
  match blocking? c v.profile requirement.dependencies s with
  | (.error e, s) => giveUp c v e s
  | (.ok (some dependency), s) => ({ v with outcome := .gated, blocking := dependency }, s)
  | (.ok none, s) =>
    match c.version s.world with
    | (.error e, world) => giveUp c v e { s with world }
    | (.ok version, world) =>
      let s := note c .info ("scaling up " ++ v.profile ++ " by " ++ toString v.delta ++
        " at version " ++ version ++ " " ++ counts v) [] { s with world }
      let request : ScaleUp :=
        { version, profile := v.profile, count := v.delta, requirements := document, requirement }
      match c.create autoscaler request s.world with
      | (.error e, world) => giveUp c v e { s with world }
      | (.ok _, world) => ({ v with outcome := .scaledUp }, { s with world })

/-- Compares the instances of a profile with its minimum and acts on the difference. -/
def compareAndAct (c : Collaborators σ α) (document : Document) (requirement : Requirement)
    (desired : Int) (autoscaler : α) (s : PassState σ) : Verdict × PassState σ :=
  let v : Verdict := { profile := requirement.profile, desired }
  match countable c requirement.profile s with
  | (.error e, s) => giveUp c v e s
  | (.ok instances, s) =>
    let observed := count32 instances
    let v := { v with observed, delta := wrap32 (desired - observed) }
    if v.delta < 0 then shrink c autoscaler v instances s
    else if 0 < v.delta then grow c document requirement autoscaler v s
    else ({ v with outcome := .satisfied }, s)

/-- The verdict on one requirement of the document. -/
def judge (c : Collaborators σ α) (document : Document) (requirement : Requirement)
    (s : PassState σ) : Verdict × PassState σ :=
  match requirement.minimum with
  | none => ({ profile := requirement.profile }, s)
  | some desired =>
    let v : Verdict := { profile := requirement.profile, desired }
    match c.offer document requirement s.world with
    | (.error e, world) => giveUp c v e { s with world }
    | (.ok none, world) =>
      ({ v with outcome := .noAutoscaler },
        note c .warn ("no autoscaler available for profile " ++ v.profile) [] { s with world })
    | (.ok (some autoscaler), world) =>
      compareAndAct c document requirement desired autoscaler { s with world }

/-- The verdicts on a list of requirements, one after the other. -/
def judgeAll (c : Collaborators σ α) (document : Document) :
    List Requirement → PassState σ → List Verdict × PassState σ
  | [], s => ([], s)
  | requirement :: rest, s =>
    let (v, s) := judge c document requirement s
    let (vs, s) := judgeAll c document rest s
    (v :: vs, s)

/-- Runs a pass over a document. -/
def run (c : Collaborators σ α) (document : Document) (world : σ) : Report × σ :=
  let (verdicts, s) := judgeAll c document document.requirements { world, lookup := document }
  let report : Report := { verdicts }
  let s := note c .debug ("pass complete: " ++ report.summary 0) [] s
  (report, s.world)

/-- The first dependency of a requirement that holds back its growth, checked on its own. -/
def gate (c : Collaborators σ α) (document : Document) (requirement : Requirement) (world : σ) :
    Except Failure (Option String) × σ :=
  let (answer, s) :=
    blocking? c requirement.profile requirement.dependencies { world, lookup := document }
  (answer, s.world)

/-- Whether no dependency of a requirement holds back its growth. The first one that does replaces
the name that the caller keeps, if the caller keeps one. -/
def satisfied (c : Collaborators σ α) (document : Document) (requirement : Requirement)
    (kept : Option String) (world : σ) : Except Failure (Bool × Option String) × σ :=
  match gate c document requirement world with
  | (.error e, world) => (.error e, world)
  | (.ok none, world) => (.ok (true, kept), world)
  | (.ok (some dependency), world) => (.ok (false, kept.map fun _ => dependency), world)

end Pass

end FleetScaler
