import FleetScaler.Proofs.Cluster.Census
import FleetScaler.Proofs.Pass.Recorded

/-!
# The books of a cluster

A cluster gives each instance the next number, and an id that ends in it. Whatever happens to the
cluster, the ids that it has given are as many as the numbers that are gone, each with a number of
its own, and its instances bear them. `Gives` says so of anything that happens, one thing or many,
a pass included: what a pass gives is told by its calls.

So the death of an instance by its id concerns one instance or none, and settling, which goes by
what the instances are and not by their ids, leaves all that counts.
-/

namespace FleetScaler

/-- The instance, up and no longer pending. -/
def Placement.up (p : Placement) : Placement := { p with alive := true, pending := false }

namespace Cluster

variable {c c' c'' : Cluster}

/-! ## The ids that are given -/

/-- The ids that are given to the instances that some calls start, if the first gets a number. -/
def idsStarted (first : Nat) : List Call → List String
  | [] => []
  | .create request _ :: rest =>
    let new := (started request first).map (·.id)
    new ++ idsStarted (first + new.length) rest
  | _ :: rest => idsStarted first rest

/-- The ids that a change gives, the first one first. -/
def given (c : Cluster) : Change → List String
  | .add profile alive pending => [(c.add profile alive pending).1]
  | .provision request => (started request c.nextSequence).map (·.id)
  | .pass document => idsStarted c.nextSequence (Pass.callsOf collaborators document c)
  | .kill _ | .settle | .setUnscalable _ _ | .setVersion _ | .decommission _ => []

/-- All the ids that some changes give, the first one first. -/
def issued (c : Cluster) : List Change → List String
  | [] => []
  | x :: rest => c.given x ++ (c.perform x).issued rest

/-- What happened to a cluster has given some ids. -/
structure Gives (c c' : Cluster) (ids : List String) : Prop where
  next : c'.nextSequence = c.nextSequence + ids.length
  numbered : ∀ (i : Nat) (id : String), ids[i]? = some id →
    ∃ profile, id = profile ++ "-" ++ toString (c.nextSequence + i)
  /-- The instances are of the old ones or bear one of the ids. -/
  known : ∀ p ∈ c'.placements, p.id ∈ c.placements.map (·.id) ∨ p.id ∈ ids

theorem Gives.trans {ids ids' : List String} (h : c.Gives c' ids) (h' : c'.Gives c'' ids') :
    c.Gives c'' (ids ++ ids') where
  next := by rw [h'.next, h.next, List.length_append, Nat.add_assoc]
  numbered i id hid := by
    rw [List.getElem?_append] at hid
    split at hid
    · exact h.numbered i id hid
    · obtain ⟨profile, hprofile⟩ := h'.numbered _ id hid
      refine ⟨profile, ?_⟩
      rw [hprofile, h.next]
      congr 2
      omega
  known p hp := by
    rcases h'.known p hp with hold | hnew
    · obtain ⟨q, hq, heq⟩ := List.mem_map.mp hold
      rw [← heq]
      exact (h.known q hq).imp_right (List.mem_append_left _)
    · exact .inr (List.mem_append_right _ hnew)

/-- Nothing is given where the instances are all of the old ones. -/
theorem gives_nothing (hn : c'.nextSequence = c.nextSequence)
    (hp : ∀ p ∈ c'.placements, p.id ∈ c.placements.map (·.id)) : c.Gives c' [] where
  next := hn
  numbered i id hid := absurd hid (by simp)
  known p hmem := .inl (hp p hmem)

theorem Gives.refl (c : Cluster) : c.Gives c [] :=
  gives_nothing rfl fun _ => List.mem_map_of_mem

theorem gives_of_sublist (hn : c'.nextSequence = c.nextSequence)
    (hs : (c'.placements.map Placement.tag).Sublist (c.placements.map Placement.tag)) :
    c.Gives c' [] := by
  refine gives_nothing hn fun p hp => ?_
  obtain ⟨q, hq, htag⟩ := List.mem_map.mp (hs.subset (List.mem_map_of_mem hp))
  exact List.mem_map.mpr ⟨q, hq, congrArg Prod.fst htag⟩

/-- Instances that are new get the next ids. -/
theorem gives_append {profile : String} {alive pending : Bool} {n : Nat}
    (hp : c'.placements = c.placements ++ (List.range n).map fun k =>
      Placement.create profile alive pending (c.nextSequence + k))
    (hn : c'.nextSequence = c.nextSequence + n) :
    c.Gives c' (((List.range n).map fun k =>
      Placement.create profile alive pending (c.nextSequence + k)).map (·.id)) where
  next := by simp [hn]
  numbered i id hid := by
    simp only [List.map_map, List.getElem?_map, Option.map_eq_some_iff] at hid
    obtain ⟨k, hk, rfl⟩ := hid
    obtain ⟨-, rfl⟩ := List.getElem?_eq_some_iff.mp hk
    exact ⟨profile, by simp [Placement.create]⟩
  known p hmem := by
    rw [hp, List.mem_append] at hmem
    exact hmem.imp List.mem_map_of_mem List.mem_map_of_mem

theorem gives_add (c : Cluster) (profile : String) (alive pending : Bool) :
    c.Gives (c.add profile alive pending).2 [(c.add profile alive pending).1] :=
  gives_append (n := 1) rfl rfl

theorem gives_provision (c : Cluster) (request : ScaleUp) :
    c.Gives (c.provision request) ((started request c.nextSequence).map (·.id)) :=
  gives_append rfl (by simp [provision, started])

theorem gives_destroy (c : Cluster) (request : ScaleDown) :
    c.Gives (collaborators.destroy () request c).2 [] := by
  rcases destroy_cases c request with ⟨heq, -⟩ | ⟨victims, heq, -⟩
  · rw [heq]
    exact .refl c
  · rw [heq]
    exact gives_of_sublist rfl (List.filter_sublist.map Placement.tag)

/-! ### What a pass gives -/

theorem idsStarted_append (first : Nat) (calls later : List Call) :
    idsStarted first (calls ++ later)
      = idsStarted first calls ++ idsStarted (first + (idsStarted first calls).length) later := by
  induction calls generalizing first with
  | nil => rfl
  | cons call rest ih =>
      cases call with
      | create request answer =>
          simp only [List.cons_append, idsStarted, ih, List.length_append, List.append_assoc,
            Nat.add_assoc]
      | offer | instances | version | destroy => exact ih first

/-- The calls of a pass so far, newest first, have given the ids. -/
def Given (c : Cluster) (world : Cluster × List Call) : Prop :=
  c.Gives world.1 (idsStarted c.nextSequence world.2.reverse)

/-- One more call gives what it alone would have given. -/
theorem Given.call {world : Cluster × List Call} (h : c.Given world) {call : Call}
    (hcall : world.1.Gives c' (idsStarted world.1.nextSequence [call])) :
    c.Given (c', call :: world.2) := by
  show c.Gives c' (idsStarted c.nextSequence (call :: world.2).reverse)
  rw [List.reverse_cons, idsStarted_append, ← h.next]
  exact h.trans hcall

theorem keeps_given (c : Cluster) : collaborators.recorded.Keeps c.Given where
  offer _ _ _ h := h.call (.refl _)
  instances _ _ h := h.call (.refl _)
  version _ h := h.call (.refl _)
  create _ request world h := by
    refine h.call ?_
    simpa [idsStarted] using gives_provision world.1 request
  destroy _ request world h := h.call (gives_destroy world.1 request)
  note _ _ h := ⟨h.next, h.numbered, h.known⟩

/-- **What a pass gives is told by its calls.** -/
theorem gives_pass (c : Cluster) (document : Document) :
    c.Gives (c.pass document).2
      (idsStarted c.nextSequence (Pass.callsOf collaborators document c)) := by
  have hstart : c.Given (c, []) := .refl c
  have hrun := Pass.world_run (keeps_given c) document hstart
  rw [pass, Pass.run_recorded collaborators document c []]
  exact hrun

/-! ### What any change gives -/

theorem gives_perform (c : Cluster) (x : Change) : c.Gives (c.perform x) (c.given x) := by
  cases x with
  | add profile alive pending => exact gives_add c profile alive pending
  | kill id => exact gives_of_sublist rfl (by rw [perform, kill, map_tag_onFirst])
  | settle => exact gives_of_sublist rfl (sublist_tag_settle c)
  | setUnscalable profile unscalable => exact gives_of_sublist rfl (.refl _)
  | setVersion version => exact gives_of_sublist rfl (.refl _)
  | provision request => exact gives_provision c request
  | decommission request => exact gives_destroy c request
  | pass document => exact gives_pass c document

/-- What some changes give, and nothing else, is borne by the instances that come of them. -/
theorem gives_run (c : Cluster) (changes : List Change) :
    c.Gives (c.run changes) (c.issued changes) := by
  induction changes generalizing c with
  | nil => exact .refl c
  | cons x rest ih => exact (gives_perform c x).trans (ih _)

/-- **No id is given twice.** -/
theorem Gives.nodup {ids : List String} (h : c.Gives c' ids) : ids.Nodup := by
  rw [List.nodup_iff_getElem?_ne_getElem?]
  intro i j hij hj heq
  have hi := List.getElem?_eq_getElem (Nat.lt_trans hij hj)
  obtain ⟨profile, hprofile⟩ := h.numbered i _ hi
  obtain ⟨profile', hprofile'⟩ := h.numbered j _ (heq ▸ hi)
  have := sequence_eq_of_id_eq (hprofile.symm.trans hprofile')
  omega

theorem issued_append (c : Cluster) (changes later : List Change) :
    c.issued (changes ++ later) = c.issued changes ++ (c.run changes).issued later := by
  induction changes generalizing c with
  | nil => rfl
  | cons x rest ih => simp [issued, ih]

/-- Nobody gets an id that was given before. -/
theorem not_mem_issued_later {c : Cluster} {changes later : List Change} {id : String}
    (h : id ∈ c.issued changes) : id ∉ (c.run changes).issued later := by
  have hnodup := (gives_run c (changes ++ later)).nodup
  rw [issued_append] at hnodup
  exact fun hlater => (List.nodup_append.mp hnodup).2.2 id h id hlater rfl

/-! ## Death -/

theorem onFirst_cases (f : Placement → Placement) (id : String) (ps : List Placement) :
    (∃ (k : Nat) (p : Placement), ps[k]? = some p ∧ p.id = id ∧ onFirst f id ps = ps.set k (f p)) ∨
    (∀ p ∈ ps, p.id ≠ id) ∧ onFirst f id ps = ps := by
  induction ps with
  | nil => exact .inr ⟨by simp, rfl⟩
  | cons q rest ih =>
      by_cases hq : q.id = id
      · exact .inl ⟨0, q, rfl, hq, by simp [onFirst, hq]⟩
      · rcases ih with ⟨k, p, hp, hid, heq⟩ | ⟨hnone, heq⟩
        · exact .inl ⟨k + 1, p, hp, hid, by simp [onFirst, hq, heq]⟩
        · refine .inr ⟨?_, by simp [onFirst, hq, heq]⟩
          rintro p hp
          rcases List.mem_cons.mp hp with rfl | hp
          · exact hq
          · exact hnone p hp

/-- **An id kills one instance**, or nobody bears it and nothing happens. -/
theorem Orderly.kill_cases (h : c.Orderly) (id : String) :
    (∃ (k : Nat) (p : Placement), c.placements[k]? = some p ∧ p.id = id ∧
      c.kill id = (true, { c with placements := c.placements.set k p.killed }) ∧
      ∀ (j : Nat) (q : Placement), c.placements[j]? = some q → q.id = id → j = k) ∨
    (∀ p ∈ c.placements, p.id ≠ id) ∧ c.kill id = (false, c) := by
  rcases onFirst_cases Placement.killed id c.placements with
    ⟨k, p, hp, hid, heq⟩ | ⟨hnone, heq⟩
  · refine .inl ⟨k, p, hp, hid, ?_, ?_⟩
    · have hany : c.placements.any (fun p => p.id = id) = true :=
        List.any_eq_true.mpr ⟨p, List.mem_of_getElem? hp, by simpa using hid⟩
      rw [kill, heq, hany]
    · intro j q hq hqid
      obtain ⟨hj, hqj⟩ := List.getElem?_eq_some_iff.mp hq
      obtain ⟨hk, hpk⟩ := List.getElem?_eq_some_iff.mp hp
      have hqp : c.placements[j] = c.placements[k] := by
        rw [hqj, hpk]
        exact h.eq_of_id_eq (List.mem_of_getElem? hq) (List.mem_of_getElem? hp)
          (hqid.trans hid.symm)
      exact (List.Nodup.getElem_inj_iff h.nodup).mp hqp
  · refine .inr ⟨hnone, ?_⟩
    have hany : c.placements.any (fun p => p.id = id) = false := by
      simpa [List.any_eq_false] using hnone
    rw [kill, heq, hany]

/-! ## Settling -/

theorem settled_of_isCountable {p : Placement} (h : p.isCountable = true) : p.settled = p.up := by
  unfold Placement.settled Placement.up
  cases hp : p.pending with
  | true => simp
  | false =>
      have halive : p.alive = true := by simpa [Instance.isCountable, hp] using h
      simp [← hp, ← halive]

/-- Those who are neither alive nor pending go, and the others are up. -/
theorem settle_eq (c : Cluster) :
    c.settle.2 = { c with placements :=
      (c.placements.filter fun p => p.alive || p.pending).map Placement.up } := by
  have hplacements : (c.placements.map Placement.settled).filter (·.isCountable)
      = (c.placements.filter fun p => p.alive || p.pending).map Placement.up := by
    rw [List.filter_map]
    have hsame : ((·.isCountable) ∘ Placement.settled : Placement → Bool)
        = fun p => p.alive || p.pending := funext isCountable_settled
    rw [hsame]
    refine List.map_congr_left fun p hp => settled_of_isCountable ?_
    exact (List.mem_filter.mp hp).2
  simp only [settle, hplacements]

/-- **Whoever has settled has nothing left to settle.** -/
theorem settle_settle (c : Cluster) : c.settle.2.settle = (0, c.settle.2) := by
  have hup : ∀ p ∈ c.settle.2.placements, p.alive = true ∧ p.pending = false := by
    rw [settle_eq]
    rintro p hp
    obtain ⟨q, -, rfl⟩ := List.mem_map.mp hp
    exact ⟨rfl, rfl⟩
  refine Prod.ext ?_ ?_
  · show c.settle.2.placements.countP (·.pending) = 0
    rw [List.countP_eq_zero]
    intro p hp
    simp [(hup p hp).2]
  · rw [settle_eq c.settle.2]
    have hall : c.settle.2.placements.filter (fun p => p.alive || p.pending)
        = c.settle.2.placements := by
      rw [List.filter_eq_self]
      intro p hp
      simp [(hup p hp).1]
    have hsame : c.settle.2.placements.map Placement.up = c.settle.2.placements := by
      refine (List.map_congr_left fun p hp => ?_).trans (List.map_id _)
      obtain ⟨halive, hpending⟩ := hup p hp
      simp [Placement.up, ← halive, ← hpending]
    rw [hall, hsame]

/-! ## The books -/

/-- **A cluster keeps its books.** Let anything happen to a cluster that starts empty, whatever the
names of the profiles.

* The instances stand in the order of their numbers, and the next number is behind them all. It is
  the number of ids that have been given.
* No id is given twice, each instance bears one of them, and nobody ever bears the id of an instance
  that is gone.
* An id kills the one instance that bears it, or there is none and nothing happens.
* Settling brings up those who are pending and gives their number. Exactly those who are neither
  alive nor pending go; the others keep their order and are alive and not pending. What counts of a
  profile stays, and to settle once more does nothing.
-/
theorem books_are_kept (version : String) (changes : List Change) :
    let c := ({ version } : Cluster).run changes
    let ids := ({ version } : Cluster).issued changes
    (c.placements.Pairwise (fun p q => p.sequence < q.sequence) ∧
      (∀ p ∈ c.placements, p.sequence < c.nextSequence) ∧ c.nextSequence = ids.length) ∧
    (ids.Nodup ∧ (∀ p ∈ c.placements, p.id ∈ ids) ∧
      ∀ id ∈ ids, (∀ p ∈ c.placements, p.id ≠ id) → ∀ later,
        ∀ p ∈ (c.run later).placements, p.id ≠ id) ∧
    (∀ id,
      (∃ (k : Nat) (p : Placement), c.placements[k]? = some p ∧ p.id = id ∧
        c.kill id = (true, { c with placements := c.placements.set k p.killed }) ∧
        ∀ (j : Nat) (q : Placement), c.placements[j]? = some q → q.id = id → j = k) ∨
      (∀ p ∈ c.placements, p.id ≠ id) ∧ c.kill id = (false, c)) ∧
    c.settle.1 = (c.placements.filter (·.pending)).length ∧
    c.settle.2 = { c with placements :=
      (c.placements.filter fun p => p.alive || p.pending).map Placement.up } ∧
    (∀ profile, c.settle.2.countableCount profile = c.countableCount profile) ∧
    c.settle.2.settle = (0, c.settle.2) := by
  intro c ids
  have h : c.Orderly := Reachable.orderly ⟨version, changes, rfl⟩
  have hgives : ({ version } : Cluster).Gives c ids := gives_run _ changes
  have hnext : c.nextSequence = ids.length := by simpa using hgives.next
  have hknown : ∀ p ∈ c.placements, p.id ∈ ids := by simpa using hgives.known
  refine ⟨⟨h.increasing, h.below, hnext⟩, ⟨hgives.nodup, hknown, ?_⟩, h.kill_cases,
    List.countP_eq_length_filter, settle_eq c, countableCount_settle c, settle_settle c⟩
  intro id hid hgone later p hp heq
  rcases (gives_run c later).known p hp with hold | hnew
  · obtain ⟨q, hq, hqp⟩ := List.mem_map.mp hold
    exact hgone q hq (hqp.trans heq)
  · exact not_mem_issued_later hid (heq ▸ hnew)

/-- A document that asks for instances of one profile. -/
def webs (minimum : Int) : Document where
  requirements := [{ profile := "web", minimum := some minimum }]
  distinct := by simp

/-- A profile that ends like an id, an instance that dies and is removed, and a pass that replaces
it. -/
def replaced : List Change :=
  [.add "web" true false, .add "web-0" true false, .kill "web-0", .settle, .pass (webs 1)]

/-- The one that replaces it has a new id, and the old one kills nobody. -/
theorem replaced_books :
    let c := ({ version := "1.0" } : Cluster).run replaced
    ({ version := "1.0" } : Cluster).issued replaced = ["web-0", "web-0-1", "web-2"] ∧
    c.nextSequence = 3 ∧ (∃ p ∈ c.placements, p.id = "web-2" ∧ p.sequence < 3) ∧
    (∀ p ∈ (c.run [.pass (webs 2)]).placements, p.id ≠ "web-0") ∧
    c.kill "web-0" = (false, c) ∧ c.settle.1 = 1 ∧ c.settle.2.settle = (0, c.settle.2) := by
  intro c
  obtain ⟨⟨-, hbelow, hnext⟩, ⟨-, -, hgone⟩, hkill, hsettled, -, -, hagain⟩ :=
    books_are_kept "1.0" replaced
  have hissued : ({ version := "1.0" } : Cluster).issued replaced = ["web-0", "web-0-1", "web-2"] :=
    by decide
  have hnone : ∀ p ∈ c.placements, p.id ≠ "web-0" := by decide
  have hmem : Placement.create "web" false true 2 ∈ c.placements := by decide
  refine ⟨hissued, hnext.trans (by rw [hissued]; rfl),
    ⟨_, hmem, by decide, hbelow _ hmem⟩,
    hgone "web-0" (by rw [hissued]; decide) hnone _, ?_, hsettled.trans (by decide), hagain⟩
  rcases hkill "web-0" with ⟨k, p, hp, hid, -⟩ | ⟨-, hfalse⟩
  · exact absurd hid (hnone p (List.mem_of_getElem? hp))
  · exact hfalse

end Cluster

end FleetScaler
