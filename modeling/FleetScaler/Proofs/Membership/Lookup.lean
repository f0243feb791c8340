import Mathlib.Data.List.Nodup
import FleetScaler.Proofs.Membership.Dispatch

/-!
# An id names a member for ever

A service looks for a member by its id alone, through the groups of all paths, in whatever order it
keeps them. That is safe because the ids that its joins give are all different: each ends in the
number of its join, whatever slashes, dashes and digits the path and the type of node hold. So the
search finds one open member at most, a call on an id concerns that member and no other, and nobody
ever gets the id of a member that has been closed.
-/

namespace FleetScaler

variable {κ : Type}

namespace Coordination

variable {s s' : Coordination κ}

/-! ## The search -/

/-- The number of the open member of a path with the given id. -/
def numberOn? (s : Coordination κ) (path id : String) : Option Nat :=
  s.members.findIdx? fun m => m.path = path && (m.id = id && !m.closed)

/-- The number of the open member with the given id, if the groups of some paths are gone through
one after the other. -/
def searchThrough (s : Coordination κ) (paths : List String) (id : String) : Option Nat :=
  paths.findSome? fun path => s.numberOn? path id

/-- The ids of all members, closed ones included, in the order in which they joined. -/
def ids (s : Coordination κ) : List String := s.members.map (·.id)

/-- Where at most one entry is sought, its index is found. -/
theorem findIdx?_eq_some_iff_of_unique {α : Type} {l : List α} {p : α → Bool}
    (h : ∀ (j k : Nat) (a b : α), l[j]? = some a → l[k]? = some b → p a = true → p b = true →
      j = k) {k : Nat} :
    l.findIdx? p = some k ↔ ∃ a, l[k]? = some a ∧ p a = true := by
  constructor
  · intro hk
    obtain ⟨hlt, hp, -⟩ := List.findIdx?_eq_some_iff_getElem.mp hk
    exact ⟨l[k], List.getElem?_eq_getElem hlt, hp⟩
  · rintro ⟨a, ha, hp⟩
    cases hj : l.findIdx? p with
    | none =>
        rw [List.findIdx?_eq_none_iff] at hj
        exact absurd hp (by simp [hj a (List.mem_of_getElem? ha)])
    | some j =>
        obtain ⟨hlt, hp', -⟩ := List.findIdx?_eq_some_iff_getElem.mp hj
        rw [h j k l[j] a (List.getElem?_eq_getElem hlt) ha hp' hp]

theorem Orderly.number?_eq_some_iff (h : Orderly s) {id : String} {k : Nat} :
    s.number? id = some k ↔
      ∃ m, s.members[k]? = some m ∧ m.id = id ∧ m.closed = false := by
  rw [number?, findIdx?_eq_some_iff_of_unique]
  · simp
  · intro i j a b ha hb hpa hpb
    simp only [Bool.and_eq_true, decide_eq_true_eq] at hpa hpb
    exact h.number_unique ha hb (hpa.1.trans hpb.1.symm)

theorem Orderly.numberOn?_eq_some_iff (h : Orderly s) {path id : String} {k : Nat} :
    s.numberOn? path id = some k ↔
      ∃ m, s.members[k]? = some m ∧ m.path = path ∧ m.id = id ∧ m.closed = false := by
  rw [numberOn?, findIdx?_eq_some_iff_of_unique]
  · simp
  · intro i j a b ha hb hpa hpb
    simp only [Bool.and_eq_true, decide_eq_true_eq] at hpa hpb
    exact h.number_unique ha hb (hpa.2.1.trans hpb.2.1.symm)

theorem number?_eq_none_iff {id : String} :
    s.number? id = none ↔ ∀ m ∈ s.members, m.id = id → m.closed = true := by
  simp [number?, List.findIdx?_eq_none_iff]

/-- **The groups may be gone through in any order**, as long as none is left out. -/
theorem Orderly.searchThrough_eq (h : Orderly s) {paths : List String}
    (hpaths : ∀ m ∈ s.members, m.path ∈ paths) (id : String) :
    s.searchThrough paths id = s.number? id := by
  cases hfound : s.searchThrough paths id with
  | none =>
      rw [searchThrough, List.findSome?_eq_none_iff] at hfound
      symm
      rw [number?_eq_none_iff]
      intro m hm hid
      obtain ⟨k, hk⟩ := List.mem_iff_getElem?.mp hm
      refine eq_true_of_ne_false fun hopen => ?_
      have hsome := h.numberOn?_eq_some_iff.mpr ⟨m, hk, rfl, hid, hopen⟩
      rw [hfound m.path (hpaths m hm)] at hsome
      exact absurd hsome (by simp)
  | some k =>
      obtain ⟨path, -, hk⟩ := List.exists_of_findSome?_eq_some hfound
      obtain ⟨m, hm, -, hid, hopen⟩ := h.numberOn?_eq_some_iff.mp hk
      exact (h.number?_eq_some_iff.mpr ⟨m, hm, hid, hopen⟩).symm

/-! ## Whom a call concerns -/

/-- A call has made `m'` of the member with the number `k`, but for what that is given to hear. The
others keep everything but what they are given to hear. -/
structure Concerns (s s' : Coordination κ) (k : Nat) (m' : Member κ) : Prop where
  self : ∃ queue, s'.members[k]? = some { m' with queue }
  others : ∀ j x, j ≠ k → s.members[j]? = some x → ∃ queue, s'.members[j]? = some { x with queue }
  length : s'.members.length = s.members.length

theorem Turn.concerns {k : Nat} {m m' : Member κ} (t : Turn s s' k m m') {x : Member κ}
    (hx : m' = { x with queue := m'.queue }) : s.Concerns s' k x where
  self := ⟨m'.queue, by rw [t.self, ← hx]⟩
  others j y hj hy := by
    refine ⟨(y.hearChange m.path m.id).queue, ?_⟩
    rw [t.others j hj, hy, Option.map_some, ← Member.hearChange_eq]
  length := t.length

theorem disconnect_of_number? {id : String} (h : s.number? id = none) :
    s.disconnect id = (false, s) := by
  simp [disconnect, h]

theorem reconnect_of_number? {id : String} (h : s.number? id = none) :
    s.reconnect id = (false, s) := by
  simp [reconnect, h]

section

variable {k : Nat} {m : Member κ} (h : Orderly s) (hm : s.members[k]? = some m)
  (hopen : m.closed = false)
include h hm hopen

/-- A session is lost by the member of the id and nobody else. -/
theorem Orderly.disconnect_concerns :
    (m.connected = true → (s.disconnect m.id).1 = true ∧
      s.Concerns (s.disconnect m.id).2 k { m with connected := false }) ∧
    (m.connected = false → s.disconnect m.id = (false, s)) := by
  have hk : s.number? m.id = some k := h.number?_eq_some_iff.mpr ⟨m, hm, rfl, hopen⟩
  rcases disconnect_cases s m.id with ⟨j, x, hj, hup, t, -, hdone⟩ | ⟨heq, hdown⟩
  · obtain rfl := Option.some.inj (hk.symm.trans hj)
    obtain rfl := Option.some.inj (hm.symm.trans t.found)
    exact ⟨fun _ => ⟨hdone, t.concerns (Member.enqueue_eq _ _)⟩,
      fun hdown => by simp [hup] at hdown⟩
  · exact ⟨fun hup => by simp [hdown k m hk hm] at hup, fun _ => heq⟩

/-- And it comes back for that member only, which goes to the end of the line. -/
theorem Orderly.reconnect_concerns :
    (m.connected = false → (s.reconnect m.id).1 = true ∧
      s.Concerns (s.reconnect m.id).2 k { m with connected := true, sequence := s.nextSequence }) ∧
    (m.connected = true → s.reconnect m.id = (false, s)) := by
  have hk : s.number? m.id = some k := h.number?_eq_some_iff.mpr ⟨m, hm, rfl, hopen⟩
  rcases reconnect_cases s m.id with ⟨j, x, hj, hdown, t, -, hdone⟩ | ⟨heq, hup⟩
  · obtain rfl := Option.some.inj (hk.symm.trans hj)
    obtain rfl := Option.some.inj (hm.symm.trans t.found)
    exact ⟨fun _ => ⟨hdone, t.concerns (Member.enqueue_eq _ _)⟩,
      fun hup => by simp [hdown] at hup⟩
  · exact ⟨fun hdown => by simp [hup k m hk hm] at hdown, fun _ => heq⟩

end

/-! ## The ids of the members -/

theorem getElem?_ids {k : Nat} {m : Member κ} (h : s.members[k]? = some m) :
    s.ids[k]? = some m.id := by
  rw [ids, List.getElem?_map, h, Option.map_some]

theorem Orderly.nodup_ids (h : Orderly s) : s.ids.Nodup := by
  rw [List.nodup_iff_getElem?_ne_getElem?]
  intro j k hjk hk heq
  rw [Coordination.ids, List.length_map] at hk
  have hj := List.getElem?_eq_getElem (Nat.lt_trans hjk hk)
  have hk' := List.getElem?_eq_getElem hk
  rw [getElem?_ids hj, getElem?_ids hk', Option.some.injEq] at heq
  exact absurd (h.number_unique hj hk' heq) (Nat.ne_of_lt hjk)

theorem Orderly.empty_not_mem_ids (h : Orderly s) : "" ∉ s.ids := by
  intro hmem
  obtain ⟨m, hm, hid⟩ := List.mem_map.mp hmem
  obtain ⟨k, hk⟩ := List.mem_iff_getElem?.mp hm
  exact h.id_ne_empty hk hid

theorem SameLines.ids (h : SameLines s s') : s'.ids = s.ids := by
  have hbare : ∀ s : Coordination κ, s.ids = (s.members.map Member.bare).map (·.id) := by
    intro s
    rw [List.map_map]
    rfl
  rw [hbare, hbare, h.members]

theorem Turn.ids {k : Nat} {m m' : Member κ} (t : Turn s s' k m m') : s'.ids = s.ids := by
  refine List.ext_getElem? fun j => ?_
  rw [Coordination.ids, Coordination.ids, List.getElem?_map, List.getElem?_map]
  by_cases hj : j = k
  · subst hj
    rw [t.self, t.found, Option.map_some, Option.map_some, t.same.1]
  · rw [t.others j hj, Option.map_map]
    congr 1
    funext x
    exact Member.hearChange_id m.path m.id x

/-- The id that a call gives to a newcomer. -/
def given (s : Coordination κ) : Request → List String
  | .join path nodeType =>
    match s.join path nodeType with
    | (.ok number, s) => [s.idOf number]
    | (.error _, _) => []
  | .start _ | .close _ | .disconnect _ | .reconnect _ => []

theorem ids_join (s : Coordination κ) (path nodeType : String) :
    (s.join path nodeType).2.ids = s.ids ++ s.given (.join path nodeType) := by
  rcases s.join_cases path nodeType with ⟨-, heq⟩ | ⟨-, hok, hmembers, -⟩
  · simp [given, heq]
  · rcases hjoin : s.join path nodeType with ⟨answer, s'⟩
    rw [hjoin] at hok hmembers
    obtain rfl : answer = .ok s.members.length := hok
    have hmembers' : s'.members
        = s.members ++ [{ id := memberId path nodeType s.members.length, path }] := hmembers
    simp [given, hjoin, ids, idOf, hmembers']

/-- A call changes nobody's id, and adds the one that it gives. -/
theorem ids_serve (s : Coordination κ) (r : Request) : (s.serve r).ids = s.ids ++ s.given r := by
  cases r with
  | join path nodeType => exact s.ids_join path nodeType
  | start k =>
      rw [given, List.append_nil]
      rcases s.start_cases k with ⟨m, -, turn, -⟩ | ⟨heq, -⟩
      · exact turn.ids
      · exact congrArg ids heq
  | close k =>
      rw [given, List.append_nil]
      rcases s.close_cases k with ⟨m, turn, -⟩ | ⟨heq, -⟩
      · exact turn.ids
      · exact congrArg ids heq
  | disconnect id =>
      rw [given, List.append_nil]
      rcases s.disconnect_cases id with ⟨k, m, -, -, turn, -⟩ | ⟨heq, -⟩
      · exact turn.ids
      · exact congrArg (·.2.ids) heq
  | reconnect id =>
      rw [given, List.append_nil]
      rcases s.reconnect_cases id with ⟨k, m, -, -, turn, -⟩ | ⟨heq, -⟩
      · exact turn.ids
      · exact congrArg (·.2.ids) heq

end Coordination

/-! ## The ids that joins give -/

namespace Dispatch

/-- A step is a join. -/
def Step.isJoin : Step κ → Bool
  | .request (.join _ _) => true
  | _ => false

/-- The id that a step gives to a newcomer. -/
def given (t : Dispatch κ) : Step κ → List String
  | .request r => t.service.given r
  | _ => []

theorem length_given_le (t : Dispatch κ) (step : Step κ) :
    (t.given step).length ≤ if step.isJoin then 1 else 0 := by
  unfold given Coordination.given
  split
  · split
    · split <;> simp [Step.isJoin]
    all_goals simp
  · simp

variable [DecidableEq κ] {t : Dispatch κ}

/-- All the ids that some steps give, the first one first. -/
def enrolled (t : Dispatch κ) : List (Step κ) → List String
  | [] => []
  | step :: steps => t.given step ++ (t.perform step).enrolled steps

/-- **A step changes nobody's id**, and adds the one that it gives. -/
theorem ids_perform (t : Dispatch κ) (step : Step κ) :
    (t.perform step).service.ids = t.service.ids ++ t.given step := by
  have keeps : ∀ s : Coordination κ, s.ids = t.service.ids → s.ids = t.service.ids ++ [] :=
    fun s h => h.trans (List.append_nil _).symm
  cases step with
  | request r => exact t.service.ids_serve r
  | publish j state => exact keeps _ (t.service.sameLines_update j state).ids
  | listen j k => exact keeps _ (t.service.sameLines_listen j k).ids
  | unlisten j k => exact keeps _ (t.service.sameLines_unlisten j k).ids
  | expire k => exact keeps _ (t.service.sameLines_expire k).ids
  | take j =>
      refine keeps _ ?_
      rcases take_cases t j with heq | ⟨x, event, rest, -, -, -, heq⟩
      · rw [heq]
      · rw [heq]
        exact (Coordination.sameLines_onMember t.service j
          (f := fun m => { m with queue := rest }) fun _ => rfl).ids
  | call j =>
      refine keeps _ ?_
      rcases call_cases t j with heq | ⟨listener, event, rest, -, heq⟩ <;> rw [heq]
      rfl
  | fail j event failure => exact keeps _ (t.service.sameLines_note _ _).ids

theorem ids_run (t : Dispatch κ) (steps : List (Step κ)) :
    (t.run steps).service.ids = t.service.ids ++ t.enrolled steps := by
  induction steps generalizing t with
  | nil => simp [enrolled]
  | cons step steps ih => rw [run_cons, ih, ids_perform, enrolled, List.append_assoc]

/-- A join gives one id at most. -/
theorem length_enrolled_le (t : Dispatch κ) (steps : List (Step κ)) :
    (t.enrolled steps).length ≤ steps.countP Step.isJoin := by
  induction steps generalizing t with
  | nil => simp [enrolled]
  | cons step steps ih =>
      have hgiven := t.length_given_le step
      have hrest := ih (t.perform step)
      rw [enrolled, List.length_append, List.countP_cons]
      omega

/-- **Whoever is closed is not found again**, and nobody gets the id. -/
theorem number?_of_closed (ho : t.service.Orderly) {k : Nat} {m : Member κ}
    (hm : t.service.members[k]? = some m) (hc : m.closed = true) (later : List (Step κ)) :
    (t.run later).service.number? m.id = none := by
  have ho' := orderly_run ho later
  -- the number still has the id, and with it the member
  have hid : (t.run later).service.ids[k]? = some m.id := by
    rw [ids_run, List.getElem?_append_left]
    · exact Coordination.getElem?_ids hm
    · exact (List.getElem?_eq_some_iff.mp (Coordination.getElem?_ids hm)).1
  rw [Coordination.ids, List.getElem?_map, Option.map_eq_some_iff] at hid
  obtain ⟨m', hm', hid⟩ := hid
  have hc' : m'.closed = true :=
    keeps_run (p := fun m => m.closed = true) (fun _ _ _ _ h => h.advance.closed) ho hm later hm' hc
  rw [Coordination.number?_eq_none_iff]
  intro x hx hxid
  obtain ⟨j, hj⟩ := List.mem_iff_getElem?.mp hx
  obtain rfl := ho'.number_unique hj hm' (hxid.trans hid.symm)
  rw [Option.some.inj (hj.symm.trans hm'), hc']

/-- **An id names one member for ever.** Let a new service be used in any way, with any paths and
any types of nodes.

* The members, closed ones included, have the ids that the joins gave, in that order. No two are
  the same and none is empty, and there are no more than joins, which is how far the number at the
  end of an id gets.
* Ids with different numbers are different, so it does not matter how soon after its number was
  drawn a member is entered under its id.
* The search for an id comes to the one open member that has it, and does so in whatever order the
  groups of all paths are gone through.
* A lost or regained session concerns the open member with the id and nobody else, and nothing
  happens if there is none or if its session is as it should be already.
* The id of a closed member is found by no search and has no effect on any call, whatever happens
  later.
-/
theorem id_names_for_ever (steps : List (Step κ)) :
    let t : Dispatch κ := run {} steps
    let s := t.service
    let given := enrolled ({} : Dispatch κ) steps
    (s.members.map (·.id) = given ∧ given.Nodup ∧ "" ∉ given ∧
      given.length ≤ steps.countP Step.isJoin) ∧
    (∀ path path' nodeType nodeType' j k,
      Coordination.memberId path nodeType j = Coordination.memberId path' nodeType' k → j = k) ∧
    (∀ id k, s.number? id = some k ↔
      ∃ m, s.members[k]? = some m ∧ m.id = id ∧ m.closed = false) ∧
    (∀ id paths, (∀ m ∈ s.members, m.path ∈ paths) → s.searchThrough paths id = s.number? id) ∧
    (∀ (k : Nat) (m : Member κ), s.members[k]? = some m → m.closed = false →
      (m.connected = true → (s.disconnect m.id).1 = true ∧
        s.Concerns (s.disconnect m.id).2 k { m with connected := false }) ∧
      (m.connected = false → s.disconnect m.id = (false, s)) ∧
      (m.connected = false → (s.reconnect m.id).1 = true ∧
        s.Concerns (s.reconnect m.id).2 k
          { m with connected := true, sequence := s.nextSequence }) ∧
      (m.connected = true → s.reconnect m.id = (false, s))) ∧
    (∀ id, (∀ m ∈ s.members, m.id = id → m.closed = true) →
      s.disconnect id = (false, s) ∧ s.reconnect id = (false, s)) ∧
    (∀ (k : Nat) (m : Member κ) later, s.members[k]? = some m → m.closed = true →
      let s' := (t.run later).service
      s'.number? m.id = none ∧ s'.disconnect m.id = (false, s') ∧
        s'.reconnect m.id = (false, s')) := by
  intro t s given
  have ho : s.Orderly := orderly_run Coordination.orderly_empty steps
  have hids : s.members.map (·.id) = given := by simpa [Coordination.ids] using ids_run {} steps
  refine ⟨⟨hids, hids ▸ ho.nodup_ids, hids ▸ ho.empty_not_mem_ids, length_enrolled_le _ _⟩,
    fun _ _ _ _ _ _ => Coordination.number_eq_of_memberId_eq,
    fun id k => ho.number?_eq_some_iff, fun id paths hpaths => ho.searchThrough_eq hpaths id,
    ?_, ?_, ?_⟩
  · intro k m hm hopen
    obtain ⟨hlost, hlost'⟩ := ho.disconnect_concerns hm hopen
    obtain ⟨hback, hback'⟩ := ho.reconnect_concerns hm hopen
    exact ⟨hlost, hlost', hback, hback'⟩
  · intro id hclosed
    have hnone := Coordination.number?_eq_none_iff.mpr hclosed
    exact ⟨Coordination.disconnect_of_number? hnone, Coordination.reconnect_of_number? hnone⟩
  · intro k m later hm hc s'
    have hnone := number?_of_closed ho hm hc later
    exact ⟨hnone, Coordination.disconnect_of_number? hnone,
      Coordination.reconnect_of_number? hnone⟩

/-- Two members whose paths and types run into one text, one of which has been closed, and one of
the same path and type as that. -/
def homonyms : List (Step Nat) :=
  [.request (.join "/a" "x/y"), .request (.join "/a/x" "y"), .request (.start 0),
    .request (.close 0), .request (.join "/a" "x/y")]

/-- Each has an id of its own, the one of the second is found whatever group is looked at first, and
losing that session touches only the second. -/
theorem homonyms_keep_apart :
    let s := (run ({} : Dispatch Nat) homonyms).service
    s.members.map (·.id) = ["/a/x/y-0", "/a/x/y-1", "/a/x/y-2"] ∧
    Coordination.memberId "/a" "x/y-1" 12 ≠ Coordination.memberId "/a/x" "y-11" 2 ∧
    s.searchThrough ["/b", "/a/x", "/a"] "/a/x/y-1" = s.number? "/a/x/y-1" ∧
    (s.disconnect "/a/x/y-1").1 = true ∧
    s.reconnect "/a/x/y-1" = (false, s) ∧
    s.disconnect "/a/x/y-7" = (false, s) ∧
    ((run ({} : Dispatch Nat) homonyms).run [.request (.join "/a" "x/y")]).service.number?
      "/a/x/y-0" = none := by
  intro s
  obtain ⟨⟨hids, -⟩, hnumber, -, hsearch, hcalls, hunknown, hclosed⟩ :=
    id_names_for_ever (κ := Nat) homonyms
  obtain ⟨hlost, -, -, hup⟩ := hcalls 1 _ rfl rfl
  refine ⟨hids.trans (by decide), fun heq => ?_, hsearch _ _ (by decide), (hlost rfl).1, hup rfl,
    (hunknown "/a/x/y-7" (by decide)).1, (hclosed 0 _ [.request (.join "/a" "x/y")] rfl rfl).1⟩
  exact absurd (hnumber _ _ _ _ _ _ heq) (by decide)

end Dispatch

end FleetScaler
