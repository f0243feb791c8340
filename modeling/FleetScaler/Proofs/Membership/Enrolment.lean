import FleetScaler.Membership.Elector
import FleetScaler.Proofs.Membership.Frame

/-!
# How an elector comes and goes

An elector that is activated at a coordination service joins, listens, publishes and starts.
Nothing can go wrong after the join: the member is new, so it is open and has not started. The
whole of it is a join followed by one turn of the new member, which is then at the end of its line.
-/

namespace FleetScaler

variable {s s' : Coordination Nat} {e : Elector Nat}

/-- The member that an elector becomes, before its start. -/
def Elector.recruit (e : Elector Nat) (listener number : Nat) : Member Nat where
  id := Coordination.memberId e.config.groupPath e.config.nodeType number
  path := e.config.groupPath
  state := e.state
  listeners := [listener]

/-- A recruit that starts has that to hear, and nothing else. -/
theorem Elector.begun_recruit (e : Elector Nat) (listener number place : Nat) :
    (e.recruit listener number).begun place
      = { e.recruit listener number with
          started := true, sequence := place, queue := [.connected] } := by
  simp [Member.begun, recruit, Member.enqueue]

namespace Coordination

/-- A service with a member that an elector has joined, heard and published, but not started. -/
def enlist (s : Coordination Nat) (e : Elector Nat) (listener : Nat) : Coordination Nat :=
  (((s.join e.config.groupPath e.config.nodeType).2.listen s.members.length listener).update
    s.members.length e.state).2

/-- The same service with the member started. -/
def enrol (s : Coordination Nat) (e : Elector Nat) (listener : Nat) : Coordination Nat :=
  ((s.enlist e listener).start s.members.length).2

theorem modify_append_last {α : Type} (as : List α) (a : α) (f : α → α) :
    (as ++ [a]).modify as.length f = as ++ [f a] := by
  simp [List.modify_eq_take_drop]

theorem members_enlist (hp : e.config.groupPath ≠ "") :
    (s.enlist e listener).members = s.members ++ [e.recruit listener s.members.length] := by
  rcases join_cases s e.config.groupPath e.config.nodeType with ⟨he, _⟩ | ⟨_, _, hm, _⟩
  · exact absurd he hp
  · simp [enlist, listen, update, onMember, hm, Elector.recruit, modify_append_last]

theorem sameLines_enlist (s : Coordination Nat) (e : Elector Nat) (listener : Nat) :
    SameLines (s.join e.config.groupPath e.config.nodeType).2 (s.enlist e listener) :=
  (sameLines_listen _ _ _).trans (sameLines_update _ _ _)

theorem grows_enrol (s : Coordination Nat) (e : Elector Nat) (listener : Nat) :
    Grows s (s.enrol e listener) :=
  ((grows_serve s (.join e.config.groupPath e.config.nodeType)).trans
    (sameLines_enlist s e listener).grows).trans (grows_serve _ (.start s.members.length))

/-- The start of the new member is its turn, in which it gets the next place. -/
theorem turn_enrol_next (s : Coordination Nat) (e : Elector Nat) (listener : Nat)
    (hp : e.config.groupPath ≠ "") :
    Turn (s.enlist e listener) (s.enrol e listener) s.members.length
        (e.recruit listener s.members.length)
        ((e.recruit listener s.members.length).begun s.nextSequence)
      ∧ (s.enrol e listener).nextSequence = s.nextSequence + 1 := by
  have hnext : (s.enlist e listener).nextSequence = s.nextSequence := by
    rcases join_cases s e.config.groupPath e.config.nodeType with ⟨he, _⟩ | ⟨_, _, _, hn⟩
    · exact absurd he hp
    · exact (sameLines_enlist s e listener).next.trans hn
  have hnew : (s.enlist e listener).members[s.members.length]?
      = some (e.recruit listener s.members.length) := by simp [members_enlist hp]
  rcases start_cases (s.enlist e listener) s.members.length with ⟨m, _, t, hn, _⟩ | ⟨_, hidle⟩
  · obtain rfl := Option.some.inj (hnew.symm.trans t.found)
    rw [hnext] at t hn
    exact ⟨t, hn⟩
  · rcases hidle _ hnew with hc | hs
    · exact absurd hc (by simp [Elector.recruit])
    · exact absurd hs (by simp [Elector.recruit])

/-- The start of the new member is its turn. -/
theorem turn_enrol (s : Coordination Nat) (e : Elector Nat) (listener : Nat)
    (hp : e.config.groupPath ≠ "") :
    ∃ place, Turn (s.enlist e listener) (s.enrol e listener) s.members.length
      (e.recruit listener s.members.length)
      ((e.recruit listener s.members.length).begun place) :=
  ⟨s.nextSequence, (turn_enrol_next s e listener hp).1⟩

end Coordination

open Coordination

/-- An elector is refused only where the path is empty. -/
theorem Elector.activate_refused (listener : Nat) (hg : e.group = none)
    (hp : e.config.groupPath = "") :
    e.activate (some (access listener)) s = (.error .emptyGroupPath, e, s) := by
  simp [activate, isActive, hg, access, join, hp]

/-- **Activation is a join and a start**: nothing can go wrong in between. -/
theorem Elector.activate_eq (listener : Nat) (hg : e.group = none) (hp : e.config.groupPath ≠ "") :
    ∃ journal, e.activate (some (access listener)) s
      = (.ok (), { e with group := some s.members.length, journal := journal },
          s.enrol e listener) := by
  have hjoin : (access listener).join e.config.groupPath e.config.nodeType s
      = (.ok s.members.length, (s.join e.config.groupPath e.config.nodeType).2) := by
    rcases join_cases s e.config.groupPath e.config.nodeType with ⟨he, _⟩ | ⟨_, hok, _, _⟩
    · exact absurd he hp
    · exact Prod.ext hok rfl
  have hlisten : ∀ s : Coordination Nat, ∀ k,
      (access listener).listen k s = (.ok (), s.listen k listener) := fun _ _ => rfl
  -- the member is new, so it is open and can be updated and started
  have hupdate : (access listener).update s.members.length e.state
        ((s.join e.config.groupPath e.config.nodeType).2.listen s.members.length listener)
      = (.ok (), s.enlist e listener) := by
    refine Prod.ext ?_ rfl
    rcases join_cases s e.config.groupPath e.config.nodeType with ⟨he, _⟩ | ⟨_, _, hm, _⟩
    · exact absurd he hp
    · simp [access, Coordination.update, Coordination.listen, onMember, hm]
  have hstart : (access listener).start s.members.length (s.enlist e listener)
      = (.ok (), s.enrol e listener) := by
    refine Prod.ext ?_ rfl
    have hnew : (s.enlist e listener).members[s.members.length]?
        = some (e.recruit listener s.members.length) := by simp [members_enlist hp]
    simp [access, start, hnew, Elector.recruit]
  simp only [activate, isActive, hg, Option.isSome_none, Bool.false_eq_true, if_false, hjoin,
    hlisten, hupdate, hstart, note]
  exact ⟨_, rfl⟩

/-! ## Leaving -/

/-- An elector that is deactivated closes its member, if it has one. -/
theorem Elector.grows_deactivate (e : Elector Nat) (listener : Nat) (s : Coordination Nat) :
    Grows s (e.deactivate (access listener) s).2 := by
  unfold deactivate
  split
  · exact .refl s
  · rename_i number _
    exact (sameLines_unlisten s number listener).grows.trans (grows_serve _ (.close number))

end FleetScaler
