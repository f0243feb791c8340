import FleetScaler.Proofs.Membership.Queue

/-!
# What leaves the lines alone

Listening, publishing and taking an event off a queue touch a member, but nothing that a line is
made of. `SameLines` relates two services that differ in no more than that, and whatever is said
about masters is the same for both. `Grows` is the weaker relation that every change of a service
keeps: members are added but not exchanged, and the order stays good.
-/

namespace FleetScaler

variable {κ : Type}

/-- A member without what it published, who listens to it, and what waits to be heard. -/
def Member.bare (m : Member κ) : Member κ := { m with state := {}, listeners := [], queue := [] }

theorem Member.of_bare {m m' : Member κ} (h : m'.bare = m.bare) :
    m'.id = m.id ∧ m'.path = m.path ∧ m'.started = m.started ∧ m'.connected = m.connected
      ∧ m'.closed = m.closed ∧ m'.sequence = m.sequence := by
  simpa [bare] using h

namespace Coordination

variable {s s' s'' : Coordination κ}

/-! ## Services with the same lines -/

/-- The members of two services stand alike. -/
structure SameLines (s s' : Coordination κ) : Prop where
  members : s'.members.map Member.bare = s.members.map Member.bare
  next : s'.nextSequence = s.nextSequence

theorem SameLines.refl (s : Coordination κ) : SameLines s s := ⟨rfl, rfl⟩

theorem SameLines.trans (h : SameLines s s') (h' : SameLines s' s'') : SameLines s s'' :=
  ⟨h'.members.trans h.members, h'.next.trans h.next⟩

theorem SameLines.symm (h : SameLines s s') : SameLines s' s := ⟨h.members.symm, h.next.symm⟩

/-- The same member is found in both, but for what does not matter to a line. -/
theorem SameLines.member (h : SameLines s s') {k : Nat} {m : Member κ}
    (hm : s.members[k]? = some m) : ∃ m', s'.members[k]? = some m' ∧ m'.bare = m.bare := by
  have hk : (s'.members.map Member.bare)[k]? = some m.bare := by
    rw [h.members, List.getElem?_map, hm]
    rfl
  rw [List.getElem?_map] at hk
  obtain ⟨m', hm', he⟩ := Option.map_eq_some_iff.mp hk
  exact ⟨m', hm', he⟩

theorem SameLines.length (h : SameLines s s') : s'.members.length = s.members.length := by
  simpa using congrArg List.length h.members

theorem standsOn_bare (s : Coordination κ) (path : String) (k : Nat) :
    s.standsOn path k
      = (((s.members.map Member.bare)[k]?).map fun m => m.path = path && m.inLine).getD false := by
  simp only [standsOn, List.getElem?_map, Option.map_map]
  rfl

theorem place_bare (s : Coordination κ) (k : Nat) :
    s.place k = (((s.members.map Member.bare)[k]?).map (·.sequence)).getD 0 := by
  simp only [place, List.getElem?_map, Option.map_map]
  rfl

theorem SameLines.standsOn (h : SameLines s s') (path : String) (k : Nat) :
    s'.standsOn path k = s.standsOn path k := by
  rw [standsOn_bare, standsOn_bare, h.members]

theorem SameLines.place (h : SameLines s s') (k : Nat) : s'.place k = s.place k := by
  rw [place_bare, place_bare, h.members]

theorem SameLines.ranked (h : SameLines s s') (path : String) :
    s'.ranked path = s.ranked path := by
  have hs : s'.standsOn path = s.standsOn path := funext (h.standsOn path)
  have hp : s'.place = s.place := funext h.place
  simp only [Coordination.ranked, hs, hp, h.length]

theorem SameLines.first (h : SameLines s s') {path : String} {k : Nat} :
    First s' path k ↔ First s path k := by
  simp only [First, h.standsOn, h.place]

theorem SameLines.orderly (h : SameLines s s') (ho : Orderly s) : Orderly s' := by
  -- each member is looked up in the old service, where it stands alike
  refine ⟨?_, ?_, ?_⟩
  · intro k m' hm'
    obtain ⟨m, hm, he⟩ := h.symm.member hm'
    obtain ⟨hid, hpath, _⟩ := Member.of_bare he
    obtain ⟨nodeType, ht⟩ := ho.ids k m hm
    exact ⟨nodeType, by rw [← hid, ← hpath]; exact ht⟩
  · intro k m' hm' hs
    obtain ⟨m, hm, he⟩ := h.symm.member hm'
    obtain ⟨_, _, hstarted, _, _, hsequence⟩ := Member.of_bare he
    rw [← hsequence, h.next]
    exact ho.behind k m hm (hstarted.trans hs)
  · intro j k x' y' hx' hy' hsx hsy hseq
    obtain ⟨x, hx, hex⟩ := h.symm.member hx'
    obtain ⟨y, hy, hey⟩ := h.symm.member hy'
    obtain ⟨_, _, hstx, _, _, hqx⟩ := Member.of_bare hex
    obtain ⟨_, _, hsty, _, _, hqy⟩ := Member.of_bare hey
    exact ho.places j k x y hx hy (hstx.trans hsx) (hsty.trans hsy)
      (hqx.trans (hseq.trans hqy.symm))

theorem SameLines.isMaster (h : SameLines s s') (ho : Orderly s) (k : Nat) :
    s'.isMaster k = s.isMaster k := by
  rw [Bool.eq_iff_iff, (h.orderly ho).isMaster_iff, ho.isMaster_iff]
  simp only [h.first]

/-! ### Changes of one member that no line notices -/

theorem sameLines_onMember (s : Coordination κ) (k : Nat) {f : Member κ → Member κ}
    (hf : ∀ m, (f m).bare = m.bare) : SameLines s (s.onMember k f) where
  members := by
    refine List.ext_getElem? fun j => ?_
    simp only [onMember, List.getElem?_map, List.getElem?_modify]
    cases s.members[j]? with
    | none => rfl
    | some m => by_cases hj : k = j <;> simp [hj, hf]
  next := rfl

theorem sameLines_note (s : Coordination κ) (level : Log.Level) (message : String) :
    SameLines s (s.note level message) := ⟨rfl, rfl⟩

theorem sameLines_listen (s : Coordination κ) (k : Nat) (listener : κ) :
    SameLines s (s.listen k listener) := sameLines_onMember s k fun _ => rfl

theorem sameLines_unlisten [DecidableEq κ] (s : Coordination κ) (k : Nat) (listener : κ) :
    SameLines s (s.unlisten k listener) := sameLines_onMember s k fun _ => rfl

theorem sameLines_expire [DecidableEq κ] (s : Coordination κ) (listener : κ) :
    SameLines s (s.expire listener) where
  members := by simp [expire, Member.bare]
  next := rfl

theorem sameLines_update (s : Coordination κ) (k : Nat) (state : MemberState) :
    SameLines s (s.update k state).2 := by
  unfold Coordination.update
  split
  · exact .refl s
  · split
    · exact .refl s
    · exact sameLines_onMember s k fun _ => rfl

theorem sameLines_takeEvent (s : Coordination κ) (k : Nat) : SameLines s (s.takeEvent k).2 := by
  unfold takeEvent
  split
  · exact .refl s
  · split
    · exact .refl s
    · exact sameLines_onMember s k fun _ => rfl

/-! ## Services that grow -/

/-- Members are added but not exchanged, and the order stays good. -/
structure Grows (s s' : Coordination κ) : Prop where
  orderly : Orderly s → Orderly s'
  /-- Nobody is forgotten, takes another id or moves to another path. -/
  kept : ∀ (k : Nat) (m : Member κ), s.members[k]? = some m →
    ∃ m', s'.members[k]? = some m' ∧ m'.id = m.id ∧ m'.path = m.path

theorem Grows.refl (s : Coordination κ) : Grows s s :=
  ⟨id, fun _ m hm => ⟨m, hm, rfl, rfl⟩⟩

theorem Grows.trans (h : Grows s s') (h' : Grows s' s'') : Grows s s'' where
  orderly ho := h'.orderly (h.orderly ho)
  kept k m hm := by
    obtain ⟨m', hm', hid, hp⟩ := h.kept k m hm
    obtain ⟨m'', hm'', hid', hp'⟩ := h'.kept k m' hm'
    exact ⟨m'', hm'', hid'.trans hid, hp'.trans hp⟩

theorem Grows.length (h : Grows s s') : s.members.length ≤ s'.members.length := by
  rcases Nat.lt_or_ge s'.members.length s.members.length with hlt | hge
  · obtain ⟨m', hm', _⟩ := h.kept _ _ (List.getElem?_eq_getElem hlt)
    exact absurd (List.getElem?_eq_some_iff.mp hm').1 (Nat.lt_irrefl _)
  · exact hge

theorem SameLines.grows (h : SameLines s s') : Grows s s' where
  orderly := h.orderly
  kept k m hm := by
    obtain ⟨m', hm', he⟩ := h.member hm
    exact ⟨m', hm', (Member.of_bare he).1, (Member.of_bare he).2.1⟩

/-- A turn exchanges nobody. -/
theorem Turn.kept {k : Nat} {m m' : Member κ} (t : Turn s s' k m m') (j : Nat) (x : Member κ)
    (hj : s.members[j]? = some x) :
    ∃ x', s'.members[j]? = some x' ∧ x'.id = x.id ∧ x'.path = x.path := by
  by_cases hjk : j = k
  · subst hjk
    obtain rfl := Option.some.inj (t.found.symm.trans hj)
    exact ⟨m', t.self, t.same⟩
  · refine ⟨x.hearChange m.path m.id, ?_, by simp, by simp⟩
    rw [t.others j hjk, hj]
    rfl

theorem grows_serve (s : Coordination κ) (r : Request) : Grows s (s.serve r) where
  orderly ho := orderly_serve ho r
  kept k m hm := by
    rcases serve_cases s r with he | ⟨path, nodeType, hms, _⟩ | ⟨j, x, x', t, _⟩
    · exact ⟨m, by rw [he]; exact hm, rfl, rfl⟩
    · have hk := (List.getElem?_eq_some_iff.mp hm).1
      exact ⟨m, by rw [hms, List.getElem?_append_left hk, hm], rfl, rfl⟩
    · exact t.kept k m hm

end Coordination

end FleetScaler
