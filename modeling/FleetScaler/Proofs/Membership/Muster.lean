import FleetScaler.Proofs.Membership.News

/-!
# Groups whose members have all come to stay

Where electors only join a fresh service, one after the other, its members keep to the simplest
order there is: each one's place in line is its number, so the first is the master for good, and
nobody hears of anything but that the session is up or that somebody has come.
-/

namespace FleetScaler.Coordination

variable {s : Coordination Nat} {path nodeType : String} {n k : Nat} {m : Member Nat}

/-- The member has started and its session is up, its place is its number, and it has one listener,
which has nothing to hear but good news. -/
structure Attending (path nodeType : String) (k : Nat) (m : Member Nat) : Prop where
  id : m.id = memberId path nodeType k
  path : m.path = path
  started : m.started = true
  connected : m.connected = true
  isOpen : m.closed = false
  sequence : m.sequence = k
  listeners : m.listeners = [k]
  up : ∀ event ∈ m.queue, event.up = true

/-- The service has so many members, all of which are attending on one path. -/
structure Mustered (path nodeType : String) (n : Nat) (s : Coordination Nat) : Prop where
  length : s.members.length = n
  next : s.nextSequence = n
  attending : ∀ k m, s.members[k]? = some m → Attending path nodeType k m

/-- The number of events that the member with the number `k` still has to hear. -/
def waiting (s : Coordination Nat) (k : Nat) : Nat :=
  ((s.members[k]?).map fun m => m.queue.length).getD 0

theorem waiting_of {s : Coordination Nat} (hm : s.members[k]? = some m) :
    s.waiting k = m.queue.length := by
  simp [waiting, hm]

theorem Attending.inLine (h : Attending path nodeType k m) : m.inLine = true := by
  simp [Member.inLine, h.started, h.connected, h.isOpen]

theorem mustered_empty (path nodeType : String) : Mustered path nodeType 0 {} where
  length := rfl
  next := rfl
  attending k m hm := absurd hm (by simp)

theorem Mustered.orderly (h : Mustered path nodeType n s) : Orderly s where
  ids k m hm := by
    have ha := h.attending k m hm
    exact ⟨nodeType, by rw [ha.path]; exact ha.id⟩
  behind k m hm _ := by
    rw [(h.attending k m hm).sequence, h.next, ← h.length]
    exact (List.getElem?_eq_some_iff.mp hm).1
  places j k m m' hm hm' _ _ he := by
    rw [(h.attending j m hm).sequence, (h.attending k m' hm').sequence] at he
    exact he

theorem Mustered.getElem? (h : Mustered path nodeType n s) (hk : k < n) :
    ∃ m, s.members[k]? = some m ∧ Attending path nodeType k m := by
  have hlt : k < s.members.length := by rwa [h.length]
  exact ⟨s.members[k], List.getElem?_eq_getElem hlt,
    h.attending k _ (List.getElem?_eq_getElem hlt)⟩

/-- **The first to come is the master.** -/
theorem Mustered.isMaster_eq (h : Mustered path nodeType n s) (hk : k < n) :
    s.isMaster k = decide (k = 0) := by
  obtain ⟨m, hm, ha⟩ := h.getElem? hk
  have hstands : ∀ j, s.standsOn m.path j = true ↔ j < n := by
    intro j
    rw [standsOn_iff]
    constructor
    · rintro ⟨x, hx, -⟩
      rw [← h.length]
      exact (List.getElem?_eq_some_iff.mp hx).1
    · intro hj
      obtain ⟨x, hx, hax⟩ := h.getElem? hj
      exact ⟨x, hx, hax.path.trans ha.path.symm, hax.inLine⟩
  have hplace : ∀ j, j < n → s.place j = j := by
    intro j hj
    obtain ⟨x, hx, hax⟩ := h.getElem? hj
    rw [place_of hx, hax.sequence]
  rw [Bool.eq_iff_iff, h.orderly.isMaster_iff_first hm, decide_eq_true_eq]
  constructor
  · rintro ⟨-, hfirst⟩
    have hle := hfirst 0 ((hstands 0).mpr (by omega))
    rw [hplace k hk, hplace 0 (by omega)] at hle
    omega
  · rintro rfl
    refine ⟨(hstands 0).mpr hk, fun j hj => ?_⟩
    rw [hplace 0 hk]
    exact Nat.zero_le _

/-! ## Who comes next -/

/-- A newcomer is attending once it has started, and has that to hear. -/
theorem attending_recruit {e : Elector Nat} (hpath : e.config.groupPath = path)
    (htype : e.config.nodeType = nodeType) (n : Nat) :
    Attending path nodeType n ((e.recruit n n).begun n) := by
  subst hpath htype
  rw [Elector.begun_recruit]
  refine ⟨rfl, rfl, rfl, rfl, rfl, rfl, rfl, fun event he => ?_⟩
  rw [List.mem_singleton.mp he]
  rfl

/-- Whoever is attending hears of a newcomer, and goes on attending. -/
theorem Attending.hearChange (h : Attending path nodeType k m) {except : String}
    (hne : m.id ≠ except) :
    Attending path nodeType k (m.hearChange path except)
      ∧ (m.hearChange path except).queue.length = m.queue.length + 1 := by
  rw [Member.hearChange_of_inLine h.path hne h.inLine]
  refine ⟨⟨h.id, h.path, h.started, h.connected, h.isOpen, h.sequence, h.listeners, ?_⟩, by simp⟩
  intro event he
  rcases List.mem_append.mp he with hold | hnew
  · exact h.up event hold
  · rw [List.mem_singleton.mp hnew]
    rfl

/-- **A newcomer joins the muster**, and the first member has one more event to hear. -/
theorem Mustered.enrol (h : Mustered path nodeType n s) {e : Elector Nat} (hp : path ≠ "")
    (hpath : e.config.groupPath = path) (htype : e.config.nodeType = nodeType) :
    Mustered path nodeType (n + 1) (s.enrol e n) ∧ (s.enrol e n).waiting 0 = s.waiting 0 + 1 := by
  obtain ⟨t, hnext⟩ := turn_enrol_next s e n (by rw [hpath]; exact hp)
  rw [h.length, h.next] at t
  have hlength : (s.enlist e n).members.length = n + 1 := by
    rw [members_enlist (by rw [hpath]; exact hp), List.length_append, h.length]
    rfl
  have hid : ∀ (j : Nat) (x : Member Nat), s.members[j]? = some x → x.id ≠ (e.recruit n n).id := by
    intro j x hx he
    rw [(h.attending j x hx).id] at he
    have hj : j = n := number_eq_of_memberId_eq he
    have hlt := (List.getElem?_eq_some_iff.mp hx).1
    rw [h.length] at hlt
    omega
  -- whoever was there hears of the newcomer
  have hold : ∀ (j : Nat) (x : Member Nat), s.members[j]? = some x →
      (s.enrol e n).members[j]? = some (x.hearChange path (e.recruit n n).id) := by
    intro j x hx
    have hlt := (List.getElem?_eq_some_iff.mp hx).1
    have hmember : (s.enlist e n).members[j]? = some x := by
      rw [members_enlist (by rw [hpath]; exact hp), List.getElem?_append_left hlt, hx]
    rw [h.length] at hlt
    rw [t.others j (by omega), hmember, Option.map_some]
    simp [Elector.recruit, hpath]
  refine ⟨⟨by rw [t.length, hlength], by rw [hnext, h.next], fun j x hx => ?_⟩, ?_⟩
  · rcases Nat.lt_or_ge j n with hlt | hge
    · obtain ⟨y, hy, hay⟩ := h.getElem? hlt
      obtain rfl := Option.some.inj ((hold j y hy).symm.trans hx)
      exact (hay.hearChange (hid j y hy)).1
    · have hj : j = n := by
        have hlt := (List.getElem?_eq_some_iff.mp hx).1
        rw [t.length, hlength] at hlt
        omega
      subst hj
      obtain rfl := Option.some.inj (t.self.symm.trans hx)
      exact attending_recruit hpath htype j
  · rcases Nat.eq_zero_or_pos n with hzero | hpos
    · subst hzero
      rw [waiting_of t.self, Elector.begun_recruit]
      simp [waiting, List.length_eq_zero_iff.mp h.length]
    · obtain ⟨y, hy, hay⟩ := h.getElem? hpos
      rw [waiting_of hy, waiting_of (hold 0 y hy)]
      exact (hay.hearChange (hid 0 y hy)).2

/-- A member that has heard an event goes on attending. -/
theorem Mustered.heard (h : Mustered path nodeType n s) (hm : s.members[k]? = some m)
    {event : GroupEvent} {rest : List GroupEvent} (hq : m.queue = event :: rest)
    (state : MemberState) :
    Mustered path nodeType n
      (s.onMember k fun m => { m with queue := rest, state := state }) where
  length := by
    rw [← h.length]
    simp [onMember]
  next := h.next
  attending j x hx := by
    rw [getElem?_onMember] at hx
    split at hx
    · rename_i hj
      subst hj
      rw [hm] at hx
      obtain rfl := Option.some.inj hx
      have ha := h.attending k m hm
      refine ⟨ha.id, ha.path, ha.started, ha.connected, ha.isOpen, ha.sequence, ha.listeners, ?_⟩
      intro e he
      exact ha.up e (by rw [hq]; exact List.mem_cons_of_mem _ he)
    · exact h.attending j x hx

/-! ## What everybody can see -/

/-- **The group has as many started members as have come, and their ids are distinct.** -/
theorem Mustered.membersOf (h : Mustered path nodeType n s) :
    (s.membersOf path).length = n ∧ (s.membersOf path).Nodup := by
  have hall : (s.members.filter fun m => m.path = path && m.started && !m.closed) = s.members := by
    refine List.filter_eq_self.mpr fun m hm => ?_
    obtain ⟨k, hk⟩ := List.mem_iff_getElem?.mp hm
    have ha := h.attending k m hk
    simp [ha.path, ha.started, ha.isOpen]
  have hperm : (s.membersOf path).Perm (s.members.map (·.id)) := by
    rw [Coordination.membersOf, hall]
    exact List.mergeSort_perm _ _
  refine ⟨by rw [hperm.length_eq, List.length_map, h.length], hperm.nodup_iff.mpr ?_⟩
  refine List.pairwise_iff_getElem.mpr fun i j hi hj hij he => ?_
  simp only [List.getElem_map, List.length_map] at hi hj he
  have hnumber := h.orderly.number_unique (List.getElem?_eq_getElem hi)
    (List.getElem?_eq_getElem hj) he
  omega

end FleetScaler.Coordination
