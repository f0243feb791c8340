import FleetScaler.Proofs.Membership.Enrolment

/-!
# What a member hears of the others

A member that stands in line may become the master, or cease to be it, through the turn of another
member. Whenever that can happen the member is told: after the turn of another member on its path
the last event in its queue is `changed`. Whoever is not told has the same answer to the question
whether it is the master as before.
-/

namespace FleetScaler

/-- The event says that the session is up. -/
def GroupEvent.up : GroupEvent → Bool
  | .connected | .changed => true
  | .disconnected | .unknown => false

theorem MembershipEvent.ofGroupEvent_eq_disconnected_iff {event : GroupEvent} :
    ofGroupEvent event = .disconnected ↔ event.up = false := by
  cases event <;> simp [ofGroupEvent, GroupEvent.up]

/-- An elector believes the event that it hears. -/
theorem Elector.connected_hear {γ : Type} (e : Elector γ) (memberId : String)
    (event : GroupEvent) : (e.hear memberId event).2.connected = event.up := by
  cases event <;> rfl

namespace Coordination

variable {κ : Type} {s s' s'' : Coordination κ}

/-! ## When the first in line stays the same -/

/-- An open member is the master exactly if it stands first on its own path. -/
theorem Orderly.isMaster_iff_first (h : Orderly s) {k : Nat} {m : Member κ}
    (hm : s.members[k]? = some m) : s.isMaster k = true ↔ First s m.path k := by
  rw [h.isMaster_iff]
  constructor
  · rintro ⟨path, hf⟩
    obtain ⟨m', hm', hp, _⟩ := standsOn_iff.mp hf.1
    obtain rfl := Option.some.inj (hm.symm.trans hm')
    exact hp ▸ hf
  · exact fun hf => ⟨m.path, hf⟩

/-- Nobody else comes first where the line and its places are the same. -/
theorem first_congr {path : String} (hs : ∀ j, s'.standsOn path j = s.standsOn path j)
    (hp : ∀ j, s.standsOn path j = true → s'.place j = s.place j) {k : Nat} :
    First s' path k ↔ First s path k := by
  simp only [First, hs]
  refine and_congr_right fun hk => forall_congr' fun j => ?_
  refine imp_congr_right fun hj => ?_
  rw [hp k hk, hp j hj]

/-! ## News -/

/-- What other members' business makes of the member with the number `k`: nothing has changed for
it, or its session is up and it hears that the group has changed. -/
structure Hears (s s' : Coordination κ) (k : Nat) (m m' : Member κ) : Prop where
  found : s'.members[k]? = some m'
  standing : m'.standing = m.standing
  listeners : m'.listeners = m.listeners
  told : (m'.queue = m.queue ∧ s'.isMaster k = s.isMaster k)
    ∨ (m.closed = false ∧ m.connected = true ∧ m'.queue.getLast? = some .changed)

section

variable {k : Nat} {m m' : Member κ} (h : Hears s s' k m m')
include h

theorem Hears.connected : m'.connected = m.connected := congrArg Standing.connected h.standing

theorem Hears.closed : m'.closed = m.closed := congrArg Standing.closed h.standing

theorem Hears.started : m'.started = m.started := congrArg Standing.started h.standing

theorem Hears.path : m'.path = m.path := congrArg Standing.path h.standing

/-- The last event that is waiting goes on telling whether the session is up. -/
theorem Hears.last (hl : ∀ event, m.queue.getLast? = some event → event.up = m.connected)
    (event : GroupEvent) (he : m'.queue.getLast? = some event) : event.up = m'.connected := by
  rw [h.connected]
  rcases h.told with ⟨hq, _⟩ | ⟨_, hu, hq⟩
  · exact hl event (by rw [← hq]; exact he)
  · rw [hq] at he
    rw [hu, ← Option.some.inj he]
    rfl

/-- A member for which nothing is waiting has not been told of anything, and is the master exactly
if it was before. -/
theorem Hears.of_empty (hq' : m'.queue = []) :
    m.queue = [] ∧ s'.isMaster k = s.isMaster k := by
  rcases h.told with ⟨hq, hmaster⟩ | ⟨_, _, hq⟩
  · exact ⟨by rw [← hq]; exact hq', hmaster⟩
  · rw [hq'] at hq
    exact absurd hq (by simp)

/-- A closed member is not told of anything. -/
theorem Hears.silent (hs : m.closed = true → m.queue = []) (hc : m'.closed = true) :
    m'.queue = [] := by
  rw [h.closed] at hc
  rcases h.told with ⟨hq, _⟩ | ⟨hopen, _, _⟩
  · rw [hq]
    exact hs hc
  · exact absurd (hopen.symm.trans hc) (by simp)

end

theorem Hears.trans {k : Nat} {m m' m'' : Member κ} (h : Hears s s' k m m')
    (h' : Hears s' s'' k m' m'') : Hears s s'' k m m'' where
  found := h'.found
  standing := h'.standing.trans h.standing
  listeners := h'.listeners.trans h.listeners
  told := by
    rcases h'.told with ⟨hq, hm⟩ | ⟨hc, hu, hq⟩
    · rcases h.told with ⟨hq', hm'⟩ | ⟨hc', hu', hq'⟩
      · exact Or.inl ⟨hq.trans hq', hm.trans hm'⟩
      · exact Or.inr ⟨hc', hu', by rw [hq]; exact hq'⟩
    · exact Or.inr ⟨h.closed ▸ hc, h.connected ▸ hu, hq⟩

/-- Nothing is heard of changes to another member that no line notices. -/
theorem hears_of_sameLines (h : SameLines s s') (ho : Orderly s) {k : Nat} {m : Member κ}
    (hm : s'.members[k]? = some m) : Hears s s' k m m :=
  ⟨hm, rfl, rfl, Or.inl ⟨rfl, h.isMaster ho k⟩⟩

/-- Nothing is heard of somebody who joins. -/
theorem hears_append {m₀ : Member κ} (hms : s'.members = s.members ++ [m₀])
    (hnew : m₀.started = false) (ho : Orderly s) (ho' : Orderly s') {k : Nat} {m : Member κ}
    (hm : s.members[k]? = some m) : Hears s s' k m m := by
  -- whoever was there keeps the number, and the newcomer is not in line
  have old : ∀ j, j < s.members.length → s'.members[j]? = s.members[j]? := by
    intro j hj
    rw [hms, List.getElem?_append_left hj]
  have hm' : s'.members[k]? = some m := by
    rw [old k (List.getElem?_eq_some_iff.mp hm).1, hm]
  refine ⟨hm', rfl, rfl, Or.inl ⟨rfl, ?_⟩⟩
  rw [Bool.eq_iff_iff, ho'.isMaster_iff_first hm', ho.isMaster_iff_first hm]
  refine first_congr (fun j => ?_) fun j hj => ?_
  · rcases Nat.lt_or_ge j s.members.length with hlt | hge
    · simp only [standsOn, old j hlt]
    · have hnone : s.members[j]? = none := List.getElem?_eq_none hge
      rw [standsOn, standsOn, hnone, hms, List.getElem?_append_right hge, List.getElem?_singleton]
      split <;> simp [Member.inLine, hnew]
  · obtain ⟨x, hx, _, _⟩ := standsOn_iff.mp hj
    simp only [place, old j (List.getElem?_eq_some_iff.mp hx).1]

/-- **Whoever may become or cease to be the master through the turn of another member is told.** -/
theorem hears_turn {k : Nat} {m m' : Member κ} (t : Turn s s' k m m') (ho : Orderly s)
    (ho' : Orderly s') {j : Nat} (hj : j ≠ k) {x : Member κ} (hx : s.members[j]? = some x) :
    Hears s s' j x (x.hearChange m.path m.id) := by
  have hx' : s'.members[j]? = some (x.hearChange m.path m.id) := by rw [t.others j hj, hx]; rfl
  refine ⟨hx', by simp [Member.standing], by simp, ?_⟩
  by_cases hline : x.inLine = true
  · by_cases hp : x.path = m.path
    · -- members have different ids, so `x` is not spared
      have hid : x.id ≠ m.id := fun he => hj (ho.number_unique hx t.found he)
      have hstands := hline
      simp only [Member.inLine, Bool.and_eq_true, Bool.not_eq_true'] at hstands
      refine Or.inr ⟨hstands.2, hstands.1.2, ?_⟩
      rw [Member.hearChange_of_inLine hp hid hline]
      simp
    · have hquiet : x.hearChange m.path m.id = x := Member.hearChange_of_not fun h => hp h.1
      rw [hquiet] at hx'
      rw [hquiet]
      refine Or.inl ⟨rfl, ?_⟩
      rw [Bool.eq_iff_iff, ho'.isMaster_iff_first hx', ho.isMaster_iff_first hx]
      have hpath : ∀ i, s'.standsOn x.path i = s.standsOn x.path i := by
        intro i
        by_cases hi : i = k
        · subst hi
          rw [t.standsOn_self, standsOn_of_found t.found]
          simp [Ne.symm hp]
        · exact t.standsOn_ne hi _
      refine first_congr hpath fun i hi => ?_
      by_cases hik : i = k
      · subst hik
        rw [standsOn_of_found t.found] at hi
        simp [Ne.symm hp] at hi
      · exact t.place_ne hik
  · have hquiet : x.hearChange m.path m.id = x := Member.hearChange_of_not fun h => hline h.2.2
    rw [hquiet] at hx'
    rw [hquiet]
    refine Or.inl ⟨rfl, ?_⟩
    rw [Bool.eq_iff_iff, ho'.isMaster_iff_first hx', ho.isMaster_iff_first hx]
    -- whoever is not in line is the master neither before nor after
    have hout : s.standsOn x.path j = false := by
      rw [standsOn_of_found hx]
      simpa using hline
    have hout' : s'.standsOn x.path j = false := by rw [t.standsOn_ne hj, hout]
    constructor
    · intro hf; exact absurd hf.1 (by simp [hout'])
    · intro hf; exact absurd hf.1 (by simp [hout])

/-! ### News of one's own session -/

/-- A started member whose session is lost is told, and nothing later waits for it. -/
theorem getLast?_cutOff {m : Member κ} (hs : m.started = true) (hc : m.closed = false) :
    m.cutOff.queue.getLast? = some .disconnected := by
  simp [Member.cutOff, Member.enqueue, hs, hc]

/-- And so is one whose session comes back. -/
theorem getLast?_back {m : Member κ} (place : Nat) (hs : m.started = true)
    (hc : m.closed = false) : (m.back place).queue.getLast? = some .connected := by
  simp [Member.back, Member.enqueue, hs, hc]

/-! ## One member's business -/

/-- What happens between two services is the business of the member with the number `k`: everybody
else was there before, and hears of it if it matters. -/
structure Apart (s s' : Coordination κ) (k : Nat) : Prop where
  orderly : Orderly s → Orderly s'
  heard : Orderly s → ∀ (j : Nat) (m : Member κ), j ≠ k → s.members[j]? = some m →
    ∃ m', Hears s s' j m m'
  old : ∀ (j : Nat) (m' : Member κ), j ≠ k → s'.members[j]? = some m' →
    ∃ m, s.members[j]? = some m

theorem hears_refl {k : Nat} {m : Member κ} (hm : s.members[k]? = some m) : Hears s s k m m :=
  ⟨hm, rfl, rfl, Or.inl ⟨rfl, rfl⟩⟩

theorem Apart.refl (s : Coordination κ) (k : Nat) : Apart s s k where
  orderly := id
  heard _ _ m _ hm := ⟨m, hears_refl hm⟩
  old _ m _ hm := ⟨m, hm⟩

theorem Apart.trans {k : Nat} (h : Apart s s' k) (h' : Apart s' s'' k) : Apart s s'' k where
  orderly ho := h'.orderly (h.orderly ho)
  heard ho j m hj hm := by
    obtain ⟨m', hm'⟩ := h.heard ho j m hj hm
    obtain ⟨m'', hm''⟩ := h'.heard (h.orderly ho) j m' hj hm'.found
    exact ⟨m'', hm'.trans hm''⟩
  old j m'' hj hm'' := by
    obtain ⟨m', hm'⟩ := h'.old j m'' hj hm''
    exact h.old j m' hj hm'

/-- Whoever else is there afterwards was there before and has heard of it. -/
theorem Apart.before {k j : Nat} (h : Apart s s' k) (ho : Orderly s) (hj : j ≠ k) {m' : Member κ}
    (hm' : s'.members[j]? = some m') : ∃ m, s.members[j]? = some m ∧ Hears s s' j m m' := by
  obtain ⟨m, hm⟩ := h.old j m' hj hm'
  obtain ⟨m'', hears⟩ := h.heard ho j m hj hm
  obtain rfl := Option.some.inj (hears.found.symm.trans hm')
  exact ⟨m, hm, hears⟩

/-- A change to one member that no line notices is its own business. -/
theorem apart_onMember (s : Coordination κ) (k : Nat) {f : Member κ → Member κ}
    (hf : ∀ m, (f m).bare = m.bare) : Apart s (s.onMember k f) k where
  orderly := (sameLines_onMember s k hf).orderly
  heard ho j m hj hm := by
    have hsame : (s.onMember k f).members[j]? = some m := by
      rw [getElem?_onMember, if_neg (Ne.symm hj), hm]
    exact ⟨m, hears_of_sameLines (sameLines_onMember s k hf) ho hsame⟩
  old j m' hj hm' := by
    rw [getElem?_onMember, if_neg (Ne.symm hj)] at hm'
    exact ⟨m', hm'⟩

theorem apart_unlisten [DecidableEq κ] (s : Coordination κ) (k : Nat) (listener : κ) :
    Apart s (s.unlisten k listener) k := apart_onMember s k fun _ => rfl

/-- A turn is the business of the member whose turn it is. -/
theorem apart_turn {k : Nat} {m m' : Member κ} (t : Turn s s' k m m')
    (ho' : Orderly s → Orderly s') : Apart s s' k where
  orderly := ho'
  heard ho j x hj hx := ⟨_, hears_turn t ho (ho' ho) hj hx⟩
  old j x' hj hx' := by
    rcases t.member hx' with ⟨rfl, _⟩ | ⟨_, x, hx, _⟩
    · exact absurd rfl hj
    · exact ⟨x, hx⟩

theorem apart_append {m₀ : Member κ} (hms : s'.members = s.members ++ [m₀])
    (hnew : m₀.started = false) (ho' : Orderly s → Orderly s') :
    Apart s s' s.members.length where
  orderly := ho'
  heard ho j m _ hm := ⟨m, hears_append hms hnew ho (ho' ho) hm⟩
  old j m' hj hm' := by
    rcases Nat.lt_or_ge j s.members.length with hlt | hge
    · exact ⟨m', by rwa [hms, List.getElem?_append_left hlt] at hm'⟩
    · rw [hms, List.getElem?_append_right hge, List.getElem?_singleton, if_neg (by omega)] at hm'
      exact absurd hm' (by simp)

/-- So is everything that an elector does to join a group and to start. -/
theorem apart_enrol (s : Coordination Nat) (e : Elector Nat) (listener : Nat)
    (hp : e.config.groupPath ≠ "") : Apart s (s.enrol e listener) s.members.length := by
  obtain ⟨place, t⟩ := turn_enrol s e listener hp
  have hjoin : Apart s (s.enlist e listener) s.members.length := by
    refine apart_append (members_enlist hp) rfl fun ho => ?_
    exact (sameLines_enlist s e listener).orderly (orderly_join ho _ _)
  exact hjoin.trans (apart_turn t fun ho => orderly_start ho _)

theorem apart_close (s : Coordination κ) (k : Nat) : Apart s (s.close k) k := by
  rcases close_cases s k with ⟨m, t, _⟩ | ⟨he, _⟩
  · exact apart_turn t fun ho => orderly_close ho k
  · rw [he]
    exact .refl s k

/-! ## Nothing to hear -/

/-- Where no event is waiting, none is waiting for any member. -/
theorem queue_of_backlog (h : s.backlog = 0) {m : Member κ} (hm : m ∈ s.members) :
    m.queue = [] := by
  obtain ⟨members, next, journal⟩ := s
  induction members with
  | nil => exact absurd hm List.not_mem_nil
  | cons first rest ih =>
      obtain ⟨hfirst, hrest⟩ := Nat.add_eq_zero_iff.mp h
      rcases List.mem_cons.mp hm with rfl | hin
      · exact List.length_eq_zero_iff.mp hfirst
      · exact ih hrest hin

end Coordination

end FleetScaler
