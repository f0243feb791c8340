import FleetScaler.Proofs.Membership.Electorate

/-!
# Electors in their seats

An elector learns of its session by events, which may lag behind what has happened meanwhile.
`Seated` says how far: the last event that is waiting for its member tells whether the session is
up, and if none is waiting the elector knows. Every step keeps all active electors in their seats.
`current_of_apart` says what there is to see for this: what the step means to the one elector whose
business it is, for all others hear of what concerns them.
-/

namespace FleetScaler.Electorate

open Coordination

variable {u u' : Electorate} {k : Nat}

/-! ## How far an elector may be behind -/

/-- The elector `k` stands for the member `m`, with the number `n`, and is no more behind than the
events that are waiting. -/
structure Seated (u : Electorate) (k n : Nat) (m : Member Nat) : Prop where
  group : (u.elector k).group = some n
  found : u.service.members[n]? = some m
  isOpen : m.closed = false
  started : m.started = true
  path : m.path = u.path k
  listeners : m.listeners = [k]
  /-- The last event that is waiting tells whether the session is up. -/
  last : ∀ event, m.queue.getLast? = some event → event.up = m.connected
  /-- If none is waiting, the elector knows whether it is. -/
  told : m.queue = [] → (u.elector k).connected = m.connected

/-- Every active elector has a seat, and every member is that of an active elector or closed for
good. -/
structure Current (u : Electorate) : Prop where
  orderly : Orderly u.service
  seated : ∀ k n, (u.elector k).group = some n → ∃ m, Seated u k n m
  owned : ∀ (n : Nat) (m : Member Nat), u.service.members[n]? = some m → m.closed = false →
    ∃ k, (u.elector k).group = some n
  silent : ∀ (n : Nat) (m : Member Nat), u.service.members[n]? = some m → m.closed = true →
    m.queue = []

theorem current_start (configs : List ElectorConfig) : Current (start configs) where
  orderly := orderly_empty
  seated k n hg := by
    rw [elector_start] at hg
    exact absurd hg (by simp)
  owned n m hm := absurd hm (by simp [start])
  silent n m hm := absurd hm (by simp [start])

/-- Nobody shares a seat. -/
theorem Seated.sole {j n : Nat} {m m' : Member Nat} (h : Seated u j n m)
    (h' : Seated u k n m') : j = k := by
  obtain rfl := Option.some.inj (h.found.symm.trans h'.found)
  have heq := h.listeners.symm.trans h'.listeners
  simpa using heq

/-- What others do leaves an elector in its seat, since its member hears of it. -/
theorem Seated.hears {n : Nat} {m m' : Member Nat} (h : Seated u k n m)
    (he : u'.elector k = u.elector k) (hm : Hears u.service u'.service n m m') :
    Seated u' k n m' where
  group := by rw [he]; exact h.group
  found := hm.found
  isOpen := hm.closed.trans h.isOpen
  started := hm.started.trans h.started
  path := by rw [hm.path, h.path, Electorate.path, Electorate.path, he]
  listeners := hm.listeners.trans h.listeners
  last := hm.last h.last
  told hempty := by
    rw [he, hm.connected]
    exact h.told (hm.of_empty hempty).1

/--
**One elector's business leaves all others in their seats.** Let a step concern the elector `k` and
the member `n` only, where `k` has the seat `n` before, or none and the member is new. It remains to
see that afterwards `k` has that seat, or none and the member is closed.
-/
theorem current_of_apart (h : Current u) {n : Nat} (ha : Apart u.service u'.service n)
    (hothers : ∀ j, j ≠ k → u'.elector j = u.elector j)
    (hbefore : (u.elector k).group = some n
      ∨ ((u.elector k).group = none ∧ u.service.members[n]? = none))
    (hafter : (∃ m', Seated u' k n m') ∨ ((u'.elector k).group = none
      ∧ ∀ m', u'.service.members[n]? = some m' → m'.closed = true ∧ m'.queue = [])) :
    Current u' := by
  -- whoever else has a seat has another one
  have hne : ∀ j i, j ≠ k → (u.elector j).group = some i → i ≠ n := by
    rintro j i hj hg rfl
    obtain ⟨m, hs⟩ := h.seated j i hg
    rcases hbefore with hk | ⟨_, hnew⟩
    · obtain ⟨m', hs'⟩ := h.seated k i hk
      exact hj (hs.sole hs')
    · exact absurd (hnew.symm.trans hs.found) (by simp)
  refine ⟨ha.orderly h.orderly, ?_, ?_, ?_⟩
  · intro j i hg
    by_cases hj : j = k
    · subst hj
      rcases hafter with ⟨m', hs⟩ | ⟨hnone, _⟩
      · obtain rfl := Option.some.inj (hs.group.symm.trans hg)
        exact ⟨m', hs⟩
      · exact absurd (hnone.symm.trans hg) (by simp)
    · rw [hothers j hj] at hg
      obtain ⟨m, hs⟩ := h.seated j i hg
      obtain ⟨m', hears⟩ := ha.heard h.orderly i m (hne j i hj hg) hs.found
      exact ⟨m', hs.hears (hothers j hj) hears⟩
  · intro i m' hm' hopen
    by_cases hi : i = n
    · subst hi
      rcases hafter with ⟨_, hs⟩ | ⟨_, hgone⟩
      · exact ⟨k, hs.group⟩
      · exact absurd ((hgone m' hm').1.symm.trans hopen) (by simp)
    · obtain ⟨m, hm, hears⟩ := ha.before h.orderly hi hm'
      obtain ⟨j, hg⟩ := h.owned i m hm (hears.closed.symm.trans hopen)
      have hj : j ≠ k := by
        rintro rfl
        rcases hbefore with hk | ⟨hnone, _⟩
        · exact hi (Option.some.inj (hg.symm.trans hk))
        · exact absurd (hnone.symm.trans hg) (by simp)
      exact ⟨j, by rw [hothers j hj]; exact hg⟩
  · intro i m' hm' hclosed
    by_cases hi : i = n
    · subst hi
      rcases hafter with ⟨m, hs⟩ | ⟨_, hgone⟩
      · obtain rfl := Option.some.inj (hs.found.symm.trans hm')
        exact absurd (hs.isOpen.symm.trans hclosed) (by simp)
      · exact (hgone m' hm').2
    · obtain ⟨m, hm, hears⟩ := ha.before h.orderly hi hm'
      exact hears.silent (h.silent i m hm) hclosed

/-! ## Coming and going -/

/-- An elector without a seat may change in any way that gives it none. -/
theorem current_idle (h : Current u) (hg : (u.elector k).group = none) {e : Elector Nat}
    (he : e.group = none) : Current (u.replace k e u.service) := by
  have hnew : u.service.members[u.service.members.length]? = none := by simp
  refine current_of_apart h (.refl _ u.service.members.length)
    (fun j hj => elector_replace_ne u hj _ _) (Or.inr ⟨hg, hnew⟩) (Or.inr ⟨?_, ?_⟩)
  · rw [elector_replace_self]
    exact he
  · intro m hm
    exact absurd (hnew.symm.trans hm) (by simp)

/-- An elector that takes a seat is told that its session is up. -/
theorem current_recruit (h : Current u) (hg : (u.elector k).group = none)
    (hp : u.path k ≠ "") : Current (u.activate k) := by
  obtain ⟨journal, heq⟩ := Elector.activate_eq (s := u.service) k hg hp
  obtain ⟨place, t⟩ := turn_enrol u.service (u.elector k) k hp
  rw [Elector.begun_recruit] at t
  have hact : u.activate k
      = u.replace k { u.elector k with group := some u.service.members.length, journal }
          (u.service.enrol (u.elector k) k) := by rw [activate, heq]
  rw [hact]
  refine current_of_apart h (apart_enrol _ _ k hp) (fun j hj => elector_replace_ne u hj _ _)
    (Or.inr ⟨hg, by simp⟩) (Or.inl ⟨_, by rw [elector_replace_self], t.self, rfl, rfl, ?_, rfl,
      ?_, fun he => absurd he (by simp)⟩)
  · rw [path, elector_replace_self]
    rfl
  · -- its start waits to be heard
    intro event he
    rw [← Option.some.inj he]
    rfl

theorem current_activate (h : Current u) (k : Nat) : Current (u.activate k) := by
  cases hg : (u.elector k).group with
  | some n =>
      obtain ⟨m, hs⟩ := h.seated k n hg
      have hstay : u.activate k = u.replace k (u.elector k) u.service := by
        simp [activate, Elector.activate, Elector.isActive, hg]
      rw [hstay]
      refine current_of_apart h (.refl _ n) (fun j hj => elector_replace_ne u hj _ _) (Or.inl hg)
        (Or.inl ⟨m, ?_⟩)
      exact hs.hears (elector_replace_self _ _ _ _) (hears_refl hs.found)
  | none =>
      by_cases hp : u.path k = ""
      · have hrefused : u.activate k = u.replace k (u.elector k) u.service := by
          rw [activate, Elector.activate_refused k hg hp]
        rw [hrefused]
        exact current_idle h hg hg
      · exact current_recruit h hg hp

/-- An elector that leaves its seat closes its member, which hears of nothing any more. -/
theorem current_deactivate (h : Current u) (k : Nat) : Current (u.deactivate k) := by
  cases hg : (u.elector k).group with
  | none =>
      have hidle : u.deactivate k
          = u.replace k { u.elector k with connected := false } u.service := by
        simp [deactivate, Elector.deactivate, hg]
      rw [hidle]
      exact current_idle h hg hg
  | some n =>
      obtain ⟨m, hs⟩ := h.seated k n hg
      obtain ⟨e, hleave, hnone⟩ : ∃ e, u.deactivate k
          = u.replace k e ((u.service.unlisten n k).close n) ∧ e.group = none := by
        simp only [deactivate, Elector.deactivate, hg]
        exact ⟨_, rfl, rfl⟩
      rw [hleave]
      refine current_of_apart h ((apart_unlisten _ n k).trans (apart_close _ n))
        (fun j hj => elector_replace_ne u hj _ _) (Or.inl hg) (Or.inr ⟨?_, ?_⟩)
      · rw [elector_replace_self]
        exact hnone
      · intro m' hm'
        have hlast : (u.service.unlisten n k).members[n]?
            = some { m with listeners := m.listeners.filter (· ≠ k) } := by
          rw [unlisten, getElem?_onMember, if_pos rfl, hs.found]
          rfl
        rw [service_replace, getElem?_close hlast hs.isOpen] at hm'
        obtain rfl := Option.some.inj hm'
        exact ⟨rfl, rfl⟩

/-! ## Sessions -/

/-- A member whose own turn it is hears of it, if it stays open. -/
theorem current_turn (h : Current u) {n : Nat} {s : Coordination Nat} {m m' : Member Nat}
    (t : Turn u.service s n m m') (ho : Orderly u.service → Orderly s)
    (hstarted : m'.started = m.started) (hclosed : m'.closed = false)
    (hlisteners : m'.listeners = m.listeners)
    (hnews : m.started = true →
      ∃ event, m'.queue.getLast? = some event ∧ event.up = m'.connected) :
    Current { u with service := s } := by
  obtain ⟨k, hg⟩ := h.owned n m t.found t.isOpen
  obtain ⟨x, hs⟩ := h.seated k n hg
  obtain rfl := Option.some.inj (t.found.symm.trans hs.found)
  obtain ⟨event, hevent, hup⟩ := hnews hs.started
  refine current_of_apart h (apart_turn t ho) (fun _ _ => rfl) (Or.inl hg)
    (Or.inl ⟨m', hg, t.self, hclosed, hstarted.trans hs.started, t.same.2.trans hs.path,
      hlisteners.trans hs.listeners, ?_, ?_⟩)
  · -- the last event in its queue is the one that the turn has added
    intro e he
    rw [hevent] at he
    rw [← Option.some.inj he, hup]
  · intro hempty
    rw [hempty] at hevent
    exact absurd hevent (by simp)

theorem current_disconnect (h : Current u) (id : String) :
    Current { u with service := (u.service.disconnect id).2 } := by
  rcases disconnect_cases u.service id with ⟨n, m, _, _, t, _⟩ | ⟨he, _⟩
  · refine current_turn h t (fun ho => orderly_disconnect ho id) (by simp [Member.cutOff])
      (by simpa [Member.cutOff] using t.isOpen) (by simp [Member.cutOff]) fun hstarted => ?_
    exact ⟨.disconnected, getLast?_cutOff hstarted t.isOpen,
      by simp [Member.cutOff, GroupEvent.up]⟩
  · rw [he]
    exact h

theorem current_reconnect (h : Current u) (id : String) :
    Current { u with service := (u.service.reconnect id).2 } := by
  rcases reconnect_cases u.service id with ⟨n, m, _, _, t, _⟩ | ⟨he, _⟩
  · refine current_turn h t (fun ho => orderly_reconnect ho id) (by simp [Member.back])
      (by simpa [Member.back] using t.isOpen) (by simp [Member.back]) fun hstarted => ?_
    exact ⟨.connected, getLast?_back _ hstarted t.isOpen, by simp [Member.back, GroupEvent.up]⟩
  · rw [he]
    exact h

/-! ## Delivery -/

theorem deliver_of_none {n : Nat} (hn : (u.service.takeEvent n).1 = none) : u.deliver n = u := by
  unfold deliver
  split
  · rfl
  · rename_i heq
    rw [heq] at hn
    exact absurd hn (by simp)

/-- A delivery to a seated elector takes the event off the queue of its member, and it hears it. -/
theorem deliver_of_seated {n : Nat} {m : Member Nat} (hs : Seated u k n m) {event : GroupEvent}
    {rest : List GroupEvent} (hq : m.queue = event :: rest) :
    u.deliver n = u.replace k ((u.elector k).hear m.id event).2
      (u.service.onMember n fun m => { m with queue := rest }) := by
  have htake : u.service.takeEvent n
      = (some (event, [k]), u.service.onMember n fun m => { m with queue := rest }) := by
    simp [takeEvent, hs.found, hq, hs.listeners]
  have hid : (u.service.onMember n fun m => { m with queue := rest }).idOf n = m.id := by
    simp [idOf, getElem?_onMember, hs.found]
  simp only [deliver, htake, List.foldl_cons, List.foldl_nil, hear, hid]
  rfl

/-- **An elector that has heard an event is up to those that are still waiting.** -/
theorem current_heard (h : Current u) {n : Nat} {m : Member Nat} (hs : Seated u k n m)
    {event : GroupEvent} {rest : List GroupEvent} (hq : m.queue = event :: rest) :
    Current (u.deliver n) := by
  rw [deliver_of_seated hs hq]
  refine current_of_apart h (apart_onMember _ n fun _ => rfl)
    (fun j hj => elector_replace_ne u hj _ _) (Or.inl hs.group)
    (Or.inl ⟨{ m with queue := rest }, ?_, ?_, hs.isOpen, hs.started, ?_, hs.listeners, ?_, ?_⟩)
  · rw [elector_replace_self]
    exact hs.group
  · rw [service_replace, getElem?_onMember, if_pos rfl, hs.found]
    rfl
  · rw [path, elector_replace_self]
    exact hs.path
  · intro e he
    refine hs.last e ?_
    rw [hq, List.getLast?_cons, he]
    rfl
  · -- the event was the last one, so it tells whether the session is up
    intro hempty
    rw [elector_replace_self, Elector.connected_hear]
    refine hs.last event ?_
    rw [hq, show rest = [] from hempty]
    rfl

theorem current_deliver (h : Current u) (n : Nat) : Current (u.deliver n) := by
  cases hm : u.service.members[n]? with
  | none =>
      rw [deliver_of_none (by simp [takeEvent, hm])]
      exact h
  | some m =>
      cases hq : m.queue with
      | nil =>
          rw [deliver_of_none (by simp [takeEvent, hm, hq])]
          exact h
      | cons event rest =>
          cases hc : m.closed with
          | true => exact absurd ((h.silent n m hm hc).symm.trans hq) (by simp)
          | false =>
              obtain ⟨k, hg⟩ := h.owned n m hm hc
              obtain ⟨x, hs⟩ := h.seated k n hg
              obtain rfl := Option.some.inj (hm.symm.trans hs.found)
              exact current_heard h hs hq

/-! ## Runs -/

/-- **Every step keeps the electors in their seats.** -/
theorem current_perform (h : Current u) (x : ElectionStep) : Current (u.perform x) := by
  cases x with
  | activate k => exact current_activate h k
  | deactivate k => exact current_deactivate h k
  | disconnect id => exact current_disconnect h id
  | reconnect id => exact current_reconnect h id
  | deliver n => exact current_deliver h n

/-- And so does every run. -/
theorem current_run (h : Current u) (steps : List ElectionStep) : Current (u.run steps) := by
  induction steps generalizing u with
  | nil => exact h
  | cons x rest ih => exact ih (current_perform h x)

end FleetScaler.Electorate
