import FleetScaler.Proofs.Membership.News

/-!
# The events of a call

Which events a call on a coordination service gives its members to hear is told by their standing at
that moment. The first start of an open member, its close, and the loss and the return of its
session are its turn: the member itself hears of the start and, once it has started, of its session,
and everybody else in line on its path hears `changed`. Every other call is heard by nobody.

`Coordination.events` is this law, and `served` says that every call keeps to it. It follows that no
change of mastership goes by in silence.
-/

namespace FleetScaler

variable {κ : Type}

/-! ## The law -/

namespace Coordination

/-- Whose turn a call is, if it is anybody's, and what that member itself is to hear. -/
def turnOf? (s : Coordination κ) : Request → Option (Nat × Option GroupEvent)
  | .join _ _ => none
  | .start k =>
    (s.members[k]?).bind fun m =>
      if m.closed || m.started then none else some (k, some .connected)
  | .close k => (s.members[k]?).bind fun m => if m.closed then none else some (k, none)
  | .disconnect id =>
    (s.number? id).bind fun k => (s.members[k]?).bind fun m =>
      if m.connected then some (k, if m.started then some .disconnected else none) else none
  | .reconnect id =>
    (s.number? id).bind fun k => (s.members[k]?).bind fun m =>
      if m.connected then none else some (k, if m.started then some .connected else none)

/-- The events that a call queues for the member with the number `n`. -/
def events (s : Coordination κ) (r : Request) (n : Nat) : List GroupEvent :=
  match s.turnOf? r with
  | none => []
  | some (k, own) =>
    if n = k then own.toList
    else
      match s.members[k]?, s.members[n]? with
      | some x, some m => if m.path = x.path ∧ m.inLine then [.changed] else []
      | _, _ => []

end Coordination

/-! ## What a turn does to the queues -/

/-- Whoever starts is told so. -/
theorem Member.queue_begun (m : Member κ) (place : Nat) (hc : m.closed = false) :
    (m.begun place).queue = m.queue ++ [.connected] := by
  simp [begun, enqueue, hc]

/-- A lost session is heard of by a member that has started. -/
theorem Member.queue_cutOff (m : Member κ) (hc : m.closed = false) :
    m.cutOff.queue
      = m.queue ++ (if m.started then some GroupEvent.disconnected else none).toList := by
  cases hs : m.started <;> simp [cutOff, enqueue, hc, hs]

/-- And so is one that has come back. -/
theorem Member.queue_back (m : Member κ) (place : Nat) (hc : m.closed = false) :
    (m.back place).queue
      = m.queue ++ (if m.started then some GroupEvent.connected else none).toList := by
  cases hs : m.started <;> simp [back, enqueue, hc, hs]

/-- Another member's turn is heard of by whoever is in line on its path. -/
theorem Member.queue_hearChange {path except : String} {m : Member κ} (hi : m.id ≠ except) :
    (m.hearChange path except).queue
      = m.queue ++ if m.path = path ∧ m.inLine then [.changed] else [] := by
  by_cases h : m.path = path ∧ m.inLine = true
  · rw [hearChange_of_inLine h.1 hi h.2, if_pos h]
  · rw [hearChange_of_not fun hn => h ⟨hn.1, hn.2.2⟩, if_neg h, List.append_nil]

/-- The event that tells a member whether its session is up. -/
def GroupEvent.ofSession (up : Bool) : GroupEvent := if up then .connected else .disconnected

/-- What its own turn makes of a member that is to hear `own`. -/
structure Member.TakesTurn (own : Option GroupEvent) (m m' : Member κ) : Prop where
  /-- A member that is gone hears nothing any more. -/
  gone : m'.closed = true → m' = m.gone ∧ own = none
  queue : m'.closed = false → m'.queue = m.queue ++ own.toList
  /-- A member that starts is told that it is connected, whether its session is up or not. -/
  starts : m.started = false → m'.started = true →
    own = some .connected ∧ m'.connected = m.connected
  /-- One that has started is told that its session is lost, or that it has come back. -/
  session : m.started = true → m'.closed = false →
    own = some (.ofSession m'.connected) ∧ m'.connected = !m.connected
  unstarted : m'.started = false → own = none ∧ m.started = false
  listeners : m'.listeners = m.listeners

namespace Member

variable {m m' : Member κ}

theorem takesTurn_begun (place : Nat) (hs : m.started = false) (hc : m.closed = false) :
    TakesTurn (some .connected) m (m.begun place) where
  gone h := absurd h (by simp [begun, hc])
  queue _ := m.queue_begun place hc
  starts _ _ := ⟨rfl, by simp [begun]⟩
  session h := absurd h (by simp [hs])
  unstarted h := absurd h (by simp [begun])
  listeners := by simp [begun]

theorem takesTurn_gone : TakesTurn none m m.gone where
  gone _ := ⟨rfl, rfl⟩
  queue h := absurd h (by simp [Member.gone])
  starts h h' := absurd (h.symm.trans h') (by simp)
  session _ h := absurd h (by simp [Member.gone])
  unstarted h := ⟨rfl, h⟩
  listeners := rfl

theorem takesTurn_cutOff (hu : m.connected = true) (hc : m.closed = false) :
    TakesTurn (if m.started then some .disconnected else none) m m.cutOff where
  gone h := absurd h (by simp [cutOff, hc])
  queue _ := m.queue_cutOff hc
  starts h h' := absurd h' (by simp [cutOff, h])
  session h _ := by simp [cutOff, h, hu, GroupEvent.ofSession]
  unstarted h := by
    have hs : m.started = false := by simpa [cutOff] using h
    simp [hs]
  listeners := by simp [cutOff]

theorem takesTurn_back (place : Nat) (hu : m.connected = false) (hc : m.closed = false) :
    TakesTurn (if m.started then some .connected else none) m (m.back place) where
  gone h := absurd h (by simp [back, hc])
  queue _ := m.queue_back place hc
  starts h h' := absurd h' (by simp [back, h])
  session h _ := by simp [back, h, hu, GroupEvent.ofSession]
  unstarted h := by
    have hs : m.started = false := by simpa [back] using h
    simp [hs]
  listeners := by simp [back]

/-- A started member hears of its own turn, unless it is gone. -/
theorem TakesTurn.hears {own : Option GroupEvent} (takes : TakesTurn own m m')
    (hs : m'.started = true) (hc : m'.closed = false) : own ≠ none := by
  cases h : m.started with
  | false => simp [(takes.starts h hs).1]
  | true => simp [(takes.session h hc).1]

end Member

namespace Coordination

variable {s : Coordination κ} {r : Request} {n : Nat} {m m' : Member κ}

/-- A call is nobody's turn: whoever has joined stays as it was, and so do the masters. -/
structure Idles (s : Coordination κ) (r : Request) : Prop where
  turn : s.turnOf? r = none
  members : ∀ (n : Nat) (m : Member κ), s.members[n]? = some m →
    (s.serve r).members[n]? = some m
  masters : ∀ path, (s.serve r).masterOf path = s.masterOf path

theorem idles_of_eq (hr : s.turnOf? r = none) (he : s.serve r = s) : Idles s r where
  turn := hr
  members n m hm := by rw [he]; exact hm
  masters path := by rw [he]

/-- A member that joins is in no line yet. -/
theorem idles_join (s : Coordination κ) (path nodeType : String) :
    Idles s (.join path nodeType) := by
  rcases join_cases s path nodeType with ⟨_, he⟩ | ⟨_, _, hms, _⟩
  · exact idles_of_eq rfl (congrArg Prod.snd he)
  · refine ⟨rfl, fun n m hm => ?_, fun p => ?_⟩
    · have hlt := (List.getElem?_eq_some_iff.mp hm).1
      rw [serve, hms, List.getElem?_append_left hlt, hm]
    · have hline : (s.serve (.join path nodeType)).line p = s.line p := by
        simp [serve, line, hms, Member.inLine]
      rw [masterOf, hline, masterOf]

/-- Nobody's session is lost twice. -/
theorem turnOf?_disconnect_eq_none {id : String}
    (h : ∀ k m, s.number? id = some k → s.members[k]? = some m → m.connected = false) :
    s.turnOf? (.disconnect id) = none := by
  rw [turnOf?, Option.bind_eq_none_iff]
  intro k hk
  rw [Option.bind_eq_none_iff]
  intro m hm
  simp [h k m hk hm]

/-- And nobody's comes back twice. -/
theorem turnOf?_reconnect_eq_none {id : String}
    (h : ∀ k m, s.number? id = some k → s.members[k]? = some m → m.connected = true) :
    s.turnOf? (.reconnect id) = none := by
  rw [turnOf?, Option.bind_eq_none_iff]
  intro k hk
  rw [Option.bind_eq_none_iff]
  intro m hm
  simp [h k m hk hm]

/-- A call is nobody's turn, or it is the turn of one member, which hears what it is to hear. -/
theorem turnOf?_cases (s : Coordination κ) (r : Request) :
    Idles s r ∨ ∃ k own m m', s.turnOf? r = some (k, own) ∧ Turn s (s.serve r) k m m' ∧
      m.TakesTurn own m' := by
  cases r with
  | join path nodeType => exact Or.inl (idles_join s path nodeType)
  | start k =>
      rcases start_cases s k with ⟨m, hs, t, _, _⟩ | ⟨he, hidle⟩
      · refine Or.inr ⟨k, _, m, _, ?_, t, Member.takesTurn_begun _ hs t.isOpen⟩
        simp [turnOf?, t.found, t.isOpen, hs]
      · refine Or.inl (idles_of_eq ?_ he)
        rw [turnOf?, Option.bind_eq_none_iff]
        intro m hm
        rw [if_pos (by simpa using hidle m hm)]
  | close k =>
      rcases close_cases s k with ⟨m, t, _⟩ | ⟨he, hidle⟩
      · refine Or.inr ⟨k, _, m, _, ?_, t, Member.takesTurn_gone⟩
        simp [turnOf?, t.found, t.isOpen]
      · refine Or.inl (idles_of_eq ?_ he)
        rw [turnOf?, Option.bind_eq_none_iff]
        intro m hm
        rw [if_pos (hidle m hm)]
  | disconnect id =>
      rcases disconnect_cases s id with ⟨k, m, hk, hu, t, _, _⟩ | ⟨he, hidle⟩
      · refine Or.inr ⟨k, _, m, _, ?_, t, Member.takesTurn_cutOff hu t.isOpen⟩
        simp [turnOf?, hk, t.found, hu]
      · exact Or.inl (idles_of_eq (turnOf?_disconnect_eq_none hidle) (congrArg Prod.snd he))
  | reconnect id =>
      rcases reconnect_cases s id with ⟨k, m, hk, hu, t, _, _⟩ | ⟨he, hidle⟩
      · refine Or.inr ⟨k, _, m, _, ?_, t, Member.takesTurn_back _ hu t.isOpen⟩
        simp [turnOf?, hk, t.found, hu]
      · exact Or.inl (idles_of_eq (turnOf?_reconnect_eq_none hidle) (congrArg Prod.snd he))

/-- The answer to a loss of a session says whether it has been anybody's turn. -/
theorem isSome_turnOf?_disconnect (s : Coordination κ) (id : String) :
    (s.turnOf? (.disconnect id)).isSome = (s.disconnect id).1 := by
  rcases disconnect_cases s id with ⟨k, m, hk, hu, t, _, ha⟩ | ⟨he, hidle⟩
  · simp [turnOf?, hk, t.found, hu, ha]
  · rw [turnOf?_disconnect_eq_none hidle, he]
    rfl

/-- And so does the answer to its return. -/
theorem isSome_turnOf?_reconnect (s : Coordination κ) (id : String) :
    (s.turnOf? (.reconnect id)).isSome = (s.reconnect id).1 := by
  rcases reconnect_cases s id with ⟨k, m, hk, hu, t, _, ha⟩ | ⟨he, hidle⟩
  · simp [turnOf?, hk, t.found, hu, ha]
  · rw [turnOf?_reconnect_eq_none hidle, he]
    rfl

/-! ## Calls keep to the law -/

/-- At a turn, a member other than the one whose turn it is hears `changed` if it is in line on the
same path. -/
theorem events_of_turn {k : Nat} {own : Option GroupEvent} {x : Member κ}
    (hr : s.turnOf? r = some (k, own)) (hk : s.members[k]? = some x) (hn : n ≠ k)
    (hm : s.members[n]? = some m) :
    s.events r n = if m.path = x.path ∧ m.inLine then [.changed] else [] := by
  simp only [events, hr, if_neg hn, hk, hm]

end Coordination

/-- What a call makes of a member for which it queues `events`. -/
structure Member.Served (events : List GroupEvent) (m m' : Member κ) : Prop where
  listeners : m'.listeners = m.listeners
  started : m.started = true → m'.started = true
  /-- A member that the call leaves open has the events behind those that were waiting, and one that
  it closes has nothing to hear any more. -/
  queue : (m'.closed = m.closed ∧ m'.queue = m.queue ++ events)
    ∨ (m.closed = false ∧ m' = m.gone ∧ events = [])
  unstarted : m'.started = false → events = []

namespace Coordination

variable {s : Coordination κ} {r : Request} {n : Nat} {m m' : Member κ}

/-- **A call queues what it has to.** -/
theorem served (ho : Orderly s) (r : Request) (hm : s.members[n]? = some m) :
    ∃ m', (s.serve r).members[n]? = some m' ∧ m.Served (s.events r n) m' := by
  rcases turnOf?_cases s r with ⟨hr, hsame, _⟩ | ⟨k, own, x, x', hr, t, takes⟩
  · have hnone : s.events r n = [] := by simp [events, hr]
    exact ⟨m, hsame n m hm, rfl, id, Or.inl ⟨rfl, by simp [hnone]⟩, fun _ => hnone⟩
  · by_cases hn : n = k
    · -- it is the turn of the member itself
      subst hn
      obtain rfl := Option.some.inj (hm.symm.trans t.found)
      have hown : s.events r n = own.toList := by simp [events, hr]
      refine ⟨x', t.self, takes.listeners, fun hs => ?_, ?_, fun hs => by
        simp [hown, (takes.unstarted hs).1]⟩
      · refine Decidable.byContradiction fun hs' => ?_
        exact absurd (hs.symm.trans (takes.unstarted (by simpa using hs')).2) (by simp)
      · cases hc : x'.closed with
        | false => exact Or.inl ⟨t.isOpen.symm, by rw [hown, takes.queue hc]⟩
        | true =>
            obtain ⟨hx, rfl⟩ := takes.gone hc
            exact Or.inr ⟨t.isOpen, hx, hown⟩
    · have hevents := events_of_turn hr t.found hn hm
      refine ⟨m.hearChange x.path x.id, by rw [t.others n hn, hm]; rfl, by simp, by simp,
        Or.inl ⟨by simp, ?_⟩, fun hs => ?_⟩
      · rw [hevents, Member.queue_hearChange]
        exact fun he => hn (ho.number_unique hm t.found he)
      · have hline : ¬ (m.path = x.path ∧ m.inLine = true) := fun h =>
          absurd (started_of_inLine h.2) (by simpa using hs)
        rw [hevents, if_neg hline]

/-- Nothing is queued for somebody who has not joined yet, and nothing is waiting for a newcomer. -/
theorem queue_newcomer (r : Request) (hn : s.members[n]? = none)
    (hm : (s.serve r).members[n]? = some m) :
    m.queue = [] ∧ m.started = false ∧ m.closed = false := by
  rcases serve_cases s r with he | ⟨path, nodeType, hms, _⟩ | ⟨k, x, x', t, _⟩
  · rw [he, hn] at hm
    exact absurd hm (by simp)
  · rw [hms, List.getElem?_append_right (List.getElem?_eq_none_iff.mp hn),
      List.getElem?_singleton] at hm
    split at hm
    · obtain rfl := Option.some.inj hm
      exact ⟨rfl, rfl, rfl⟩
    · exact absurd hm (by simp)
  · have hlt := (List.getElem?_eq_some_iff.mp hm).1
    rw [t.length] at hlt
    exact absurd hn (by simp [hlt])

theorem events_of_none (r : Request) (hn : s.members[n]? = none) : s.events r n = [] := by
  rcases turnOf?_cases s r with ⟨hr, _⟩ | ⟨k, own, x, x', hr, t, _⟩
  · simp [events, hr]
  · have hne : n ≠ k := by
      rintro rfl
      exact absurd (hn.symm.trans t.found) (by simp)
    simp [events, hr, hne, hn]

/-! ## Changes of mastership -/

/-- A turn leaves the masters of other paths as they are. -/
theorem Turn.masterOf_ne {s' : Coordination κ} {k : Nat} {x x' : Member κ} (t : Turn s s' k x x')
    (ho : Orderly s) (ho' : Orderly s') {path : String} (hp : path ≠ x.path) :
    s'.masterOf path = s.masterOf path := by
  have hstands : ∀ j, s'.standsOn path j = s.standsOn path j := by
    intro j
    by_cases hj : j = k
    · subst hj
      rw [t.standsOn_self, standsOn_of_found t.found]
      simp [Ne.symm hp]
    · exact t.standsOn_ne hj path
  have hplace : ∀ j, s.standsOn path j = true → s'.place j = s.place j := by
    intro j hj
    refine t.place_ne ?_
    rintro rfl
    rw [standsOn_of_found t.found] at hj
    simp [Ne.symm hp] at hj
  rcases firstInLine_line s path with ⟨_, hnone⟩ | ⟨j, _, _, _, hfirst⟩
  · rw [masterOf_of_empty hnone, masterOf_of_empty fun j => (hstands j).trans (hnone j)]
  · obtain ⟨y, hy, _, _⟩ := standsOn_iff.mp hfirst.1
    obtain ⟨y', hy', hid, _⟩ := t.kept j y hy
    have hfirst' := (first_congr hstands hplace).mpr hfirst
    rw [ho.masterOf_of_first hfirst, ho'.masterOf_of_first hfirst', idOf_of hy, idOf_of hy', hid]

/-- **No change of mastership goes by in silence**: when a call changes the master of a path, every
started member of the path whose session is up or who was the master has been given something to
hear, unless it is gone. -/
theorem events_of_masterOf_ne (ho : Orderly s) (r : Request) {path : String}
    (hne : (s.serve r).masterOf path ≠ s.masterOf path)
    (hm' : (s.serve r).members[n]? = some m') (hp : m'.path = path) (hs : m'.started = true)
    (hc : m'.closed = false) (hl : m'.connected = true ∨ s.isMaster n = true) :
    s.events r n ≠ [] := by
  rcases turnOf?_cases s r with ⟨_, _, hsame⟩ | ⟨k, own, x, x', hr, t, takes⟩
  · exact absurd (hsame path) hne
  · have hpath : path = x.path := Decidable.byContradiction fun hpx =>
      hne (t.masterOf_ne ho (orderly_serve ho r) hpx)
    rcases t.member hm' with ⟨rfl, rfl⟩ | ⟨hn, y, hy, rfl⟩
    · cases hv : own with
      | none => exact absurd hv (takes.hears hs hc)
      | some event => simp [events, hr, hv]
    · simp only [Member.hearChange_path, Member.hearChange_started, Member.hearChange_closed,
        Member.hearChange_connected] at hp hs hc hl
      have hline : y.inLine = true := by
        rcases hl with hu | hmaster
        · simp [Member.inLine, hs, hc, hu]
        · obtain ⟨z, hz, _, hline⟩ := standsOn_iff.mp ((ho.isMaster_iff_first hy).mp hmaster).1
          rwa [Option.some.inj (hy.symm.trans hz)]
      rw [events_of_turn hr t.found hn hy, if_pos ⟨hp.trans hpath, hline⟩]
      simp

/-! ## All of it -/

/-- What a service owes its members at a call. -/
structure Announces (s : Coordination κ) (r : Request) : Prop where
  /-- Everybody has the events of the call queued behind those that were waiting, but for a member
  that the call closes. -/
  queues : ∀ (n : Nat) (m : Member κ), s.members[n]? = some m →
    ∃ m', (s.serve r).members[n]? = some m' ∧ m.Served (s.events r n) m'
  /-- Nothing is waiting for a newcomer. -/
  newcomer : ∀ (n : Nat) (m' : Member κ), s.members[n]? = none →
    (s.serve r).members[n]? = some m' → m'.queue = []
  /-- The answer about a session says whether somebody's turn has come. -/
  answers : ∀ id, (r = .disconnect id → (s.turnOf? r).isSome = (s.disconnect id).1) ∧
    (r = .reconnect id → (s.turnOf? r).isSome = (s.reconnect id).1)
  /-- A new master is made known to every started member of the path whose session is up or who was
  the master. -/
  mastership : ∀ (path : String) (n : Nat) (m' : Member κ),
    (s.serve r).masterOf path ≠ s.masterOf path → (s.serve r).members[n]? = some m' →
    m'.path = path → m'.started = true → m'.closed = false →
    m'.connected = true ∨ s.isMaster n = true → s.events r n ≠ []

theorem Orderly.announces (ho : Orderly s) (r : Request) : Announces s r where
  queues _ _ hm := served ho r hm
  newcomer _ _ hn hm := (queue_newcomer r hn hm).1
  answers id := by
    constructor <;> rintro rfl
    · exact isSome_turnOf?_disconnect s id
    · exact isSome_turnOf?_reconnect s id
  mastership _ _ _ hne hm hp hs hc hl := events_of_masterOf_ne ho r hne hm hp hs hc hl

end Coordination

end FleetScaler
