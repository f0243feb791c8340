import FleetScaler.Proofs.Membership.Master

/-!
# A service is a queue for each path

What a coordination service amounts to can be said without places and sequence
numbers. A `Roll` keeps one queue for each path: a member goes to its end when it
starts with its session up, and when its session comes back after it has started;
it drops out when it closes and when its session is lost. Everything else leaves
the queues alone.

`Serves s r` ties a service to a roll, every call keeps the tie, and so whatever a
service says about masters can be read off the queues.
-/

namespace FleetScaler

/-! ## Calls -/

/-- A call that may move members into a line or out of it. -/
inductive Request where
  | join (path nodeType : String)
  | start (number : Nat)
  | close (number : Nat)
  | disconnect (id : String)
  | reconnect (id : String)
  deriving DecidableEq, Repr

namespace Coordination

variable {κ : Type}

/-- The service after a call. -/
def serve (s : Coordination κ) : Request → Coordination κ
  | .join path nodeType => (s.join path nodeType).2
  | .start k => (s.start k).2
  | .close k => s.close k
  | .disconnect id => (s.disconnect id).2
  | .reconnect id => (s.reconnect id).2

/-- The service after some calls, one after the other. -/
def serveAll (s : Coordination κ) (requests : List Request) : Coordination κ :=
  requests.foldl serve s

end Coordination

/-! ## Rolls -/

/-- What the calls so far have made of a member. -/
structure Standing where
  id : String
  path : String
  started : Bool := false
  /-- The member's session is up. -/
  connected : Bool := true
  closed : Bool := false
  deriving DecidableEq, Repr

/-- Who joined, and the queue of each path, first member first. -/
structure Roll where
  standings : List Standing := []
  queue : String → List Nat := fun _ => []

namespace Roll

/-- The number of the open member with the given id. -/
def number? (r : Roll) (id : String) : Option Nat :=
  r.standings.findIdx? fun m => m.id = id && !m.closed

/-- Changes the standing of a member. -/
def mark (r : Roll) (k : Nat) (f : Standing → Standing) : Roll :=
  { r with standings := r.standings.modify k f }

/-- Puts a member at the end of the queue of a path. -/
def push (r : Roll) (path : String) (k : Nat) : Roll :=
  { r with queue := fun p => if p = path then r.queue p ++ [k] else r.queue p }

/-- Takes a member out of its queue, if it is in one. -/
def pull (r : Roll) (k : Nat) : Roll :=
  { r with queue := fun p => (r.queue p).filter (· ≠ k) }

/-- The roll after a call. -/
def serve (r : Roll) : Request → Roll
  | .join path nodeType =>
    if path = "" then r
    else
      { r with standings := r.standings ++
          [{ id := Coordination.memberId path nodeType r.standings.length, path }] }
  | .start k =>
    match r.standings[k]? with
    | none => r
    | some m =>
      if m.closed || m.started then r
      else
        let r := r.mark k fun m => { m with started := true }
        if m.connected then r.push m.path k else r
  | .close k =>
    match r.standings[k]? with
    | none => r
    | some m =>
      if m.closed then r else (r.mark k fun m => { m with closed := true }).pull k
  | .disconnect id =>
    match r.number? id with
    | none => r
    | some k =>
      match r.standings[k]? with
      | none => r
      | some m =>
        if m.connected then (r.mark k fun m => { m with connected := false }).pull k else r
  | .reconnect id =>
    match r.number? id with
    | none => r
    | some k =>
      match r.standings[k]? with
      | none => r
      | some m =>
        if m.connected then r
        else
          let r := r.mark k fun m => { m with connected := true }
          if m.started then r.push m.path k else r

/-- The roll after some calls, one after the other. -/
def serveAll (r : Roll) (requests : List Request) : Roll := requests.foldl serve r

end Roll

/-- The standing of a member. -/
def Member.standing {κ : Type} (m : Member κ) : Standing where
  id := m.id
  path := m.path
  started := m.started
  connected := m.connected
  closed := m.closed

namespace Coordination

variable {κ : Type} {s s' : Coordination κ} {r : Roll}

/-! ## What a turn makes of a line -/

theorem Turn.standsOn_ne {k : Nat} {m m' : Member κ} (t : Turn s s' k m m') {j : Nat}
    (hj : j ≠ k) (path : String) : s'.standsOn path j = s.standsOn path j := by
  rw [standsOn, standsOn, t.others j hj]
  cases s.members[j]? <;> simp

theorem Turn.place_ne {k : Nat} {m m' : Member κ} (t : Turn s s' k m m') {j : Nat}
    (hj : j ≠ k) : s'.place j = s.place j := by
  rw [place, place, t.others j hj]
  cases s.members[j]? <;> simp

theorem Turn.standsOn_self {k : Nat} {m m' : Member κ} (t : Turn s s' k m m') (path : String) :
    s'.standsOn path k = (m.path = path && m'.inLine) := by
  simp [standsOn, t.self, t.same.2]

theorem standsOn_of_found {k : Nat} {m : Member κ} (h : s.members[k]? = some m) (path : String) :
    s.standsOn path k = (m.path = path && m.inLine) := by
  simp [standsOn, h]

theorem Turn.standings {k : Nat} {m m' : Member κ} (t : Turn s s' k m m')
    {f : Standing → Standing} (hf : m'.standing = f m.standing) :
    s'.members.map Member.standing = (s.members.map Member.standing).modify k f := by
  refine List.ext_getElem? fun j => ?_
  rw [List.getElem?_map, List.getElem?_modify, List.getElem?_map]
  by_cases hj : k = j
  · subst hj
    simp [t.self, t.found, hf]
  · rw [t.others j (Ne.symm hj)]
    cases s.members[j]? <;> simp [hj, Member.standing]

/-! ## The tie between a service and a roll -/

/-- The roll tells who stands in which line, in which order. -/
structure Serves (s : Coordination κ) (r : Roll) : Prop where
  standings : r.standings = s.members.map Member.standing
  members : ∀ path k, k ∈ r.queue path ↔ s.standsOn path k = true
  order : ∀ path, (r.queue path).Pairwise fun j k => s.place j < s.place k

theorem serves_empty : Serves ({} : Coordination κ) {} where
  standings := rfl
  members := by intro path k; simp [standsOn]
  order := by intro path; exact List.Pairwise.nil

theorem Serves.getElem? (h : Serves s r) (k : Nat) :
    r.standings[k]? = (s.members[k]?).map Member.standing := by
  rw [h.standings, List.getElem?_map]

theorem Serves.number? (h : Serves s r) (id : String) : r.number? id = s.number? id := by
  rw [Roll.number?, h.standings, List.findIdx?_map]
  rfl

/-- A member that is not in line is in no queue. -/
theorem Serves.ne_of_mem (h : Serves s r) {k : Nat} {m : Member κ} (hk : s.members[k]? = some m)
    (hm : m.inLine = false) (path : String) : ∀ x ∈ r.queue path, x ≠ k := by
  rintro x hx rfl
  have hs := (h.members path x).mp hx
  rw [standsOn_of_found hk, hm] at hs
  simp at hs

/-- A turn leaves the places of all others as they are. -/
theorem Turn.order {k : Nat} {m m' : Member κ} (t : Turn s s' k m m') {q : List Nat}
    (hne : ∀ x ∈ q, x ≠ k) (ho : q.Pairwise fun i j => s.place i < s.place j) :
    q.Pairwise fun i j => s'.place i < s'.place j := by
  refine ho.imp_of_mem ?_
  intro i j hi hj hlt
  rwa [t.place_ne (hne i hi), t.place_ne (hne j hj)]

/-- A member that is in line neither before nor after its turn moves nobody. -/
theorem serves_keep (h : Serves s r) {k : Nat} {m m' : Member κ} (t : Turn s s' k m m')
    {f : Standing → Standing} (hf : m'.standing = f m.standing)
    (hm : m.inLine = false) (hm' : m'.inLine = false) : Serves s' (r.mark k f) where
  standings := by rw [t.standings hf, ← h.standings]; rfl
  members := by
    intro path j
    show j ∈ r.queue path ↔ _
    rw [h.members path j]
    by_cases hj : j = k
    · subst hj
      rw [t.standsOn_self, standsOn_of_found t.found, hm, hm']
    · rw [t.standsOn_ne hj]
  order path := t.order (h.ne_of_mem t.found hm path) (h.order path)

/-- A member that is in line no longer after its turn drops out. -/
theorem serves_pull (h : Serves s r) {k : Nat} {m m' : Member κ} (t : Turn s s' k m m')
    {f : Standing → Standing} (hf : m'.standing = f m.standing)
    (hm' : m'.inLine = false) : Serves s' ((r.mark k f).pull k) where
  standings := by rw [t.standings hf, ← h.standings]; rfl
  members := by
    intro path j
    show j ∈ (r.queue path).filter (· ≠ k) ↔ _
    rw [List.mem_filter, h.members path j]
    by_cases hj : j = k
    · subst hj
      rw [t.standsOn_self, hm']
      simp
    · rw [t.standsOn_ne hj]
      simp [hj]
  order := by
    intro path
    have hne : ∀ x ∈ (r.queue path).filter (· ≠ k), x ≠ k := by
      intro x hx
      simpa using (List.mem_filter.mp hx).2
    exact t.order hne ((h.order path).filter _)

/-- A member that comes into line at its turn, with the next place, goes to the end. -/
theorem serves_push (h : Serves s r) (ho : Orderly s) {k : Nat} {m m' : Member κ}
    (t : Turn s s' k m m') {f : Standing → Standing} (hf : m'.standing = f m.standing)
    (hm : m.inLine = false) (hm' : m'.inLine = true) (hp : m'.sequence = s.nextSequence) :
    Serves s' ((r.mark k f).push m.path k) := by
  have hne := h.ne_of_mem t.found hm
  refine ⟨by rw [t.standings hf, ← h.standings]; rfl, ?_, ?_⟩
  · intro path j
    show j ∈ (if path = m.path then r.queue path ++ [k] else r.queue path) ↔ _
    by_cases hj : j = k
    · subst hj
      rw [t.standsOn_self, hm']
      by_cases hpath : path = m.path
      · simp [hpath]
      · rw [if_neg hpath]
        have hout : ¬ j ∈ r.queue path := fun hx => hne path j hx rfl
        simp [hout, Ne.symm hpath]
    · rw [t.standsOn_ne hj, ← h.members path j]
      split <;> simp [hj]
  · intro path
    have hold := t.order (hne path) (h.order path)
    show (if path = m.path then r.queue path ++ [k] else r.queue path).Pairwise _
    split
    · refine List.pairwise_append.mpr ⟨hold, List.pairwise_singleton _ _, ?_⟩
      intro i hi j hj
      obtain rfl := List.mem_singleton.mp hj
      -- everybody in line started, so the next place is behind theirs
      obtain ⟨x, hx, _, hl⟩ := standsOn_iff.mp ((h.members path i).mp hi)
      rw [t.place_ne (hne path i hi), place_of t.self, place_of hx, hp]
      exact ho.behind i x hx (started_of_inLine hl)
    · exact hold

/-! ## Every call keeps the tie -/

theorem serves_append (h : Serves s r) {path nodeType : String}
    (hm : s'.members
      = s.members ++ [{ id := memberId path nodeType s.members.length, path }]) :
    Serves s' { r with standings := r.standings ++
      [{ id := memberId path nodeType r.standings.length, path }] } := by
  have hlen : r.standings.length = s.members.length := by rw [h.standings, List.length_map]
  -- a number has the member that it had, or that of the newcomer
  have look : ∀ j : Nat, s'.members[j]? = s.members[j]? ∨
      (s.members[j]? = none ∧ ∃ m : Member κ, s'.members[j]? = some m ∧ m.inLine = false) := by
    intro j
    rw [hm]
    rcases Nat.lt_trichotomy j s.members.length with hlt | rfl | hgt
    · exact Or.inl (List.getElem?_append_left hlt)
    · exact Or.inr ⟨by simp, { id := memberId path nodeType s.members.length, path }, by simp, rfl⟩
    · refine Or.inl ?_
      rw [List.getElem?_eq_none (by simp; omega), List.getElem?_eq_none (by omega)]
  have stands : ∀ p j, s'.standsOn p j = s.standsOn p j := by
    intro p j
    rcases look j with he | ⟨hn, m, hs, hl⟩
    · rw [standsOn, standsOn, he]
    · rw [standsOn_of_found hs, hl, standsOn, hn]
      simp
  have places : ∀ p j, s.standsOn p j = true → s'.place j = s.place j := by
    intro p j hj
    rcases look j with he | ⟨hn, _⟩
    · rw [place, place, he]
    · simp [standsOn, hn] at hj
  refine ⟨by rw [hm, hlen, h.standings, List.map_append]; rfl, ?_, ?_⟩
  · intro p j
    rw [stands]
    exact h.members p j
  · intro p
    refine (h.order p).imp_of_mem ?_
    intro i j hi hj hlt
    rwa [places p i ((h.members p i).mp hi), places p j ((h.members p j).mp hj)]

theorem serves_join (h : Serves s r) (path nodeType : String) :
    Serves (s.join path nodeType).2 (r.serve (.join path nodeType)) := by
  rcases join_cases s path nodeType with ⟨hp, he⟩ | ⟨hp, _, hm, _⟩
  · rw [he, Roll.serve, if_pos hp]; exact h
  · rw [Roll.serve, if_neg hp]; exact serves_append h hm

theorem serves_start (h : Serves s r) (ho : Orderly s) (k : Nat) :
    Serves (s.start k).2 (r.serve (.start k)) := by
  rw [Roll.serve, h.getElem? k]
  rcases start_cases s k with ⟨m, hs, t, _, _⟩ | ⟨he, hn⟩
  · have hf : (m.begun s.nextSequence).standing = { m.standing with started := true } := by
      simp [Member.standing, Member.begun]
    have hout : m.inLine = false := by simp [Member.inLine, hs]
    simp only [t.found, Option.map_some, Member.standing, t.isOpen, hs, Bool.or_self,
      Bool.false_eq_true, if_false]
    by_cases hu : m.connected = true
    · rw [if_pos hu]
      refine serves_push h ho t hf hout ?_ (by simp [Member.begun])
      simp [Member.inLine, Member.begun, hu, t.isOpen]
    · rw [if_neg hu]
      refine serves_keep h t hf hout ?_
      simp [Member.inLine, Member.begun, hu]
  · rw [he]
    cases hm : s.members[k]? with
    | none => exact h
    | some m =>
        have hor : (m.closed || m.started) = true := by simpa using hn m hm
        simp only [Option.map_some, Member.standing, hor, if_true]
        exact h

theorem serves_close (h : Serves s r) (k : Nat) : Serves (s.close k) (r.serve (.close k)) := by
  rw [Roll.serve, h.getElem? k]
  rcases close_cases s k with ⟨m, t, _⟩ | ⟨he, hn⟩
  · simp only [t.found, Option.map_some, Member.standing, t.isOpen, Bool.false_eq_true, if_false]
    exact serves_pull h t rfl (by simp [Member.inLine, Member.gone])
  · rw [he]
    cases hm : s.members[k]? with
    | none => exact h
    | some m =>
        simp only [Option.map_some, Member.standing, hn m hm, if_true]
        exact h

theorem serves_disconnect (h : Serves s r) (id : String) :
    Serves (s.disconnect id).2 (r.serve (.disconnect id)) := by
  rw [Roll.serve, h.number? id]
  rcases disconnect_cases s id with ⟨k, m, hk, hu, t, _, _⟩ | ⟨he, hn⟩
  · have hf : m.cutOff.standing = { m.standing with connected := false } := by
      simp [Member.standing, Member.cutOff]
    simp only [hk, h.getElem? k, t.found, Option.map_some, Member.standing, hu, if_true]
    exact serves_pull h t hf (by simp [Member.inLine, Member.cutOff])
  · rw [he]
    cases hk : s.number? id with
    | none => exact h
    | some k =>
        obtain ⟨m, hm, _, _⟩ := of_number? hk
        simp only [h.getElem? k, hm, Option.map_some, Member.standing, hn k m hk hm,
          Bool.false_eq_true, if_false]
        exact h

theorem serves_reconnect (h : Serves s r) (ho : Orderly s) (id : String) :
    Serves (s.reconnect id).2 (r.serve (.reconnect id)) := by
  rw [Roll.serve, h.number? id]
  rcases reconnect_cases s id with ⟨k, m, hk, hu, t, _, _⟩ | ⟨he, hn⟩
  · have hf : (m.back s.nextSequence).standing = { m.standing with connected := true } := by
      simp [Member.standing, Member.back]
    have hout : m.inLine = false := by simp [Member.inLine, hu]
    simp only [hk, h.getElem? k, t.found, Option.map_some, Member.standing, hu,
      Bool.false_eq_true, if_false]
    by_cases hs : m.started = true
    · rw [if_pos hs]
      refine serves_push h ho t hf hout ?_ (by simp [Member.back])
      simp [Member.inLine, Member.back, hs, t.isOpen]
    · rw [if_neg hs]
      refine serves_keep h t hf hout ?_
      simp [Member.inLine, Member.back, hs]
  · rw [he]
    cases hk : s.number? id with
    | none => exact h
    | some k =>
        obtain ⟨m, hm, _, _⟩ := of_number? hk
        simp only [h.getElem? k, hm, Option.map_some, Member.standing, hn k m hk hm, if_true]
        exact h

theorem orderly_serve (h : Orderly s) (q : Request) : Orderly (s.serve q) := by
  cases q with
  | join path nodeType => exact orderly_join h path nodeType
  | start k => exact orderly_start h k
  | close k => exact orderly_close h k
  | disconnect id => exact orderly_disconnect h id
  | reconnect id => exact orderly_reconnect h id

/-- **Every call keeps the tie.** -/
theorem serves_serve (h : Serves s r) (ho : Orderly s) (q : Request) :
    Serves (s.serve q) (r.serve q) := by
  cases q with
  | join path nodeType => exact serves_join h path nodeType
  | start k => exact serves_start h ho k
  | close k => exact serves_close h k
  | disconnect id => exact serves_disconnect h id
  | reconnect id => exact serves_reconnect h ho id

theorem serves_serveAll (requests : List Request) (h : Serves s r) (ho : Orderly s) :
    Serves (s.serveAll requests) (r.serveAll requests) ∧ Orderly (s.serveAll requests) := by
  induction requests generalizing s r with
  | nil => exact ⟨h, ho⟩
  | cons q rest ih => exact ih (serves_serve h ho q) (orderly_serve ho q)

/-! ## Counters -/

/-- A call does nothing, adds a member, or is a turn; at most one place is handed out. -/
theorem serve_cases (s : Coordination κ) (q : Request) :
    s.serve q = s ∨
    (∃ path nodeType, (s.serve q).members
        = s.members ++ [{ id := memberId path nodeType s.members.length, path }]
      ∧ (s.serve q).nextSequence = s.nextSequence) ∨
    (∃ k m m', Turn s (s.serve q) k m m' ∧ (s.serve q).nextSequence ≤ s.nextSequence + 1) := by
  cases q with
  | join path nodeType =>
      rcases join_cases s path nodeType with ⟨_, he⟩ | ⟨_, _, hm, hn⟩
      · exact Or.inl (congrArg Prod.snd he)
      · exact Or.inr (Or.inl ⟨path, nodeType, hm, hn⟩)
  | start k =>
      rcases start_cases s k with ⟨m, _, t, hn, _⟩ | ⟨he, _⟩
      · exact Or.inr (Or.inr ⟨k, m, _, t, Nat.le_of_eq hn⟩)
      · exact Or.inl he
  | close k =>
      rcases close_cases s k with ⟨m, t, hn⟩ | ⟨he, _⟩
      · exact Or.inr (Or.inr ⟨k, m, _, t, Nat.le_succ_of_le (Nat.le_of_eq hn)⟩)
      · exact Or.inl he
  | disconnect id =>
      rcases disconnect_cases s id with ⟨k, m, _, _, t, hn, _⟩ | ⟨he, _⟩
      · exact Or.inr (Or.inr ⟨k, m, _, t, Nat.le_succ_of_le (Nat.le_of_eq hn)⟩)
      · exact Or.inl (congrArg Prod.snd he)
  | reconnect id =>
      rcases reconnect_cases s id with ⟨k, m, _, _, t, hn, _⟩ | ⟨he, _⟩
      · exact Or.inr (Or.inr ⟨k, m, _, t, Nat.le_of_eq hn⟩)
      · exact Or.inl (congrArg Prod.snd he)

/-- Neither counter gets beyond the number of calls. -/
theorem counters_serveAll (s : Coordination κ) (requests : List Request) :
    (s.serveAll requests).members.length ≤ s.members.length + requests.length
      ∧ (s.serveAll requests).nextSequence ≤ s.nextSequence + requests.length := by
  induction requests generalizing s with
  | nil => exact ⟨Nat.le_refl _, Nat.le_refl _⟩
  | cons q rest ih =>
      have hstep : (s.serve q).members.length ≤ s.members.length + 1
          ∧ (s.serve q).nextSequence ≤ s.nextSequence + 1 := by
        rcases serve_cases s q with he | ⟨path, nodeType, hm, hn⟩ | ⟨k, m, m', t, hn⟩
        · rw [he]; omega
        · rw [hm, hn]; simp
        · rw [t.length]; exact ⟨Nat.le_succ _, hn⟩
      have hrest := ih (s.serve q)
      rw [List.length_cons]
      show (serveAll (s.serve q) rest).members.length ≤ _
        ∧ (serveAll (s.serve q) rest).nextSequence ≤ _
      omega

/-! ## The service as its queues -/

/--
**A coordination service is a queue for each path.**

After any calls on a new service, let `q` be the queues of the roll. Then

* the members in line on a path, in the order of their places, are the queue of
  the path;
* the master is the head of the queue, and there is none exactly if it is empty;
* the head of the queue of its path is told that it is the master, and nobody else;
* to start a closed member fails and changes nothing;
* the members may be gone through in any order, in search of the master or of an
  id, for the result is the same;
* neither counter has gone beyond the number of calls.
-/
theorem service_refines_queues (requests : List Request) :
    let s : Coordination κ := serveAll {} requests
    let q : String → List Nat := (Roll.serveAll {} requests).queue
    (∀ path, s.ranked path = q path) ∧
    (∀ path, s.masterOf path = ((q path).head?.map s.idOf).getD "") ∧
    (∀ path, s.masterOf path = "" ↔ q path = []) ∧
    (∀ k, s.isMaster k = true ↔
      ∃ m, s.members[k]? = some m ∧ (q m.path).head? = some k) ∧
    (∀ k m, s.members[k]? = some m → m.closed = true →
      s.start k = (.error (.startAfterClose m.id), s)) ∧
    (∀ (path : String) (order : List (Member κ)), order.Perm s.members →
      firstInLine (order.filter fun m => m.path = path && m.inLine)
        = firstInLine (s.line path)) ∧
    (∀ (id : String) (order : List (Member κ)), order.Perm s.members →
      order.find? (fun m => m.id = id && !m.closed)
        = s.members.find? (fun m => m.id = id && !m.closed)) ∧
    s.members.length ≤ requests.length ∧ s.nextSequence ≤ requests.length := by
  intro s q
  obtain ⟨hv, ho⟩ := serves_serveAll requests (serves_empty (κ := κ)) orderly_empty
  have hranked : ∀ path, s.ranked path = q path := fun path =>
    ho.ranked_eq (hv.members path) (hv.order path)
  have hhead : ∀ path k, (q path).head? = some k ↔ First s path k := by
    intro path k
    rw [← hranked path]
    exact ho.head?_ranked
  have hmaster : ∀ path, s.masterOf path = ((q path).head?.map s.idOf).getD "" := by
    intro path
    cases hq : (q path).head? with
    | none =>
        refine masterOf_of_empty fun k => ?_
        rw [List.head?_eq_none_iff] at hq
        have hk := hv.members path k
        simpa [show (Roll.serveAll {} requests).queue path = [] from hq] using hk
    | some k => exact ho.masterOf_of_first ((hhead path k).mp hq)
  refine ⟨hranked, hmaster, ?_, ?_, ?_, ?_, ?_, ?_, ?_⟩
  · intro path
    rw [hmaster path]
    cases hq : (q path).head? with
    | none => simpa using List.head?_eq_none_iff.mp hq
    | some k =>
        -- the head is a member, and no member has the empty id
        obtain ⟨m, hm, _, _⟩ := standsOn_iff.mp ((hhead path k).mp hq).1
        have hne : s.idOf k ≠ "" := fun he => ho.id_ne_empty hm ((idOf_of hm).symm.trans he)
        have hcons : q path ≠ [] := by
          intro he
          rw [he] at hq
          exact absurd hq (by simp)
        simp [hne, hcons]
  · intro k
    rw [ho.isMaster_iff]
    constructor
    · rintro ⟨path, hf⟩
      obtain ⟨m, hm, rfl, _⟩ := standsOn_iff.mp hf.1
      exact ⟨m, hm, (hhead _ k).mpr hf⟩
    · rintro ⟨m, _, hk⟩
      exact ⟨m.path, (hhead _ k).mp hk⟩
  · intro k m hm hc
    rw [start, hm]
    simp [hc]
  · intro path order hp
    exact ho.firstInLine_any_order path hp
  · intro id order hp
    exact ho.find?_any_order id hp
  · simpa using (counters_serveAll ({} : Coordination κ) requests).1
  · simpa using (counters_serveAll ({} : Coordination κ) requests).2

/-- Whoever loses the session and gets it back waits at the end of the queue. -/
example :
    (Roll.serveAll {} [.join "/a" "n", .join "/a" "n", .start 0, .start 1,
      .disconnect "/a/n-0", .reconnect "/a/n-0"]).queue "/a" = [1, 0] := by decide

end Coordination

end FleetScaler
