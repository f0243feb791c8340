import FleetScaler.Membership.Coordination

/-!
# What a call makes of the members

A start, a close, a lost and a regained session have one shape in common, a
*turn*: one open member changes, and everybody else who stands in line on its
path hears `changed`. The lemmas named `…_cases` say of each call when it is a turn
and of what kind, and that the service stays as it was otherwise. Nothing else
about these calls is needed by the theory of lines and queues.
-/

namespace FleetScaler

namespace Member

variable {κ : Type}

/-! ### Hearing changes the queue only -/

theorem enqueue_eq (e : GroupEvent) (m : Member κ) :
    m.enqueue e = { m with queue := (m.enqueue e).queue } := by
  unfold enqueue; split <;> rfl

section
variable (e : GroupEvent) (m : Member κ)

@[simp] theorem enqueue_id : (m.enqueue e).id = m.id := by rw [enqueue_eq]
@[simp] theorem enqueue_path : (m.enqueue e).path = m.path := by rw [enqueue_eq]
@[simp] theorem enqueue_started : (m.enqueue e).started = m.started := by rw [enqueue_eq]
@[simp] theorem enqueue_connected : (m.enqueue e).connected = m.connected := by rw [enqueue_eq]
@[simp] theorem enqueue_closed : (m.enqueue e).closed = m.closed := by rw [enqueue_eq]
@[simp] theorem enqueue_sequence : (m.enqueue e).sequence = m.sequence := by rw [enqueue_eq]
@[simp] theorem enqueue_listeners : (m.enqueue e).listeners = m.listeners := by rw [enqueue_eq]

end

theorem hearChange_eq (path except : String) (m : Member κ) :
    m.hearChange path except = { m with queue := (m.hearChange path except).queue } := by
  unfold hearChange
  split
  · exact enqueue_eq _ _
  · rfl

section
variable (p x : String) (m : Member κ)

@[simp] theorem hearChange_id : (m.hearChange p x).id = m.id := by rw [hearChange_eq]
@[simp] theorem hearChange_path : (m.hearChange p x).path = m.path := by rw [hearChange_eq]
@[simp] theorem hearChange_started : (m.hearChange p x).started = m.started := by
  rw [hearChange_eq]
@[simp] theorem hearChange_connected : (m.hearChange p x).connected = m.connected := by
  rw [hearChange_eq]
@[simp] theorem hearChange_closed : (m.hearChange p x).closed = m.closed := by rw [hearChange_eq]
@[simp] theorem hearChange_sequence : (m.hearChange p x).sequence = m.sequence := by
  rw [hearChange_eq]
@[simp] theorem hearChange_listeners : (m.hearChange p x).listeners = m.listeners := by
  rw [hearChange_eq]
@[simp] theorem hearChange_inLine : (m.hearChange p x).inLine = m.inLine := by simp [inLine]

end

/-- Whoever is in line on a path hears of another member's turn. -/
theorem hearChange_of_inLine {path except : String} {m : Member κ}
    (hp : m.path = path) (hi : m.id ≠ except) (hl : m.inLine = true) :
    m.hearChange path except = { m with queue := m.queue ++ [.changed] } := by
  have hopen : (m.started && !m.closed) = true := by
    simp only [inLine, Bool.and_eq_true] at hl
    simp [hl.1.1, hl.2]
  simp [hearChange, enqueue, hp, hi, hl, hopen]

/-- And nobody else does. -/
theorem hearChange_of_not {path except : String} {m : Member κ}
    (h : ¬ (m.path = path ∧ m.id ≠ except ∧ m.inLine = true)) : m.hearChange path except = m := by
  unfold hearChange; rw [if_neg h]

/-! ### The four kinds of turn -/

/-- A member that starts: it gets the next place in line and hears that it is connected. -/
def begun (place : Nat) (m : Member κ) : Member κ :=
  { m with started := true, sequence := place }.enqueue .connected

/-- A member that leaves its group. -/
def gone (m : Member κ) : Member κ := { m with closed := true, queue := [] }

/-- A member that loses its session. -/
def cutOff (m : Member κ) : Member κ := { m with connected := false }.enqueue .disconnected

/-- A member that gets its session back, and with it the next place in line. -/
def back (place : Nat) (m : Member κ) : Member κ :=
  { m with connected := true, sequence := place }.enqueue .connected

end Member

namespace Coordination

variable {κ : Type} {s : Coordination κ}

/-! ## Reading members after a change -/

theorem getElem?_onMember (s : Coordination κ) (k j : Nat) (f : Member κ → Member κ) :
    (s.onMember k f).members[j]? = if k = j then (s.members[j]?).map f else s.members[j]? := by
  simp only [onMember, List.getElem?_modify]
  split <;> simp

/-- The number that belongs to an id is that of an open member with the id. -/
theorem of_number? {id : String} {k : Nat} (h : s.number? id = some k) :
    ∃ m, s.members[k]? = some m ∧ m.id = id ∧ m.closed = false := by
  rw [number?, List.findIdx?_eq_some_iff_getElem] at h
  obtain ⟨hk, hm, _⟩ := h
  refine ⟨s.members[k], List.getElem?_eq_getElem hk, ?_⟩
  simpa using hm

/-! ## Turns -/

/--
`Turn s s' k m m'`: the open member `m` with the number `k` becomes `m'`, and the
others hear of it.
-/
structure Turn (s s' : Coordination κ) (k : Nat) (m m' : Member κ) : Prop where
  found : s.members[k]? = some m
  isOpen : m.closed = false
  /-- Nobody takes another id or moves to another path. -/
  same : m'.id = m.id ∧ m'.path = m.path
  self : s'.members[k]? = some m'
  others : ∀ j, j ≠ k → s'.members[j]? = (s.members[j]?).map (Member.hearChange m.path m.id)
  length : s'.members.length = s.members.length

/-- The shape in which the calls carry out a turn. -/
theorem turn_of_members {s' : Coordination κ} {k : Nat} {m : Member κ}
    {g : Member κ → Member κ} (hm : s.members[k]? = some m) (hc : m.closed = false)
    (hg : (g m).id = m.id ∧ (g m).path = m.path)
    (h : s'.members = (s.members.modify k g).map (Member.hearChange m.path m.id)) :
    Turn s s' k m (g m) where
  found := hm
  isOpen := hc
  same := hg
  self := by
    have hself : (g m).hearChange m.path m.id = g m :=
      Member.hearChange_of_not fun hn => hn.2.1 hg.1
    simp [h, hm, hself]
  others := by
    intro j hj
    simp [h, Ne.symm hj]
  length := by simp [h]

/-- A join adds a member that has not started, unless the path is empty. -/
theorem join_cases (s : Coordination κ) (path nodeType : String) :
    (path = "" ∧ s.join path nodeType = (.error .emptyGroupPath, s)) ∨
    (path ≠ "" ∧ (s.join path nodeType).1 = .ok s.members.length
      ∧ (s.join path nodeType).2.members
          = s.members ++ [{ id := memberId path nodeType s.members.length, path }]
      ∧ (s.join path nodeType).2.nextSequence = s.nextSequence) := by
  by_cases hp : path = ""
  · exact Or.inl ⟨hp, by rw [join, if_pos hp]⟩
  · refine Or.inr ⟨hp, ?_⟩
    rw [join, if_neg hp]
    exact ⟨rfl, rfl, rfl⟩

/-- A start is a turn of an open member that has not started, and nothing else. -/
theorem start_cases (s : Coordination κ) (k : Nat) :
    (∃ m, m.started = false ∧ Turn s (s.start k).2 k m (m.begun s.nextSequence)
      ∧ (s.start k).2.nextSequence = s.nextSequence + 1 ∧ (s.start k).1 = .ok ()) ∨
    ((s.start k).2 = s ∧ ∀ m, s.members[k]? = some m → m.closed = true ∨ m.started = true) := by
  cases hm : s.members[k]? with
  | none =>
      refine Or.inr ⟨by simp [start, hm], ?_⟩
      intro m hn; exact absurd hn (by simp)
  | some m =>
      by_cases hc : m.closed = true
      · refine Or.inr ⟨by simp [start, hm, hc], ?_⟩
        intro m' hm'; exact Or.inl (Option.some.inj hm' ▸ hc)
      by_cases hs : m.started = true
      · refine Or.inr ⟨by simp [start, hm, hc, hs], ?_⟩
        intro m' hm'; exact Or.inr (Option.some.inj hm' ▸ hs)
      simp only [Bool.not_eq_true] at hc hs
      refine Or.inl ⟨m, hs, ?_, ?_, ?_⟩
      · refine turn_of_members hm hc ⟨by simp [Member.begun], by simp [Member.begun]⟩ ?_
        simp only [start, hm, hc, hs, onMember, tellOthers, note, List.modify_modify_eq]
        rfl
      · simp [start, hm, hc, hs, onMember, tellOthers, note]
      · simp [start, hm, hc, hs]

/-- A close is a turn of an open member, and nothing else. -/
theorem close_cases (s : Coordination κ) (k : Nat) :
    (∃ m, Turn s (s.close k) k m m.gone ∧ (s.close k).nextSequence = s.nextSequence) ∨
    (s.close k = s ∧ ∀ m, s.members[k]? = some m → m.closed = true) := by
  cases hm : s.members[k]? with
  | none =>
      refine Or.inr ⟨by simp [close, hm], ?_⟩
      intro m hn; exact absurd hn (by simp)
  | some m =>
      by_cases hc : m.closed = true
      · refine Or.inr ⟨by simp [close, hm, hc], ?_⟩
        intro m' hm'; exact Option.some.inj hm' ▸ hc
      simp only [Bool.not_eq_true] at hc
      refine Or.inl ⟨m, ?_, ?_⟩
      · refine turn_of_members hm hc ⟨rfl, rfl⟩ ?_
        simp only [close, hm, hc, onMember, tellOthers, note]
        rfl
      · simp [close, hm, hc, onMember, tellOthers, note]

/-- An open member that is closed is gone. -/
theorem getElem?_close {k : Nat} {m : Member κ} (hm : s.members[k]? = some m)
    (hc : m.closed = false) : (s.close k).members[k]? = some m.gone := by
  rcases close_cases s k with ⟨m', t, _⟩ | ⟨_, hclosed⟩
  · obtain rfl := Option.some.inj (hm.symm.trans t.found)
    exact t.self
  · exact absurd ((hclosed m hm).symm.trans hc) (by simp)

/-- A lost session is a turn of the member that belongs to the id, if its session was up. -/
theorem disconnect_cases (s : Coordination κ) (id : String) :
    (∃ k m, s.number? id = some k ∧ m.connected = true
      ∧ Turn s (s.disconnect id).2 k m m.cutOff
      ∧ (s.disconnect id).2.nextSequence = s.nextSequence ∧ (s.disconnect id).1 = true) ∨
    (s.disconnect id = (false, s)
      ∧ ∀ k m, s.number? id = some k → s.members[k]? = some m → m.connected = false) := by
  cases hn : s.number? id with
  | none =>
      refine Or.inr ⟨by simp [disconnect, hn], ?_⟩
      intro k m hk; exact absurd hk (by simp)
  | some k =>
      obtain ⟨m, hm, hid, hc⟩ := of_number? hn
      by_cases hu : m.connected = true
      · subst hid
        refine Or.inl ⟨k, m, rfl, hu, ?_, ?_, ?_⟩
        · refine turn_of_members hm hc ⟨by simp [Member.cutOff], by simp [Member.cutOff]⟩ ?_
          simp only [disconnect, hn, hm, hu, onMember, tellOthers, note, List.modify_modify_eq]
          rfl
        · simp [disconnect, hn, hm, hu, onMember, tellOthers, note]
        · simp [disconnect, hn, hm, hu]
      · simp only [Bool.not_eq_true] at hu
        refine Or.inr ⟨by simp [disconnect, hn, hm, hu], ?_⟩
        intro k' m' hk' hm'
        rw [← Option.some.inj hk', hm] at hm'
        exact Option.some.inj hm' ▸ hu

/-- A regained session is a turn of the member that belongs to the id, if its session was lost. -/
theorem reconnect_cases (s : Coordination κ) (id : String) :
    (∃ k m, s.number? id = some k ∧ m.connected = false
      ∧ Turn s (s.reconnect id).2 k m (m.back s.nextSequence)
      ∧ (s.reconnect id).2.nextSequence = s.nextSequence + 1 ∧ (s.reconnect id).1 = true) ∨
    (s.reconnect id = (false, s)
      ∧ ∀ k m, s.number? id = some k → s.members[k]? = some m → m.connected = true) := by
  cases hn : s.number? id with
  | none =>
      refine Or.inr ⟨by simp [reconnect, hn], ?_⟩
      intro k m hk; exact absurd hk (by simp)
  | some k =>
      obtain ⟨m, hm, hid, hc⟩ := of_number? hn
      by_cases hu : m.connected = true
      · refine Or.inr ⟨by simp [reconnect, hn, hm, hu], ?_⟩
        intro k' m' hk' hm'
        rw [← Option.some.inj hk', hm] at hm'
        exact Option.some.inj hm' ▸ hu
      · simp only [Bool.not_eq_true] at hu
        subst hid
        refine Or.inl ⟨k, m, rfl, hu, ?_, ?_, ?_⟩
        · refine turn_of_members hm hc ⟨by simp [Member.back], by simp [Member.back]⟩ ?_
          simp only [reconnect, hn, hm, hu, onMember, tellOthers, note, List.modify_modify_eq]
          rfl
        · simp [reconnect, hn, hm, hu, onMember, tellOthers, note]
        · simp [reconnect, hn, hm, hu]

end Coordination

end FleetScaler
