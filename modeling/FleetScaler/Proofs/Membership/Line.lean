import FleetScaler.Proofs.Membership.Identity
import FleetScaler.Proofs.Membership.Turns

/-!
# Lines in good order

`Orderly` says what keeps an election unambiguous: ids tell members apart, places
are handed out in increasing order, and no two started members have the same
place. Every call keeps it. In an orderly service the master of a path is the one
member that stands first in its line, in whatever order the members are gone
through.
-/

namespace FleetScaler

variable {κ : Type}

/-! ## The first of a list of members -/

theorem firstInLine_eq_none {ms : List (Member κ)} (h : firstInLine ms = none) : ms = [] := by
  cases ms with
  | nil => rfl
  | cons m rest =>
      rw [firstInLine] at h
      split at h
      · exact absurd h (by simp)
      · split at h <;> exact absurd h (by simp)

/-- The first of some members is one of them, and no other has an earlier place. -/
theorem firstInLine_spec {ms : List (Member κ)} {b : Member κ} (h : firstInLine ms = some b) :
    b ∈ ms ∧ ∀ m ∈ ms, b.sequence ≤ m.sequence := by
  induction ms generalizing b with
  | nil => exact absurd h (by simp [firstInLine])
  | cons m rest ih =>
      rw [firstInLine] at h
      cases hr : firstInLine rest with
      | none =>
          rw [hr] at h
          obtain rfl := Option.some.inj h
          obtain rfl := firstInLine_eq_none hr
          simp
      | some best =>
          simp only [hr] at h
          obtain ⟨hmem, hle⟩ := ih hr
          by_cases hlt : best.sequence < m.sequence
          · rw [if_pos hlt] at h
            obtain rfl := Option.some.inj h
            refine ⟨List.mem_cons_of_mem _ hmem, ?_⟩
            intro x hx
            rcases List.mem_cons.mp hx with rfl | hx
            · exact Nat.le_of_lt hlt
            · exact hle x hx
          · rw [if_neg hlt] at h
            obtain rfl := Option.some.inj h
            refine ⟨List.mem_cons_self, ?_⟩
            intro x hx
            rcases List.mem_cons.mp hx with rfl | hx
            · exact Nat.le_refl _
            · exact Nat.le_trans (Nat.le_of_not_lt hlt) (hle x hx)

/-- Where places are distinct, the first does not depend on the order of the search. -/
theorem firstInLine_perm {ms ms' : List (Member κ)} (hp : ms.Perm ms')
    (hd : ∀ m ∈ ms, ∀ m' ∈ ms, m.sequence = m'.sequence → m = m') :
    firstInLine ms = firstInLine ms' := by
  cases h : firstInLine ms with
  | none =>
      obtain rfl := firstInLine_eq_none h
      obtain rfl := hp.nil_eq
      rfl
  | some b =>
      obtain ⟨hb, hle⟩ := firstInLine_spec h
      cases h' : firstInLine ms' with
      | none =>
          obtain rfl := firstInLine_eq_none h'
          exact absurd (hp.mem_iff.mp hb) (by simp)
      | some b' =>
          obtain ⟨hb', hle'⟩ := firstInLine_spec h'
          have hmem : b' ∈ ms := hp.mem_iff.mpr hb'
          have heq : b.sequence = b'.sequence :=
            Nat.le_antisymm (hle b' hmem) (hle' b (hp.mem_iff.mp hb))
          rw [hd b hb b' hmem heq]

namespace Coordination

variable {s s' : Coordination κ}

/-! ## The order of a service -/

/-- Ids tell members apart, and places tell started members apart. -/
structure Orderly (s : Coordination κ) : Prop where
  /-- An id is made of the path and the number of its member. -/
  ids : ∀ (k : Nat) (m : Member κ), s.members[k]? = some m →
    ∃ nodeType, m.id = memberId m.path nodeType k
  /-- The next place is behind all others. -/
  behind : ∀ (k : Nat) (m : Member κ), s.members[k]? = some m → m.started = true →
    m.sequence < s.nextSequence
  /-- No two started members share a place. -/
  places : ∀ (j k : Nat) (m m' : Member κ), s.members[j]? = some m → s.members[k]? = some m' →
    m.started = true → m'.started = true → m.sequence = m'.sequence → j = k

theorem orderly_empty : Orderly ({} : Coordination κ) where
  ids := by intro k m h; exact absurd h (by simp)
  behind := by intro k m h; exact absurd h (by simp)
  places := by intro j k m m' h; exact absurd h (by simp)

theorem Orderly.number_unique (h : Orderly s) {j k : Nat} {m m' : Member κ}
    (hj : s.members[j]? = some m) (hk : s.members[k]? = some m') (he : m.id = m'.id) : j = k := by
  obtain ⟨t, ht⟩ := h.ids j m hj
  obtain ⟨t', ht'⟩ := h.ids k m' hk
  rw [ht, ht'] at he
  exact number_eq_of_memberId_eq he

theorem Orderly.id_ne_empty (h : Orderly s) {k : Nat} {m : Member κ}
    (hk : s.members[k]? = some m) : m.id ≠ "" := by
  obtain ⟨t, ht⟩ := h.ids k m hk
  rw [ht]
  exact memberId_ne_empty _ _ _

theorem orderly_append (h : Orderly s) {path nodeType : String}
    (hm : s'.members
      = s.members ++ [{ id := memberId path nodeType s.members.length, path }])
    (hn : s'.nextSequence = s.nextSequence) : Orderly s' := by
  -- the newcomer has not started, so whoever has started was there before
  have old : ∀ (k : Nat) (m : Member κ), s'.members[k]? = some m → m.started = true →
      s.members[k]? = some m := by
    intro k m hk hs
    rw [hm] at hk
    rcases Nat.lt_or_ge k s.members.length with hlt | hge
    · rwa [List.getElem?_append_left hlt] at hk
    · rw [List.getElem?_append_right hge, List.getElem?_singleton] at hk
      split at hk
      · rw [← Option.some.inj hk] at hs; exact absurd hs (by simp)
      · exact absurd hk (by simp)
  refine ⟨?_, ?_, ?_⟩
  · intro k m hk
    rw [hm] at hk
    rcases Nat.lt_or_ge k s.members.length with hlt | hge
    · rw [List.getElem?_append_left hlt] at hk
      exact h.ids k m hk
    · rw [List.getElem?_append_right hge, List.getElem?_singleton] at hk
      split at hk
      · obtain rfl := Option.some.inj hk
        exact ⟨nodeType, by rw [show k = s.members.length by omega]⟩
      · exact absurd hk (by simp)
  · intro k m hk hs
    rw [hn]
    exact h.behind k m (old k m hk hs) hs
  · intro j k m m' hj hk hs hs'
    exact h.places j k m m' (old j m hj hs) (old k m' hk hs') hs hs'

/-- A member after a turn: the one whose turn it was, or one of the others with its old standing. -/
theorem Turn.member {k : Nat} {m m' : Member κ} (t : Turn s s' k m m') {j : Nat} {x : Member κ}
    (hj : s'.members[j]? = some x) :
    (j = k ∧ x = m') ∨
      (j ≠ k ∧ ∃ y, s.members[j]? = some y ∧ x = y.hearChange m.path m.id) := by
  by_cases hjk : j = k
  · subst hjk
    rw [t.self] at hj
    exact Or.inl ⟨rfl, (Option.some.inj hj).symm⟩
  · rw [t.others j hjk] at hj
    obtain ⟨y, hy, rfl⟩ := Option.map_eq_some_iff.mp hj
    exact Or.inr ⟨hjk, y, hy, rfl⟩

/--
**A turn keeps the order** if the member keeps its place and has not just started,
or gets the next place.
-/
theorem orderly_turn (h : Orderly s) {k : Nat} {m m' : Member κ} (t : Turn s s' k m m')
    (hp : (m'.sequence = m.sequence ∧ m'.started = m.started ∧ s'.nextSequence = s.nextSequence)
      ∨ (m'.sequence = s.nextSequence ∧ s'.nextSequence = s.nextSequence + 1)) : Orderly s' := by
  have hle : s.nextSequence ≤ s'.nextSequence := by
    rcases hp with ⟨_, _, hn⟩ | ⟨_, hn⟩ <;> omega
  refine ⟨?_, ?_, ?_⟩
  · intro j x hj
    rcases t.member hj with ⟨rfl, rfl⟩ | ⟨_, y, hy, rfl⟩
    · rw [t.same.1, t.same.2]
      exact h.ids j m t.found
    · simpa using h.ids j y hy
  · intro j x hj hs
    rcases t.member hj with ⟨rfl, rfl⟩ | ⟨_, y, hy, rfl⟩
    · rcases hp with ⟨hq, hst, hn⟩ | ⟨hq, hn⟩
      · rw [hq, hn]
        exact h.behind j m t.found (hst ▸ hs)
      · omega
    · simp only [Member.hearChange_started, Member.hearChange_sequence] at hs ⊢
      exact Nat.lt_of_lt_of_le (h.behind j y hy hs) hle
  · -- a fresh place is behind all others, so it collides with none of them
    have fresh : ∀ j y, j ≠ k → s.members[j]? = some y → y.started = true →
        m'.started = true → y.sequence ≠ m'.sequence := by
      intro j y hjk hy hs hs' he
      rcases hp with ⟨hq, hst, _⟩ | ⟨hq, _⟩
      · exact hjk (h.places j k y m hy t.found hs (hst ▸ hs') (he.trans hq))
      · have := h.behind j y hy hs
        omega
    intro i j x y hi hj hs hs' he
    rcases t.member hi with ⟨rfl, rfl⟩ | ⟨hik, u, hu, rfl⟩ <;>
      rcases t.member hj with ⟨rfl, rfl⟩ | ⟨hjk, v, hv, rfl⟩
    · rfl
    · simp only [Member.hearChange_started, Member.hearChange_sequence] at hs' he
      exact absurd he.symm (fresh j v hjk hv hs' hs)
    · simp only [Member.hearChange_started, Member.hearChange_sequence] at hs he
      exact absurd he (fresh i u hik hu hs hs')
    · simp only [Member.hearChange_started, Member.hearChange_sequence] at hs hs' he
      exact h.places i j u v hu hv hs hs' he

theorem orderly_join (h : Orderly s) (path nodeType : String) :
    Orderly (s.join path nodeType).2 := by
  rcases join_cases s path nodeType with ⟨_, he⟩ | ⟨_, _, hm, hn⟩
  · rw [he]; exact h
  · exact orderly_append h hm hn

theorem orderly_start (h : Orderly s) (k : Nat) : Orderly (s.start k).2 := by
  rcases start_cases s k with ⟨m, _, t, hn, _⟩ | ⟨he, _⟩
  · exact orderly_turn h t (Or.inr ⟨by simp [Member.begun], hn⟩)
  · rw [he]; exact h

theorem orderly_close (h : Orderly s) (k : Nat) : Orderly (s.close k) := by
  rcases close_cases s k with ⟨m, t, hn⟩ | ⟨he, _⟩
  · exact orderly_turn h t (Or.inl ⟨rfl, rfl, hn⟩)
  · rw [he]; exact h

theorem orderly_disconnect (h : Orderly s) (id : String) : Orderly (s.disconnect id).2 := by
  rcases disconnect_cases s id with ⟨k, m, _, _, t, hn, _⟩ | ⟨he, _⟩
  · exact orderly_turn h t (Or.inl ⟨by simp [Member.cutOff], by simp [Member.cutOff], hn⟩)
  · rw [he]; exact h

theorem orderly_reconnect (h : Orderly s) (id : String) : Orderly (s.reconnect id).2 := by
  rcases reconnect_cases s id with ⟨k, m, _, _, t, hn, _⟩ | ⟨he, _⟩
  · exact orderly_turn h t (Or.inr ⟨by simp [Member.back], hn⟩)
  · rw [he]; exact h

end Coordination

end FleetScaler
