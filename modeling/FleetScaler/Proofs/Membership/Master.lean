import FleetScaler.Proofs.Membership.Line

/-!
# Who is the master

In an orderly service, `First s path k` singles out at most one member of a path.
It is the one whom `masterOf` names, the only one for whom `isMaster` holds, and
the head of `ranked`, the line in the order of its places.
-/

namespace FleetScaler.Coordination

variable {κ : Type} {s : Coordination κ}

/-- The member with the number `k` stands in the line of the path. -/
def standsOn (s : Coordination κ) (path : String) (k : Nat) : Bool :=
  ((s.members[k]?).map fun m => m.path = path && m.inLine).getD false

/-- The place of the member with the number `k`. -/
def place (s : Coordination κ) (k : Nat) : Nat := ((s.members[k]?).map (·.sequence)).getD 0

/-- The numbers of the members in line on a path, in the order of their places. -/
def ranked (s : Coordination κ) (path : String) : List Nat :=
  ((List.range s.members.length).filter (s.standsOn path)).mergeSort
    fun j k => decide (s.place j ≤ s.place k)

/-- The member with the number `k` stands in the line of the path, before everybody else. -/
def First (s : Coordination κ) (path : String) (k : Nat) : Prop :=
  s.standsOn path k = true ∧ ∀ j, s.standsOn path j = true → s.place k ≤ s.place j

theorem standsOn_iff {path : String} {k : Nat} :
    s.standsOn path k = true ↔
      ∃ m, s.members[k]? = some m ∧ m.path = path ∧ m.inLine = true := by
  unfold standsOn
  cases s.members[k]? with
  | none => simp
  | some m => simp

theorem place_of {k : Nat} {m : Member κ} (h : s.members[k]? = some m) :
    s.place k = m.sequence := by
  simp [place, h]

theorem idOf_of {k : Nat} {m : Member κ} (h : s.members[k]? = some m) : s.idOf k = m.id := by
  simp [idOf, h]

theorem started_of_inLine {m : Member κ} (h : m.inLine = true) : m.started = true := by
  simp only [Member.inLine, Bool.and_eq_true] at h
  exact h.1.1

theorem Orderly.standsOn_inj (h : Orderly s) {path path' : String} {j k : Nat}
    (hj : s.standsOn path j = true) (hk : s.standsOn path' k = true)
    (he : s.place j = s.place k) : j = k := by
  obtain ⟨m, hm, _, hl⟩ := standsOn_iff.mp hj
  obtain ⟨m', hm', _, hl'⟩ := standsOn_iff.mp hk
  rw [place_of hm, place_of hm'] at he
  exact h.places j k m m' hm hm' (started_of_inLine hl) (started_of_inLine hl') he

theorem Orderly.first_unique (h : Orderly s) {path : String} {j k : Nat}
    (hj : First s path j) (hk : First s path k) : j = k :=
  h.standsOn_inj hj.1 hk.1 (Nat.le_antisymm (hj.2 k hk.1) (hk.2 j hj.1))

/-! ## The line as the search goes through it -/

theorem mem_line {path : String} {m : Member κ} :
    m ∈ s.line path ↔ ∃ k, s.members[k]? = some m ∧ s.standsOn path k = true := by
  simp only [line, List.mem_filter, Bool.and_eq_true, decide_eq_true_eq]
  constructor
  · rintro ⟨hm, hp, hl⟩
    obtain ⟨k, hk⟩ := List.mem_iff_getElem?.mp hm
    exact ⟨k, hk, standsOn_iff.mpr ⟨m, hk, hp, hl⟩⟩
  · rintro ⟨k, hk, hs⟩
    obtain ⟨m', hk', hp, hl⟩ := standsOn_iff.mp hs
    obtain rfl : m = m' := Option.some.inj (hk ▸ hk')
    exact ⟨List.mem_of_getElem? hk, hp, hl⟩

/-- The search finds nobody, or the member that stands first. -/
theorem firstInLine_line (s : Coordination κ) (path : String) :
    (firstInLine (s.line path) = none ∧ ∀ k, s.standsOn path k = false) ∨
    ∃ k m, firstInLine (s.line path) = some m ∧ s.members[k]? = some m ∧ First s path k := by
  cases hf : firstInLine (s.line path) with
  | none =>
      refine Or.inl ⟨rfl, ?_⟩
      intro k
      by_cases hs : s.standsOn path k = true
      · obtain ⟨m, hm, _, _⟩ := standsOn_iff.mp hs
        have hmem : m ∈ s.line path := mem_line.mpr ⟨k, hm, hs⟩
        rw [firstInLine_eq_none hf] at hmem
        exact absurd hmem (by simp)
      · simpa using hs
  | some m =>
      obtain ⟨hmem, hle⟩ := firstInLine_spec hf
      obtain ⟨k, hk, hs⟩ := mem_line.mp hmem
      refine Or.inr ⟨k, m, rfl, hk, hs, ?_⟩
      intro j hj
      obtain ⟨m', hm', _, _⟩ := standsOn_iff.mp hj
      rw [place_of hk, place_of hm']
      exact hle m' (mem_line.mpr ⟨j, hm', hj⟩)

theorem masterOf_of_empty {path : String} (h : ∀ k, s.standsOn path k = false) :
    s.masterOf path = "" := by
  rcases firstInLine_line s path with ⟨hn, _⟩ | ⟨k, _, _, _, hf⟩
  · simp [masterOf, hn]
  · exact absurd hf.1 (by simp [h k])

/-- The master is the member that stands first. -/
theorem Orderly.masterOf_of_first (h : Orderly s) {path : String} {k : Nat}
    (hf : First s path k) : s.masterOf path = s.idOf k := by
  rcases firstInLine_line s path with ⟨_, hn⟩ | ⟨j, m, hm, hj, hfj⟩
  · have := hf.1
    rw [hn k] at this
    exact absurd this (by simp)
  · obtain rfl := h.first_unique hf hfj
    simp [masterOf, hm, idOf, hj]

/-- **A member is the master exactly if it stands first in the line of its path.** -/
theorem Orderly.isMaster_iff (h : Orderly s) {k : Nat} :
    s.isMaster k = true ↔ ∃ path, First s path k := by
  constructor
  · intro hk
    unfold isMaster at hk
    split at hk
    · rename_i m hm
      simp only [Bool.and_eq_true, decide_eq_true_eq] at hk
      rcases firstInLine_line s m.path with ⟨hn, _⟩ | ⟨j, b, hb, hj, hf⟩
      · -- nobody has the empty id
        have : s.masterOf m.path = "" := by simp [masterOf, hn]
        exact absurd (this ▸ hk.2).symm (h.id_ne_empty hm)
      · have : s.masterOf m.path = b.id := by simp [masterOf, hb]
        rw [this] at hk
        exact ⟨m.path, h.number_unique hj hm hk.2 ▸ hf⟩
    · exact absurd hk (by simp)
  · rintro ⟨path, hf⟩
    obtain ⟨m, hm, rfl, hl⟩ := standsOn_iff.mp hf.1
    have hc : m.closed = false := by
      simp only [Member.inLine, Bool.and_eq_true, Bool.not_eq_true'] at hl
      exact hl.2
    have := h.masterOf_of_first hf
    simp [isMaster, hm, hc, this, idOf]

/-! ## The ranked line -/

theorem mem_ranked {path : String} {k : Nat} : k ∈ s.ranked path ↔ s.standsOn path k = true := by
  simp only [ranked, List.mem_mergeSort, List.mem_filter, List.mem_range, and_iff_right_iff_imp]
  intro hs
  obtain ⟨m, hm, _, _⟩ := standsOn_iff.mp hs
  exact (List.getElem?_eq_some_iff.mp hm).1

theorem nodup_ranked (s : Coordination κ) (path : String) : (s.ranked path).Nodup :=
  (List.mergeSort_perm _ _).symm.nodup (List.nodup_range.filter _)

theorem pairwise_ranked (s : Coordination κ) (path : String) :
    (s.ranked path).Pairwise fun j k => s.place j ≤ s.place k := by
  have h : (s.ranked path).Pairwise fun j k => decide (s.place j ≤ s.place k) = true := by
    refine List.pairwise_mergeSort ?_ ?_ _
    · intro a b c hab hbc
      simp only [decide_eq_true_eq] at *
      omega
    · intro a b
      simp only [Bool.or_eq_true, decide_eq_true_eq]
      omega
  exact h.imp (by intro a b hab; simpa using hab)

/-- Whatever holds the members of a line in the order of their places is the ranked line. -/
theorem Orderly.ranked_eq (h : Orderly s) {path : String} {q : List Nat}
    (hmem : ∀ k, k ∈ q ↔ s.standsOn path k = true)
    (hord : q.Pairwise fun j k => s.place j < s.place k) : s.ranked path = q := by
  -- two sorted lists of the same members are the same
  have hnd : q.Nodup := by
    refine hord.imp ?_
    rintro a b hab rfl
    exact absurd hab (Nat.lt_irrefl _)
  refine List.Perm.eq_of_pairwise ?_ (pairwise_ranked s path) (hord.imp Nat.le_of_lt) ?_
  · intro a b ha hb hab hba
    exact h.standsOn_inj (mem_ranked.mp ha) ((hmem b).mp hb) (Nat.le_antisymm hab hba)
  · rw [List.perm_ext_iff_of_nodup (nodup_ranked s path) hnd]
    intro k
    rw [mem_ranked, hmem]

/-- The head of the ranked line is the member that stands first. -/
theorem Orderly.head?_ranked (h : Orderly s) {path : String} {k : Nat} :
    (s.ranked path).head? = some k ↔ First s path k := by
  have hord := pairwise_ranked s path
  have hmem : ∀ j, j ∈ s.ranked path ↔ s.standsOn path j = true := fun j => mem_ranked
  constructor
  · intro hk
    obtain ⟨rest, hr⟩ := List.head?_eq_some_iff.mp hk
    rw [hr] at hord hmem
    refine ⟨(hmem k).mp List.mem_cons_self, ?_⟩
    intro j hj
    rcases List.mem_cons.mp ((hmem j).mpr hj) with rfl | hin
    · exact Nat.le_refl _
    · exact List.rel_of_pairwise_cons hord hin
  · intro hf
    cases hr : s.ranked path with
    | nil =>
        rw [hr] at hmem
        exact absurd ((hmem k).mpr hf.1) (by simp)
    | cons j rest =>
        rw [hr] at hord hmem
        have hj : s.standsOn path j = true := (hmem j).mp List.mem_cons_self
        rcases List.mem_cons.mp ((hmem k).mpr hf.1) with rfl | hin
        · rfl
        · have hle := Nat.le_antisymm (hf.2 j hj) (List.rel_of_pairwise_cons hord hin)
          rw [h.standsOn_inj hf.1 hj hle]
          rfl

/-! ## Any order of search -/

/-- A service may go through its members in any order and finds the same master. -/
theorem Orderly.firstInLine_any_order (h : Orderly s) (path : String) {order : List (Member κ)}
    (hp : order.Perm s.members) :
    firstInLine (order.filter fun m => m.path = path && m.inLine)
      = firstInLine (s.line path) := by
  refine (firstInLine_perm (hp.symm.filter _) ?_).symm
  intro m hm m' hm' he
  obtain ⟨j, hj, hsj⟩ := mem_line.mp hm
  obtain ⟨k, hk, hsk⟩ := mem_line.mp hm'
  have hjk : j = k := by
    refine h.standsOn_inj hsj hsk ?_
    rw [place_of hj, place_of hk, he]
  subst hjk
  exact Option.some.inj (hj.symm.trans hk)

/-- A service may look for an id in any order and finds the same member. -/
theorem Orderly.find?_any_order (h : Orderly s) (id : String) {order : List (Member κ)}
    (hp : order.Perm s.members) :
    order.find? (fun m => m.id = id && !m.closed)
      = s.members.find? (fun m => m.id = id && !m.closed) := by
  have only : ∀ m ∈ s.members, ∀ m' ∈ s.members, m.id = m'.id → m = m' := by
    intro m hm m' hm' he
    obtain ⟨j, hj⟩ := List.mem_iff_getElem?.mp hm
    obtain ⟨k, hk⟩ := List.mem_iff_getElem?.mp hm'
    obtain rfl := h.number_unique hj hk he
    exact Option.some.inj (hj.symm.trans hk)
  cases ho : order.find? (fun m => m.id = id && !m.closed) with
  | none =>
      symm
      rw [List.find?_eq_none] at ho ⊢
      intro m hm
      exact ho m (hp.mem_iff.mpr hm)
  | some m =>
      have hm := List.find?_some ho
      have hmem := hp.mem_iff.mp (List.mem_of_find?_eq_some ho)
      simp only [Bool.and_eq_true, decide_eq_true_eq] at hm
      cases hs : s.members.find? (fun m => m.id = id && !m.closed) with
      | none =>
          rw [List.find?_eq_none] at hs
          exact absurd (hs m hmem) (by simpa using hm)
      | some m' =>
          have hm' := List.find?_some hs
          simp only [Bool.and_eq_true, decide_eq_true_eq] at hm'
          rw [only m hmem m' (List.mem_of_find?_eq_some hs) (hm.1.trans hm'.1.symm)]

end FleetScaler.Coordination
