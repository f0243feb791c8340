import FleetScaler.Membership.Coordination

/-!
# Ids tell members apart

The id of a member is put together from a path, a type of node and the number of
the member. Path and type are free text, which may hold slashes, dashes and
digits; the number is what follows the last dash. So two ids with different
numbers differ, whatever else went into them.
-/

namespace FleetScaler.Coordination

theorem dash_not_mem_toDigits (n : Nat) : '-' ∉ Nat.toDigits 10 n := by
  intro h
  have hd := Nat.isDigit_of_mem_toDigits (by decide) (by decide) h
  exact absurd hd (by decide)

/-- What follows the last occurrence of a letter is determined by the whole list. -/
theorem tail_eq_of_append_cons_eq {α : Type} {x : α} {as bs cs ds : List α}
    (hc : x ∉ cs) (hd : x ∉ ds) (h : as ++ x :: cs = bs ++ x :: ds) : cs = ds := by
  rcases List.append_eq_append_iff.mp h with ⟨es, rfl, he⟩ | ⟨es, rfl, he⟩
  · cases es with
    | nil => exact (List.cons.inj he).2
    | cons e es =>
        have hx : x ∈ cs := by
          rw [(List.cons.inj he).2]
          simp
        exact absurd hx hc
  · cases es with
    | nil => exact (List.cons.inj he).2.symm
    | cons e es =>
        have hx : x ∈ ds := by
          rw [(List.cons.inj he).2]
          simp
        exact absurd hx hd

theorem toList_memberId (path nodeType : String) (number : Nat) :
    (memberId path nodeType number).toList
      = (path.toList ++ '/' :: nodeType.toList) ++ '-' :: Nat.toDigits 10 number := by
  simp [memberId]

/-- **The number of a member can be read off its id.** -/
theorem number_eq_of_memberId_eq {path path' nodeType nodeType' : String} {j k : Nat}
    (h : memberId path nodeType j = memberId path' nodeType' k) : j = k := by
  have hl := congrArg String.toList h
  rw [toList_memberId, toList_memberId] at hl
  have hd := tail_eq_of_append_cons_eq (dash_not_mem_toDigits j) (dash_not_mem_toDigits k) hl
  have hn := congrArg (fun ds => Nat.ofDigitChars 10 ds 0) hd
  simpa using hn

theorem memberId_ne_empty (path nodeType : String) (number : Nat) :
    memberId path nodeType number ≠ "" := by
  intro h
  have hl := congrArg String.toList h
  rw [toList_memberId] at hl
  simp at hl

end FleetScaler.Coordination
