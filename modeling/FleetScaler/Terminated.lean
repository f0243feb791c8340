/-!
# Texts that end at a NUL character

Arguments, paths and the wordings of failures end at their first NUL character, whatever follows
it. A text without one is kept whole (`beforeNul_eq_self`), and what is kept holds none
(`nul_not_mem_beforeNul`).
-/

namespace FleetScaler

/-- A text up to its first NUL character. -/
def beforeNul (s : String) : String := String.ofList (s.toList.takeWhile fun c => c ≠ '\x00')

theorem nul_not_mem_beforeNul (s : String) : '\x00' ∉ (beforeNul s).toList := by
  intro h
  rw [beforeNul, String.toList_ofList] at h
  simpa using List.all_eq_true.1 List.all_takeWhile _ h

theorem beforeNul_eq_self {s : String} (h : '\x00' ∉ s.toList) : beforeNul s = s := by
  have kept : ∀ cs : List Char, '\x00' ∉ cs →
      cs.takeWhile (fun c => decide (c ≠ '\x00')) = cs := by
    intro cs
    induction cs with
    | nil => intro _; rfl
    | cons c cs ih =>
      intro hc
      rw [List.mem_cons, not_or] at hc
      rw [List.takeWhile_cons_of_pos (by simpa using Ne.symm hc.1), ih hc.2]
  rw [beforeNul, kept _ h, String.ofList_toList]

end FleetScaler
