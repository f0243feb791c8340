import FleetScaler.Pass.Basic

/-!
# What a pass can do to the world

A pass reaches the state of its collaborators through their calls and in no other way. So whatever
every call keeps, a pass keeps.
-/

namespace FleetScaler

variable {σ α : Type}

/-- The calls of the collaborators keep a property of their state. -/
structure Collaborators.Keeps (c : Collaborators σ α) (P : σ → Prop) : Prop where
  offer : ∀ document requirement world, P world → P (c.offer document requirement world).2
  instances : ∀ profile world, P world → P (c.instances profile world).2
  version : ∀ world, P world → P (c.version world).2
  create : ∀ autoscaler request world, P world → P (c.create autoscaler request world).2
  destroy : ∀ autoscaler request world, P world → P (c.destroy autoscaler request world).2
  note : ∀ record world, P world → P (c.note record world)

namespace Pass

variable {c : Collaborators σ α} {P : σ → Prop} {s : PassState σ}

theorem world_noteInstances (hc : c.Keeps P) (instances : List Instance) (h : P s.world) :
    P (noteInstances c instances s).world := by
  induction instances generalizing s with
  | nil => exact h
  | cons i rest ih => exact ih (hc.note _ _ h)

theorem world_countable (hc : c.Keeps P) (profile : String) (h : P s.world) :
    P (countable c profile s).2.world := by
  unfold countable
  have hcall := hc.instances profile s.world h
  split
  · exact h
  · split
    · rename_i heq
      simpa [heq] using hcall
    · rename_i heq
      refine world_noteInstances hc _ ?_
      simpa [heq] using hcall

theorem world_blocking? (hc : c.Keeps P) (profile : String) (dependencies : List String)
    (h : P s.world) : P (blocking? c profile dependencies s).2.world := by
  induction dependencies generalizing s with
  | nil => exact h
  | cons dependency rest ih =>
      simp only [blocking?]
      split
      · exact ih h
      · have hcount := world_countable hc dependency
          (s := { s with lookup := (s.lookup.getOrCreate dependency).2 }) h
        split
        · rename_i heq
          simpa [heq] using hcount
        · rename_i heq
          rw [heq] at hcount
          split
          · exact hc.note _ _ hcount
          · exact ih hcount

theorem world_giveUp (hc : c.Keeps P) (v : Verdict) (e : Failure) (h : P s.world) :
    P (giveUp c v e s).2.world := hc.note _ _ h

theorem world_shrink (hc : c.Keeps P) (autoscaler : α) (v : Verdict) (instances : List Instance)
    (h : P s.world) : P (shrink c autoscaler v instances s).2.world := by
  unfold shrink
  simp only
  have hnoted : P (note c .info ("scaling down " ++ v.profile ++ " by " ++
      toString (wrap32 (-v.delta)) ++ " " ++ counts v) [] s).world := hc.note _ _ h
  have hcall := hc.destroy autoscaler
    { profile := v.profile, count := wrap32 (-v.delta), candidates := instances } _ hnoted
  split
  · rename_i heq
    rw [heq] at hcall
    exact world_giveUp hc v _ hcall
  · rename_i heq
    rw [heq] at hcall
    exact hcall

theorem world_grow (hc : c.Keeps P) (document : Document) (requirement : Requirement)
    (autoscaler : α) (v : Verdict) (h : P s.world) :
    P (grow c document requirement autoscaler v s).2.world := by
  unfold grow
  have hblock := world_blocking? hc v.profile requirement.dependencies h
  split
  · rename_i heq
    rw [heq] at hblock
    exact world_giveUp hc v _ hblock
  · rename_i heq
    rw [heq] at hblock
    exact hblock
  · rename_i s' heq
    rw [heq] at hblock
    have hversion := hc.version s'.world hblock
    split
    · rename_i heq'
      rw [heq'] at hversion
      exact world_giveUp hc v _ hversion
    · rename_i version world heq'
      rw [heq'] at hversion
      simp only
      have hnoted : P (note c .info ("scaling up " ++ v.profile ++ " by " ++ toString v.delta ++
          " at version " ++ version ++ " " ++ counts v) [] { s' with world }).world :=
        hc.note _ _ hversion
      have hcreate := hc.create autoscaler
        { version, profile := v.profile, count := v.delta, requirements := document, requirement }
        _ hnoted
      split
      · rename_i heq''
        rw [heq''] at hcreate
        exact world_giveUp hc v _ hcreate
      · rename_i heq''
        rw [heq''] at hcreate
        exact hcreate

theorem world_compareAndAct (hc : c.Keeps P) (document : Document) (requirement : Requirement)
    (desired : Int) (autoscaler : α) (h : P s.world) :
    P (compareAndAct c document requirement desired autoscaler s).2.world := by
  have hcount := world_countable hc requirement.profile h
  unfold compareAndAct
  simp only
  split
  · rename_i heq
    rw [heq] at hcount
    exact world_giveUp hc _ _ hcount
  · rename_i heq
    rw [heq] at hcount
    split
    · exact world_shrink hc autoscaler _ _ hcount
    · split
      · exact world_grow hc document requirement autoscaler _ hcount
      · exact hcount

theorem world_judge (hc : c.Keeps P) (document : Document) (requirement : Requirement)
    (h : P s.world) : P (judge c document requirement s).2.world := by
  unfold judge
  have hoffer := hc.offer document requirement s.world h
  split
  · exact h
  · simp only
    split
    · rename_i heq
      rw [heq] at hoffer
      exact world_giveUp hc _ _ hoffer
    · rename_i heq
      rw [heq] at hoffer
      exact hc.note _ _ hoffer
    · rename_i heq
      rw [heq] at hoffer
      exact world_compareAndAct hc document requirement _ _ hoffer

theorem world_judgeAll (hc : c.Keeps P) (document : Document) (requirements : List Requirement)
    (h : P s.world) : P (judgeAll c document requirements s).2.world := by
  induction requirements generalizing s with
  | nil => exact h
  | cons requirement rest ih => exact ih (world_judge hc document requirement h)

/-- **Whatever every call keeps, a pass keeps.** -/
theorem world_run (hc : c.Keeps P) (document : Document) {world : σ} (h : P world) :
    P (run c document world).2 :=
  hc.note _ _ (world_judgeAll hc document document.requirements h)

end Pass

end FleetScaler
