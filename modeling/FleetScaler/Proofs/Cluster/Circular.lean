import FleetScaler.Proofs.Cluster.Judgement
import FleetScaler.Proofs.Dependencies
import FleetScaler.Proofs.Pass.Commands
import Mathlib.Data.Set.Defs

/-!
# Profiles that await one another

Where each of some profiles awaits one of them and all of them lack instances, none of them ever
grows: the one that it awaits would have to come first. Nothing helps but instances from outside.
This is so whatever the rest of the document asks for, whatever the cluster looks like, and although
a pass acts on other profiles while it is still asking about these.
-/

namespace FleetScaler.Cluster

open Pass (judge judgeAll)

/-- Each of the profiles awaits one of them. -/
def Circular (d : Document) (S : Set String) : Prop := ∀ p ∈ S, ∃ q ∈ S, d.Awaits p q

/-- None of the profiles has its minimum. -/
def Wanting (d : Document) (S : Set String) (c : Cluster) : Prop :=
  ∀ p ∈ S, ∀ minimum, d.minimum? p = some minimum → c.countableCount p < minimum

/-- No instance comes from outside, and no other document is put in force. -/
def Contained (d : Document) : Change → Prop
  | .add _ _ _ => False
  | .provision _ => False
  | .pass document => document = d
  | _ => True

variable {d : Document} {S : Set String} {c c' : Cluster} {r : Requirement} {v : Verdict}
  {s s' : PassState Cluster}

theorem Wanting.of_le (h : Wanting d S c)
    (hle : ∀ p ∈ S, c'.countableCount p ≤ c.countableCount p) : Wanting d S c' := by
  intro p hp minimum hm
  have hless := h p hp minimum hm
  have hfewer := hle p hp
  omega

/-! ## One pass -/

/-- The pass takes none of the profiles for satisfied, and none of them is. -/
structure Stuck (d : Document) (S : Set String) (s : PassState Cluster) : Prop where
  minimums : ∀ profile, s.lookup.minimum? profile = d.minimum? profile
  heard : ∀ p ∈ S, ∀ minimum, d.minimum? p = some minimum → (heard s p).length < minimum
  world : Wanting d S s.world

theorem stuck_init (h : Wanting d S c) : Stuck d S { world := c, lookup := d } where
  minimums _ := rfl
  heard p hp minimum hm := by
    have hnone : Cluster.heard { world := c, lookup := d } p = c.countables p := rfl
    rw [hnone, length_countables]
    exact h p hp minimum hm
  world := h

theorem Stuck.asks (h : Stuck d S s) (ha : Asks s s') : Stuck d S s' where
  minimums profile := (ha.minimums profile).trans (h.minimums profile)
  heard p hp minimum hm := by
    rw [ha.heard]
    exact h.heard p hp minimum hm
  world := h.world.of_le fun p _ => by
    rw [countableCount_congr (placementsOf_of_bare ha.world p)]

/-- A command that adds to none of the profiles changes nothing for them. -/
theorem Stuck.command (h : Stuck d S s)
    (hle : ∀ p ∈ S, c'.countableCount p ≤ s.world.countableCount p) :
    Stuck d S { s with world := c' } where
  minimums := h.minimums
  heard p hp minimum hm := by
    have hbefore := h.heard p hp minimum hm
    unfold Cluster.heard at hbefore ⊢
    cases hk : s.answers.lookup p with
    | some instances => simpa only [hk, Option.getD_some] using hbefore
    | none =>
        simp only [hk, Option.getD_none, length_countables] at hbefore ⊢
        have hfewer := hle p hp
        omega
  world := h.world.of_le hle

/-- One of the dependencies of such a profile lags. -/
theorem Stuck.find?_lagging (h : Stuck d S s) (hS : Circular d S) (hr : r ∈ d.requirements)
    (hp : r.profile ∈ S) : r.dependencies.find? (lagging s) ≠ none := by
  obtain ⟨q, hq, r', hr', hprofile, -, hdep, hsome⟩ := hS r.profile hp
  have hsame : r' = r := List.inj_on_of_nodup_map d.distinct hr' hr hprofile
  subst hsame
  obtain ⟨minimum, hm⟩ := Option.isSome_iff_exists.mp hsome
  intro hnone
  have hlag := List.find?_eq_none.mp hnone q hdep
  rw [lagging, h.minimums, hm] at hlag
  exact hlag (decide_eq_true (count32_lt_of_length_lt (h.heard q hq minimum hm)))

/-- A profile that wants instances is seen to do so. -/
theorem Stuck.shortfall_pos (h : Stuck d S s) (hd : d.Admissible) {p : String} (hp : p ∈ S)
    {minimum : Int} (hm : d.minimum? p = some minimum) : 0 < shortfall s p minimum := by
  have hless := h.heard p hp minimum hm
  obtain ⟨hlow, hhigh⟩ := hd p minimum hm
  rw [shortfall, wrap32_sub_count32 hlow hhigh (by omega)]
  omega

/-- **No judgement helps a profile that awaits one of its kind.** -/
theorem Stuck.judged (h : Stuck d S s) (hd : d.Admissible) (hS : Circular d S)
    (hr : r ∈ d.requirements) (hj : Judged r s v s') :
    Stuck d S s' ∧ v.profile = r.profile ∧
      (v.profile ∈ S → v.outcome ∈ [Outcome.gated, .noAutoscaler]) := by
  have hpos : ∀ minimum, r.minimum = some minimum → r.profile ∈ S →
      0 < shortfall s r.profile minimum := by
    intro minimum hm hp
    refine h.shortfall_pos hd hp ?_
    rw [Document.minimum?_of_mem hr, hm]
  cases hj with
  | unmanaged hm =>
      refine ⟨h, rfl, fun hp => ?_⟩
      obtain ⟨q, -, hawaits⟩ := hS r.profile hp
      have hsome := hawaits.isSome_left
      rw [Document.minimum?_of_mem hr, hm] at hsome
      cases hsome
  | noAutoscaler hm hs ha => exact ⟨h.asks ha, rfl, fun _ => by simp⟩
  | satisfied hm hs hzero ha =>
      refine ⟨h.asks ha, rfl, fun hp => ?_⟩
      have := hpos _ hm hp
      omega
  | gated hm hs hmore hf ha => exact ⟨h.asks ha, rfl, fun _ => by simp⟩
  | @grown _ request _ hm hs hmore hf ha hk hprofile hc =>
      -- a profile that grows is none of those
      have hout : r.profile ∉ S := fun hp => h.find?_lagging hS hr hp hf
      refine ⟨(h.asks ha).command fun p hp => ?_, rfl, fun hp => absurd hp hout⟩
      have hne : p ≠ request.profile := by
        rw [hprofile]
        rintro rfl
        exact hout hp
      rw [countableCount_congr (placementsOf_provision_ne _ request hne)]
  | @shrunk minimum s₁ _ hm hs hneg ha hk hc =>
      refine ⟨(h.asks ha).command fun p _ => ?_, rfl, fun hp => ?_⟩
      · have hfewer := countableCount_destroy_le s₁.world (surplus s r.profile minimum) p
        rwa [hc] at hfewer
      · have := hpos _ hm hp
        omega
  | refused hm hs hneg hc ha =>
      refine ⟨h.asks ha, rfl, fun hp => ?_⟩
      have := hpos _ hm hp
      omega

theorem Stuck.judgeAll (hd : d.Admissible) (hS : Circular d S) {rs : List Requirement}
    (hmem : ∀ r ∈ rs, r ∈ d.requirements) (h : Stuck d S s) :
    let out := judgeAll collaborators d rs s
    Stuck d S out.2 ∧ out.1.map (·.profile) = profilesOf rs ∧
      ∀ v ∈ out.1, v.profile ∈ S → v.outcome ∈ [Outcome.gated, .noAutoscaler] := by
  induction rs generalizing s with
  | nil => exact ⟨h, rfl, by simp [Pass.judgeAll]⟩
  | cons r rest ih =>
      obtain ⟨hone, hname, hblocked⟩ :=
        h.judged hd hS (hmem r List.mem_cons_self) (judged_judge d r s)
      obtain ⟨hall, hnames, hrest⟩ :=
        ih (fun q hq => hmem q (List.mem_cons_of_mem _ hq)) hone
      refine ⟨hall, ?_, ?_⟩
      · simp only [Pass.judgeAll, List.map_cons, hname, hnames]
      · intro v hv
        rcases List.mem_cons.mp hv with rfl | hv'
        · exact hblocked
        · exact hrest v hv'

/-- A pass leaves the profiles wanting, and says so of each of them. -/
theorem Wanting.pass (h : Wanting d S c) (hd : d.Admissible) (hS : Circular d S) :
    Wanting d S (c.pass d).2 ∧ (c.pass d).1.verdicts.map (·.profile) = d.profiles ∧
      ∀ v ∈ (c.pass d).1.verdicts, v.profile ∈ S →
        v.outcome ∈ [Outcome.gated, .noAutoscaler] := by
  obtain ⟨hstuck, hnames, hblocked⟩ := (stuck_init h).judgeAll hd hS fun _ hr => hr
  exact ⟨hstuck.world, hnames, hblocked⟩

/-! ## Whole runs -/

theorem Wanting.perform (h : Wanting d S c) (hd : d.Admissible) (hS : Circular d S) {x : Change}
    (hx : Contained d x) : Wanting d S (c.perform x) := by
  cases x with
  | add _ _ _ => exact absurd hx id
  | provision _ => exact absurd hx id
  | kill id => exact h.of_le fun p _ => countableCount_kill_le c id p
  | settle => exact h.of_le fun p _ => Nat.le_of_eq (countableCount_settle c p)
  | setUnscalable _ _ => exact h.of_le fun _ _ => Nat.le_refl _
  | setVersion _ => exact h.of_le fun _ _ => Nat.le_refl _
  | decommission request => exact h.of_le fun p _ => countableCount_destroy_le c request p
  | pass document =>
      have hsame : document = d := hx
      subst hsame
      exact (h.pass hd hS).1

theorem Wanting.run (h : Wanting d S c) (hd : d.Admissible) (hS : Circular d S)
    {changes : List Change} (hx : ∀ x ∈ changes, Contained d x) : Wanting d S (c.run changes) := by
  induction changes generalizing c with
  | nil => exact h
  | cons x rest ih =>
      refine ih (h.perform hd hS (hx x List.mem_cons_self)) fun y hy => ?_
      exact hx y (List.mem_cons_of_mem _ hy)

/-- **Profiles that await one another stay blocked for ever.** Whatever happens short of instances
from outside, none of them has its minimum; each pass tells of each of them that it is held back or
that nothing can scale it, and gives no command about it. -/
theorem circular_stays_blocked (hd : d.Admissible) (hS : Circular d S) (hc : Wanting d S c)
    {changes : List Change} (hx : ∀ x ∈ changes, Contained d x) :
    let now := c.run changes
    Wanting d S now ∧
      (∀ p ∈ S, ∃ v ∈ (now.pass d).1.verdicts, v.profile = p) ∧
      (∀ v ∈ (now.pass d).1.verdicts, v.profile ∈ S →
        v.outcome ∈ [Outcome.gated, .noAutoscaler]) ∧
      ∀ call ∈ Pass.callsOf collaborators d now, ∀ p ∈ S, call.command? ≠ some p := by
  have hnow := hc.run hd hS hx
  obtain ⟨-, hnames, hblocked⟩ := hnow.pass hd hS
  refine ⟨hnow, ?_, hblocked, ?_⟩
  · intro p hp
    obtain ⟨q, -, r, hr, hprofile, -⟩ := hS p hp
    have hmem : p ∈ d.profiles := hprofile ▸ List.mem_map_of_mem hr
    rw [← hnames] at hmem
    exact List.mem_map.mp hmem
  · intro call hcall p hp hcommand
    obtain ⟨v, hv, rfl, hout⟩ :=
      (Pass.callsOf_lawful collaborators (c.run changes) hd).2 call hcall p hcommand
    have hnone := hblocked v hv hp
    simp only [List.mem_cons, List.not_mem_nil, or_false] at hout hnone
    rcases hnone with hgated | hnoAutoscaler
    · simp [hgated] at hout
    · simp [hnoAutoscaler] at hout

/-- A cluster in which one of two profiles that await each other is short of one instance. -/
def stranded : Cluster := ({} : Cluster).run [.add "api" true false, .add "front" true false]

/-- A bit of everything that can happen from inside. -/
def upsets : List Change :=
  [.pass Pass.entangled, .settle, .setUnscalable "api" true, .pass Pass.entangled,
    .setUnscalable "api" false, .kill "front-1", .setVersion "2.0",
    .decommission { profile := "api", count := 1, candidates := stranded.instances },
    .pass Pass.entangled]

/-- The two wait for each other, while a third profile comes and goes. -/
theorem entangled_stay_blocked :
    (Pass.entangled.Admissible ∧ Circular Pass.entangled {p | p = "api" ∨ p = "worker"} ∧
        Wanting Pass.entangled {p | p = "api" ∨ p = "worker"} stranded ∧
        ∀ x ∈ upsets, Contained Pass.entangled x) ∧
      (stranded.run upsets).countableCount "api" < 2 ∧
      (stranded.run upsets).countableCount "worker" < 1 := by
  have hd : Pass.entangled.Admissible := by decide
  have hS : Circular Pass.entangled {p | p = "api" ∨ p = "worker"} := by
    rintro p (rfl | rfl)
    · exact ⟨"worker", .inr rfl, _, List.mem_cons_self, rfl, rfl, by decide, by decide⟩
    · exact ⟨"api", .inl rfl, _, List.mem_cons_of_mem _ List.mem_cons_self, rfl, rfl, by decide,
        by decide⟩
  have hc : Wanting Pass.entangled {p | p = "api" ∨ p = "worker"} stranded := by
    rintro p (rfl | rfl) minimum hm
    · cases hm
      decide
    · cases hm
      decide
  have hx : ∀ x ∈ upsets, Contained Pass.entangled x := by
    simp [upsets, Contained]
  obtain ⟨hwanting, -⟩ := circular_stays_blocked hd hS hc hx
  have hapi := hwanting "api" (.inl rfl) 2 (by decide)
  have hworker := hwanting "worker" (.inr rfl) 1 (by decide)
  exact ⟨⟨hd, hS, hc, hx⟩, by omega, by omega⟩

end FleetScaler.Cluster
