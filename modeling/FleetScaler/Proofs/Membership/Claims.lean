import Mathlib.Logic.ExistsUnique
import FleetScaler.Proofs.Membership.Seating

/-!
# Who claims to be the master

An elector claims to be the master if it believes that its session is up and the service says that
its member is the master. The service never names two members of a path, so no two electors claim
the same path, however many events are waiting. The events decide only whether a claim that would be
right is made: a lost session silences an elector once it has been told, and where no event is
waiting every claim that would be right is made.
-/

namespace FleetScaler

/-- Activation tells an elector nothing of its session. -/
theorem Elector.connected_activate {σ γ : Type} (e : Elector γ)
    (service : Option (GroupAccess σ γ)) (s : σ) :
    (e.activate service s).2.1.connected = e.connected := by
  unfold activate
  split
  · rfl
  split
  · rfl
  split
  · rfl
  split
  · rfl
  split
  · rfl
  split <;> rfl

/-- An elector that is deactivated believes that its session is down. -/
theorem Elector.connected_deactivate {σ γ : Type} (e : Elector γ) (access : GroupAccess σ γ)
    (s : σ) : (e.deactivate access s).1.connected = false := by
  unfold deactivate
  split <;> rfl

namespace Electorate

open Coordination

variable {u : Electorate} {k : Nat}

/-! ## Claims -/

theorem claims_iff : u.claims k = true ↔
    (u.elector k).connected = true ∧
      ∃ n, (u.elector k).group = some n ∧ u.service.isMaster n = true := by
  unfold claims Elector.isMaster
  cases (u.elector k).group <;> simp [access]

theorem Seated.isActive {n : Nat} {m : Member Nat} (h : Seated u k n m) : u.isActive k = true := by
  rw [Electorate.isActive, Elector.isActive, h.group, Option.isSome_some]

theorem Current.exists_seated (h : Current u) (hk : u.isActive k = true) :
    ∃ n m, Seated u k n m := by
  rw [Electorate.isActive, Elector.isActive, Option.isSome_iff_exists] at hk
  obtain ⟨n, hg⟩ := hk
  exact ⟨n, h.seated k n hg⟩

/-- An elector that claims to be the master has a seat, believes that its session is up, and is
the master. -/
theorem Current.seated_of_claims (h : Current u) (hk : u.claims k = true) :
    ∃ n m, Seated u k n m ∧ (u.elector k).connected = true ∧ u.service.isMaster n = true := by
  obtain ⟨hup, n, hg, hmaster⟩ := claims_iff.mp hk
  obtain ⟨m, hs⟩ := h.seated k n hg
  exact ⟨n, m, hs, hup, hmaster⟩

theorem Seated.sessionUp {n : Nat} {m : Member Nat} (h : Seated u k n m) :
    u.sessionUp k = m.connected := by
  simp [Electorate.sessionUp, h.group, h.found]

/-- The member of an elector is the master exactly if the service names its id. -/
theorem Seated.isMaster_iff {n : Nat} {m : Member Nat} (h : Seated u k n m) :
    u.service.isMaster n = true ↔ u.service.masterOf (u.path k) = u.memberId k := by
  simp [Coordination.isMaster, memberId, Elector.memberId, h.found, h.isOpen, h.path, h.group,
    access, idOf]

/-- An elector that claims to be the master is active, and its member is the one whom the service
names. -/
theorem Current.rightful (h : Current u) (hk : u.claims k = true) :
    u.isActive k = true ∧ u.service.masterOf (u.path k) = u.memberId k := by
  obtain ⟨n, m, hs, _, hmaster⟩ := h.seated_of_claims hk
  exact ⟨hs.isActive, hs.isMaster_iff.mp hmaster⟩

/-- **No two electors claim the same path**, since only one member of it stands first. -/
theorem Current.claims_unique (h : Current u) {j : Nat} (hj : u.claims j = true)
    (hk : u.claims k = true) (hp : u.path j = u.path k) : j = k := by
  obtain ⟨n, m, hs, _, hmaster⟩ := h.seated_of_claims hj
  obtain ⟨n', m', hs', _, hmaster'⟩ := h.seated_of_claims hk
  have hfirst := (h.orderly.isMaster_iff_first hs.found).mp hmaster
  have hfirst' := (h.orderly.isMaster_iff_first hs'.found).mp hmaster'
  rw [hs.path, hp, ← hs'.path] at hfirst
  obtain rfl := h.orderly.first_unique hfirst hfirst'
  exact hs.sole hs'

/-! ### Where no event is waiting -/

theorem Seated.told_of_backlog {n : Nat} {m : Member Nat} (h : Seated u k n m)
    (hb : u.service.backlog = 0) : (u.elector k).connected = m.connected :=
  h.told (queue_of_backlog hb (List.mem_of_getElem? h.found))

/-- **Where no event is waiting, every claim that would be right is made.** -/
theorem Current.claims_of_backlog (h : Current u) (hb : u.service.backlog = 0) :
    u.claims k = true ↔ u.isActive k = true ∧ u.sessionUp k = true
      ∧ u.service.masterOf (u.path k) = u.memberId k := by
  constructor
  · intro hk
    obtain ⟨n, m, hs, hup, hmaster⟩ := h.seated_of_claims hk
    refine ⟨hs.isActive, ?_, hs.isMaster_iff.mp hmaster⟩
    rw [hs.sessionUp, ← hs.told_of_backlog hb]
    exact hup
  · rintro ⟨hactive, hup, hmaster⟩
    obtain ⟨n, m, hs⟩ := h.exists_seated hactive
    refine claims_iff.mpr ⟨?_, n, hs.group, hs.isMaster_iff.mpr hmaster⟩
    rw [hs.told_of_backlog hb, ← hs.sessionUp]
    exact hup

/-- Then somebody claims every path on which an elector has its session up. -/
theorem Current.exists_claims (h : Current u) (hb : u.service.backlog = 0)
    (hactive : u.isActive k = true) (hup : u.sessionUp k = true) :
    ∃ j, u.path j = u.path k ∧ u.claims j = true := by
  obtain ⟨n, m, hs⟩ := h.exists_seated hactive
  rw [hs.sessionUp] at hup
  have hstands : u.service.standsOn (u.path k) n = true :=
    standsOn_iff.mpr ⟨m, hs.found, hs.path, by simp [Member.inLine, hs.started, hup, hs.isOpen]⟩
  -- a line in which somebody stands has a first member
  rcases firstInLine_line u.service (u.path k) with ⟨_, hnobody⟩ | ⟨i, m', _, hi, hfirst⟩
  · exact absurd hstands (by simp [hnobody n])
  · obtain ⟨x, hx, hpath, hline⟩ := standsOn_iff.mp hfirst.1
    obtain rfl := Option.some.inj (hi.symm.trans hx)
    simp only [Member.inLine, Bool.and_eq_true, Bool.not_eq_true'] at hline
    obtain ⟨j, hj⟩ := h.owned i m' hi hline.2
    obtain ⟨y, hs'⟩ := h.seated j i hj
    obtain rfl := Option.some.inj (hi.symm.trans hs'.found)
    refine ⟨j, hs'.path.symm.trans hpath, claims_iff.mpr ⟨?_, i, hj, ?_⟩⟩
    · rw [hs'.told_of_backlog hb]
      exact hline.1.2
    · exact h.orderly.isMaster_iff.mpr ⟨_, hfirst⟩

/-! ### After a lost session -/

/-- After some listeners have heard an event, an elector that is one of them believes it, and
another one believes what it did. -/
theorem connected_foldl_hear (u : Electorate) (n : Nat) (event : GroupEvent)
    (listeners : List Nat) (k : Nat) :
    ((listeners.foldl (hear n event) u).elector k).connected
      = if k ∈ listeners then event.up else (u.elector k).connected := by
  induction listeners generalizing u with
  | nil => simp
  | cons j rest ih =>
      rw [List.foldl_cons, ih]
      by_cases hrest : k ∈ rest
      · simp [hrest]
      · by_cases hj : k = j
        · subst hj
          simp [hrest, hear, Elector.connected_hear]
        · simp [hrest, hj, hear, elector_replace_ne u hj]

/-- After a delivery, an elector that has heard an event believes it. -/
theorem connected_deliver (u : Electorate) (n k : Nat) :
    ((u.deliver n).elector k).connected
      = (((u.hearings k (.deliver n)).getLast?).map GroupEvent.up).getD
          (u.elector k).connected := by
  rcases ht : u.service.takeEvent n with ⟨_ | ⟨event, listeners⟩, service⟩
  · simp [deliver, hearings, ht]
  · simp only [deliver, hearings, ht, connected_foldl_hear]
    by_cases hk : k ∈ listeners
    · have hcount : listeners.count k ≠ 0 := by simpa [List.count_eq_zero] using hk
      simp [hk, List.getLast?_replicate, hcount]
    · have hcount : listeners.count k = 0 := List.count_eq_zero.mpr hk
      rw [if_neg hk, hcount]
      rfl

/-- Whoever has just heard that the session is lost believes it. -/
theorem connected_of_disconnected {x : ElectionStep} (hx : .disconnected ∈ u.hearings k x) :
    ((u.perform x).elector k).connected = false := by
  cases x with
  | deliver n =>
      rw [perform, connected_deliver]
      unfold hearings at hx ⊢
      cases ht : (u.service.takeEvent n).1 with
      | none => simp [ht] at hx
      | some taken =>
          simp only [ht, List.mem_replicate] at hx
          simp [ht, List.getLast?_replicate, hx.1, ← hx.2, GroupEvent.up]
  | activate | deactivate | disconnect | reconnect => exact absurd hx (by simp [hearings])

/-- Only `connected` and `changed` make an elector believe that its session is up. -/
theorem connected_perform (hc : (u.elector k).connected = false) {x : ElectionStep}
    (hx : ∀ event ∈ u.hearings k x, event.up = false) :
    ((u.perform x).elector k).connected = false := by
  cases x with
  | activate j =>
      by_cases hj : k = j
      · subst hj
        simp [perform, activate, Elector.connected_activate, hc]
      · simp [perform, activate, elector_replace_ne u hj, hc]
  | deactivate j =>
      by_cases hj : k = j
      · subst hj
        simp [perform, deactivate, Elector.connected_deactivate]
      · simp [perform, deactivate, elector_replace_ne u hj, hc]
  | disconnect id => exact hc
  | reconnect id => exact hc
  | deliver n =>
      rw [perform, connected_deliver]
      cases hl : (u.hearings k (.deliver n)).getLast? with
      | none => exact hc
      | some event => exact hx event (List.mem_of_getLast? hl)

theorem connected_run (hc : (u.elector k).connected = false) {steps : List ElectionStep}
    (hs : ∀ event ∈ u.heard k steps, event.up = false) :
    ((u.run steps).elector k).connected = false := by
  induction steps generalizing u with
  | nil => exact hc
  | cons x rest ih =>
      rw [heard] at hs
      refine ih (connected_perform hc fun event he => ?_) fun event he => ?_
      · exact hs event (List.mem_append_left _ he)
      · exact hs event (List.mem_append_right _ he)

/-- **An elector that has heard of a lost session makes no claim** before it hears of another. -/
theorem not_claims_of_disconnected {x : ElectionStep} (hx : .disconnected ∈ u.hearings k x)
    {later : List ElectionStep} (hconnected : .connected ∉ (u.perform x).heard k later)
    (hchanged : .changed ∉ (u.perform x).heard k later) :
    ((u.perform x).run later).claims k = false := by
  have hdown : (((u.perform x).run later).elector k).connected = false := by
    refine connected_run (connected_of_disconnected hx) fun event he => ?_
    cases event with
    | connected => exact absurd he hconnected
    | changed => exact absurd he hchanged
    | disconnected | unknown => rfl
  simp [claims, Elector.isMaster, hdown]

/--
**At most one elector of a path claims to be the master, at every moment.** Let any number of
electors come and go at one service, let sessions be lost and come back, and let events be delivered
one at a time, all in any order.

* An elector that claims to be the master is active, and its member is the one whom the service
  names as the master of the path.
* No two electors claim the same path.
* From the delivery of `disconnected` until the delivery of a later `connected` or `changed`, an
  elector makes no claim.
* Where no event is waiting, an elector claims to be the master exactly if it is active, its session
  is up and its member is the master. So exactly one elector claims each path on which an active
  elector has its session up.
-/
theorem claims_are_exclusive (configs : List ElectorConfig) (steps : List ElectionStep) :
    let u := (start configs).run steps
    (∀ k, u.claims k = true →
      u.isActive k = true ∧ u.service.masterOf (u.path k) = u.memberId k) ∧
    (∀ j k, u.claims j = true → u.claims k = true → u.path j = u.path k → j = k) ∧
    (∀ k x later, .disconnected ∈ u.hearings k x →
      .connected ∉ (u.perform x).heard k later → .changed ∉ (u.perform x).heard k later →
      ((u.perform x).run later).claims k = false) ∧
    (u.service.backlog = 0 →
      (∀ k, u.claims k = true ↔ u.isActive k = true ∧ u.sessionUp k = true
        ∧ u.service.masterOf (u.path k) = u.memberId k) ∧
      (∀ path, (∃ k, u.path k = path ∧ u.isActive k = true ∧ u.sessionUp k = true) →
        ∃! j, u.path j = path ∧ u.claims j = true)) := by
  intro u
  have h : Current u := current_run (current_start configs) steps
  refine ⟨fun k hk => h.rightful hk, fun j k hj hk hp => h.claims_unique hj hk hp,
    fun k x later hx hc hn => not_claims_of_disconnected hx hc hn,
    fun hb => ⟨fun k => h.claims_of_backlog hb, ?_⟩⟩
  rintro path ⟨k, rfl, hactive, hup⟩
  obtain ⟨j, hp, hj⟩ := h.exists_claims hb hactive hup
  refine ⟨j, ⟨hp, hj⟩, ?_⟩
  rintro i ⟨hp', hi⟩
  exact h.claims_unique hi hj (hp'.trans hp.symm)

/-- Two electors of one path are activated and hear of it, and the session of the first is lost. -/
def upset : List ElectionStep :=
  [.activate 0, .activate 1, .deliver 0, .deliver 0, .deliver 1,
    .disconnect "/autoscale/controllers/autoscaler-0"]

/-- Right away nobody but the second is the master. The first hears of the loss, and once the second
has heard of it too, nothing is waiting and the second is the only one to claim the path. -/
theorem second_claims_after_upset :
    let u := (start [{}, {}]).run upset
    let u' := (start [{}, {}]).run (upset ++ [.deliver 0, .deliver 1])
    u.claims 1 = true ∧ u.service.masterOf (u.path 1) = u.memberId 1 ∧
    .disconnected ∈ u.hearings 0 (.deliver 0) ∧
    ((u.perform (.deliver 0)).run [.deliver 1]).claims 0 = false ∧
    u'.service.backlog = 0 ∧ u'.sessionUp 1 = true ∧
    ∃! j, u'.path j = "/autoscale/controllers" ∧ u'.claims j = true := by
  intro u u'
  obtain ⟨hrightful, _, hsilent, _⟩ := claims_are_exclusive [{}, {}] upset
  obtain ⟨_, _, _, hsettled⟩ := claims_are_exclusive [{}, {}] (upset ++ [.deliver 0, .deliver 1])
  have hclaims : u.claims 1 = true := by decide
  have hlost : .disconnected ∈ u.hearings 0 (.deliver 0) := by decide
  have hwaiting : u'.service.backlog = 0 := by decide
  have hup : u'.sessionUp 1 = true := by decide
  exact ⟨hclaims, (hrightful 1 hclaims).2, hlost, hsilent 0 _ _ hlost (by decide) (by decide),
    hwaiting, hup, (hsettled hwaiting).2 _ ⟨1, by decide, by decide, hup⟩⟩

end Electorate

end FleetScaler
