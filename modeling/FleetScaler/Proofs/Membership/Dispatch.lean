import FleetScaler.Membership.Transcript
import FleetScaler.Proofs.Membership.Emission

/-!
# Who hears what

A member takes the next event off its queue together with the listeners that are registered at that
moment, and then calls these listeners one by one. `Dispatch` is a service in the middle of all
this, where anything may happen between two calls: other calls on the service, by a listener or by
anybody else, registrations that come and go, and listeners that fail.

The account of a listener is what it has heard of a member, what the member still has to call it
for, and what waits in the queue. Together they are the events that have been queued for the member,
each as often as the listener was registered when the event was taken. Every step keeps the account
(`Told.perform`), and once nothing is left to be heard the listener has heard everything.
-/

namespace FleetScaler

variable {κ : Type}

/-- Publishing changes one member, if it changes anything. -/
theorem Coordination.update_cases (s : Coordination κ) (j : Nat) (state : MemberState) :
    (s.update j state).2 = s ∨ (s.update j state).2 = s.onMember j fun m => { m with state } := by
  unfold update
  split
  · exact Or.inl rfl
  · split
    · exact Or.inl rfl
    · exact Or.inr rfl

/-! ## Services at work -/

/-- A coordination service whose members are in the middle of calling their listeners. -/
structure Dispatch (κ : Type) extends Transcript κ where
  /-- The calls that a member still has to make for the event that it took last. -/
  calls : Nat → List (κ × GroupEvent) := fun _ => []

instance : Inhabited (Dispatch κ) := ⟨{}⟩

namespace Dispatch

/-- What may happen next. -/
inductive Step (κ : Type) where
  | request (r : Request)
  | publish (number : Nat) (state : MemberState)
  | listen (number : Nat) (listener : κ)
  | unlisten (number : Nat) (listener : κ)
  | expire (listener : κ)
  /-- A member that has called everybody takes its next event. -/
  | take (number : Nat)
  /-- A member makes its next call. -/
  | call (number : Nat)
  /-- A listener fails on an event. -/
  | fail (number : Nat) (event : GroupEvent) (failure : Failure)

/-- The dispatch with other calls to make for one member. -/
def withCalls (t : Dispatch κ) (number : Nat) (calls : List (κ × GroupEvent)) : Dispatch κ :=
  { t with calls := fun j => if j = number then calls else t.calls j }

@[simp] theorem withCalls_self (t : Dispatch κ) (n : Nat) (cs : List (κ × GroupEvent)) :
    (t.withCalls n cs).calls n = cs := if_pos rfl

theorem withCalls_ne (t : Dispatch κ) {n j : Nat} (cs : List (κ × GroupEvent)) (hj : n ≠ j) :
    (t.withCalls j cs).calls n = t.calls n := if_neg hj

@[simp] theorem withCalls_service (t : Dispatch κ) (n : Nat) (cs : List (κ × GroupEvent)) :
    (t.withCalls n cs).service = t.service := rfl

@[simp] theorem withCalls_heard (t : Dispatch κ) (n : Nat) (cs : List (κ × GroupEvent)) :
    (t.withCalls n cs).heard = t.heard := rfl

theorem withCalls_withCalls (t : Dispatch κ) (n : Nat) (cs cs' : List (κ × GroupEvent)) :
    (t.withCalls n cs).withCalls n cs' = t.withCalls n cs' := by
  simp only [withCalls, mk.injEq, true_and]
  funext j
  split <;> rfl

/-- A member that has no call to make may be said to have none. -/
theorem withCalls_of_idle {t : Dispatch κ} {n : Nat} (h : t.calls n = []) :
    t.withCalls n [] = t := by
  obtain ⟨u, calls⟩ := t
  simp only [withCalls, mk.injEq, true_and]
  funext j
  by_cases hj : j = n
  · rw [if_pos hj, hj]
    exact h.symm
  · rw [if_neg hj]

section

variable [DecidableEq κ]

/-- What comes of a step. -/
def perform (t : Dispatch κ) : Step κ → Dispatch κ
  | .request r => { t with service := t.service.serve r }
  | .publish n state => { t with service := (t.service.update n state).2 }
  | .listen n k => { t with service := t.service.listen n k }
  | .unlisten n k => { t with service := t.service.unlisten n k }
  | .expire k => { t with service := t.service.expire k }
  | .take n =>
    match t.service.takeEvent n, t.calls n with
    | (some (event, listeners), service), [] =>
      { t with service }.withCalls n (listeners.map (·, event))
    | _, _ => t
  | .call n =>
    match t.calls n with
    | [] => t
    | (listener, event) :: rest =>
      let hearing := { member := n, listener, event, isMaster := t.service.isMaster n }
      { t with heard := hearing :: t.heard }.withCalls n rest
  | .fail n event failure => { t with service := t.service.listenerFailed n event failure }

/-- What comes of some steps, one after the other. -/
def run (t : Dispatch κ) (steps : List (Step κ)) : Dispatch κ := steps.foldl perform t

/-! ### The account of a listener -/

/-- The events that a step queues for a member. -/
def emitted (t : Dispatch κ) (step : Step κ) (n : Nat) : List GroupEvent :=
  match step with
  | .request r => t.service.events r n
  | _ => []

/-- The events that some steps queue for a member. -/
def queued (t : Dispatch κ) (n : Nat) : List (Step κ) → List GroupEvent
  | [] => []
  | step :: steps => t.emitted step n ++ (t.perform step).queued n steps

/-- The events of a member that a listener has heard, in that order. -/
def heardBy (t : Dispatch κ) (n : Nat) (k : κ) : List GroupEvent :=
  (t.heard.reverse.filter fun h => h.member = n ∧ h.listener = k).map (·.event)

/-- The events for which a member is about to call a listener. -/
def owed (t : Dispatch κ) (n : Nat) (k : κ) : List GroupEvent :=
  ((t.calls n).filter (·.1 = k)).map (·.2)

/-! ### Small facts -/

@[simp] theorem run_nil (t : Dispatch κ) : t.run [] = t := rfl

@[simp] theorem run_cons (t : Dispatch κ) (step : Step κ) (steps : List (Step κ)) :
    t.run (step :: steps) = (t.perform step).run steps := rfl

theorem run_append (t : Dispatch κ) (before after : List (Step κ)) :
    t.run (before ++ after) = (t.run before).run after := List.foldl_append ..

theorem queued_append (t : Dispatch κ) (n : Nat) (before after : List (Step κ)) :
    t.queued n (before ++ after) = t.queued n before ++ (t.run before).queued n after := by
  induction before generalizing t with
  | nil => rfl
  | cons step before ih => simp [queued, ih]

theorem heardBy_cons (t : Dispatch κ) (n : Nat) (k : κ) (h : Hearing κ)
    (heard : List (Hearing κ)) (he : t.heard = h :: heard) :
    t.heardBy n k = heardBy { t with heard } n k
      ++ if h.member = n ∧ h.listener = k then [h.event] else [] := by
  by_cases hh : h.member = n ∧ h.listener = k <;> simp [heardBy, he, hh]

/-! ### Taking an event and making a call -/

/-- A member takes its next event if there is one and all the calls for the last one are made. -/
theorem take_cases (t : Dispatch κ) (j : Nat) :
    t.perform (.take j) = t ∨ ∃ x event rest, t.service.members[j]? = some x ∧
      x.queue = event :: rest ∧ t.calls j = [] ∧
      t.perform (.take j)
        = { t with service := t.service.onMember j fun m => { m with queue := rest } }.withCalls j
            (x.listeners.map (·, event)) := by
  cases hm : t.service.members[j]? with
  | none =>
      refine Or.inl ?_
      simp only [perform, Coordination.takeEvent, hm]
  | some x =>
      cases hq : x.queue with
      | nil =>
          refine Or.inl ?_
          simp only [perform, Coordination.takeEvent, hm, hq]
      | cons event rest =>
          cases hc : t.calls j with
          | nil =>
              refine Or.inr ⟨x, event, rest, rfl, hq, rfl, ?_⟩
              simp only [perform, Coordination.takeEvent, hm, hq, hc]
          | cons call calls =>
              refine Or.inl ?_
              simp only [perform, Coordination.takeEvent, hm, hq, hc]

/-- A member that has a call to make makes it. -/
theorem call_cases (t : Dispatch κ) (j : Nat) :
    t.perform (.call j) = t ∨ ∃ listener event rest, t.calls j = (listener, event) :: rest ∧
      t.perform (.call j)
        = { t with
            heard := { member := j, listener, event, isMaster := t.service.isMaster j } :: t.heard
          }.withCalls j rest := by
  cases hc : t.calls j with
  | nil => exact Or.inl (by simp only [perform, hc])
  | cons call rest => exact Or.inr ⟨call.1, call.2, rest, rfl, by simp only [perform, hc]⟩

/-! ### What a step makes of a member -/

/-- What becomes of a member, of the calls that it has to make and of what has been heard of it,
where `events` are queued for it. -/
inductive Advance (t t' : Dispatch κ) (n : Nat) (m m' : Member κ) :
    List GroupEvent → Prop where
  /-- Some events are queued, and nothing is heard. -/
  | queue (events : List GroupEvent) (closed : m'.closed = m.closed)
      (queue : m'.queue = m.queue ++ events) (calls : t'.calls n = t.calls n)
      (heard : ∀ k, t'.heardBy n k = t.heardBy n k) : Advance t t' n m m' events
  /-- The member is closed. -/
  | close (closed : m'.closed = true) (queue : m'.queue = []) (calls : t'.calls n = t.calls n)
      (heard : ∀ k, t'.heardBy n k = t.heardBy n k) : Advance t t' n m m' []
  /-- The first event in the queue is now to be heard by everyone registered. -/
  | take (event : GroupEvent) (closed : m'.closed = m.closed) (queue : m.queue = event :: m'.queue)
      (idle : t.calls n = []) (calls : t'.calls n = m.listeners.map (·, event))
      (heard : ∀ k, t'.heardBy n k = t.heardBy n k) : Advance t t' n m m' []
  /-- The first of the calls that were left is made. -/
  | call (listener : κ) (event : GroupEvent) (same : m' = m)
      (calls : t.calls n = (listener, event) :: t'.calls n)
      (heard : ∀ k, t'.heardBy n k = t.heardBy n k ++ if listener = k then [event] else []) :
      Advance t t' n m m' []

/-- A step that neither queues an event for a member nor has one heard of it. -/
theorem Advance.idle {t t' : Dispatch κ} {n : Nat} {m m' : Member κ}
    (hc : m'.closed = m.closed) (hq : m'.queue = m.queue) (calls : t'.calls n = t.calls n)
    (heard : ∀ k, t'.heardBy n k = t.heardBy n k) : Advance t t' n m m' [] :=
  .queue [] hc (by rw [hq, List.append_nil]) calls heard

variable {t : Dispatch κ} {n : Nat} {m : Member κ}

/-- What a step makes of a member. -/
structure Moves (t : Dispatch κ) (step : Step κ) (n : Nat) (m m' : Member κ) : Prop where
  advance : Advance t (t.perform step) n m m' (t.emitted step n)
  started : m.started = true → m'.started = true
  unstarted : m'.started = false → t.emitted step n = []
  /-- Registrations come and go one listener at a time. -/
  listeners : m'.listeners = m.listeners ∨
    (∃ k, step = .listen n k ∧ m'.listeners = m.listeners ++ [k]) ∨
    ∃ k, (step = .unlisten n k ∨ step = .expire k) ∧ m'.listeners = m.listeners.filter (· ≠ k)

theorem moves_request (ho : t.service.Orderly) (hm : t.service.members[n]? = some m)
    (r : Request) : ∃ m', (t.perform (.request r)).service.members[n]? = some m' ∧
      Moves t (.request r) n m m' := by
  obtain ⟨m', hm', served⟩ := Coordination.served ho r hm
  refine ⟨m', hm', ?_, served.started, served.unstarted, Or.inl served.listeners⟩
  rcases served.queue with ⟨hc, hq⟩ | ⟨hc, rfl, he⟩
  · exact .queue _ hc hq rfl fun _ => rfl
  · rw [emitted, he]
    exact .close rfl rfl rfl fun _ => rfl

/-- A step that changes one member, but neither its queue nor its life. -/
theorem moves_onMember (hm : t.service.members[n]? = some m) {step : Step κ} (j : Nat)
    {f : Member κ → Member κ}
    (ht : t.perform step = { t with service := t.service.onMember j f })
    (he : t.emitted step n = [])
    (hf : (f m).closed = m.closed ∧ (f m).queue = m.queue ∧ (f m).started = m.started)
    (hl : j = n → (f m).listeners = m.listeners ∨
      (∃ k, step = .listen n k ∧ (f m).listeners = m.listeners ++ [k]) ∨
      ∃ k, (step = .unlisten n k ∨ step = .expire k) ∧
        (f m).listeners = m.listeners.filter (· ≠ k)) :
    ∃ m', (t.perform step).service.members[n]? = some m' ∧ Moves t step n m m' := by
  have hmembers : (t.perform step).service.members[n]?
      = if j = n then some (f m) else some m := by
    rw [ht, Coordination.getElem?_onMember, hm]
    rfl
  have hidle : ∀ m' : Member κ, m'.closed = m.closed → m'.queue = m.queue →
      Advance t (t.perform step) n m m' (t.emitted step n) := by
    intro m' hc hq
    rw [ht, he]
    exact .idle hc hq rfl fun _ => rfl
  by_cases hj : j = n
  · exact ⟨f m, by rw [hmembers, if_pos hj], hidle _ hf.1 hf.2.1, fun hs => hf.2.2.trans hs,
      fun _ => he, hl hj⟩
  · exact ⟨m, by rw [hmembers, if_neg hj], hidle _ rfl rfl, id, fun _ => he, Or.inl rfl⟩

theorem moves_take (hm : t.service.members[n]? = some m) (j : Nat) :
    ∃ m', (t.perform (.take j)).service.members[n]? = some m' ∧ Moves t (.take j) n m m' := by
  rcases take_cases t j with he | ⟨x, event, rest, hx, hq, hc, he⟩
  · refine ⟨m, by rw [he, hm], ?_, id, fun _ => rfl, Or.inl rfl⟩
    exact .idle rfl rfl (by rw [he]) fun k => by rw [he]
  · by_cases hj : j = n
    · subst hj
      obtain rfl := Option.some.inj (hm.symm.trans hx)
      refine ⟨{ m with queue := rest }, ?_, ?_, id, fun _ => rfl, Or.inl rfl⟩
      · simp [he, Coordination.getElem?_onMember, hm]
      · rw [he]
        exact .take event rfl hq hc (withCalls_self ..) fun _ => rfl
    · refine ⟨m, ?_, ?_, id, fun _ => rfl, Or.inl rfl⟩
      · simp [he, Coordination.getElem?_onMember, hm, hj]
      · rw [he]
        exact .idle rfl rfl (withCalls_ne _ _ (Ne.symm hj)) fun _ => rfl

theorem moves_call (hm : t.service.members[n]? = some m) (j : Nat) :
    ∃ m', (t.perform (.call j)).service.members[n]? = some m' ∧ Moves t (.call j) n m m' := by
  rcases call_cases t j with he | ⟨listener, event, rest, hc, he⟩
  · refine ⟨m, by rw [he, hm], ?_, id, fun _ => rfl, Or.inl rfl⟩
    exact .idle rfl rfl (by rw [he]) fun k => by rw [he]
  · refine ⟨m, by rw [he]; exact hm, ?_, id, fun _ => rfl, Or.inl rfl⟩
    rw [he]
    by_cases hj : j = n
    · subst hj
      refine .call listener event rfl (by rw [hc, withCalls_self]) fun k => ?_
      rw [heardBy_cons _ _ _ _ t.heard (withCalls_heard ..)]
      simp [heardBy]
    · refine .idle rfl rfl (withCalls_ne _ _ (Ne.symm hj)) fun k => ?_
      rw [heardBy_cons _ _ _ _ t.heard (withCalls_heard ..)]
      simp [heardBy, hj]

/-- **What a step makes of a member**: it moves one event on, or none. -/
theorem moves (ho : t.service.Orderly) (hm : t.service.members[n]? = some m) (step : Step κ) :
    ∃ m', (t.perform step).service.members[n]? = some m' ∧ Moves t step n m m' := by
  cases step with
  | request r => exact moves_request ho hm r
  | publish j state =>
      rcases t.service.update_cases j state with he | he
      · refine ⟨m, by simp [perform, he, hm], ?_, id, fun _ => rfl, Or.inl rfl⟩
        exact .idle rfl rfl rfl fun _ => rfl
      · exact moves_onMember hm j (by rw [perform, he]) rfl ⟨rfl, rfl, rfl⟩ fun _ => Or.inl rfl
  | listen j k =>
      refine moves_onMember hm j rfl rfl ⟨rfl, rfl, rfl⟩ fun hj => Or.inr (Or.inl ⟨k, ?_, rfl⟩)
      rw [hj]
  | unlisten j k =>
      refine moves_onMember hm j rfl rfl ⟨rfl, rfl, rfl⟩ fun hj =>
        Or.inr (Or.inr ⟨k, Or.inl ?_, rfl⟩)
      rw [hj]
  | expire k =>
      refine ⟨{ m with listeners := m.listeners.filter (· ≠ k) }, ?_, ?_, id, fun _ => rfl,
        Or.inr (Or.inr ⟨k, Or.inr rfl, rfl⟩)⟩
      · simp [perform, Coordination.expire, hm]
      · exact .idle rfl rfl rfl fun _ => rfl
  | take j => exact moves_take hm j
  | call j => exact moves_call hm j
  | fail j event failure =>
      exact ⟨m, hm, .idle rfl rfl rfl fun _ => rfl, id, fun _ => rfl, Or.inl rfl⟩

/-- A closed member stays closed. -/
theorem Advance.closed {t t' : Dispatch κ} {m m' : Member κ} {events : List GroupEvent}
    (a : Advance t t' n m m' events) (hc : m.closed = true) : m'.closed = true := by
  cases a with
  | queue events closed => rw [closed, hc]
  | close closed => exact closed
  | take event closed => rw [closed, hc]
  | call listener event same => rw [same, hc]

theorem orderly_perform (ho : t.service.Orderly) (step : Step κ) :
    (t.perform step).service.Orderly := by
  cases step with
  | request r => exact Coordination.orderly_serve ho r
  | publish j state => exact (t.service.sameLines_update j state).orderly ho
  | listen j k => exact (t.service.sameLines_listen j k).orderly ho
  | unlisten j k => exact (t.service.sameLines_unlisten j k).orderly ho
  | expire k => exact (t.service.sameLines_expire k).orderly ho
  | take j =>
      rcases take_cases t j with he | ⟨x, event, rest, _, _, _, he⟩
      · rwa [he]
      · rw [he]
        exact (Coordination.sameLines_onMember t.service j (f := fun m => { m with queue := rest })
          fun _ => rfl).orderly ho
  | call j =>
      rcases call_cases t j with he | ⟨listener, event, rest, _, he⟩
      · rwa [he]
      · rwa [he]
  | fail j event failure => exact (t.service.sameLines_note _ _).orderly ho

theorem orderly_run (ho : t.service.Orderly) (steps : List (Step κ)) :
    (t.run steps).service.Orderly := by
  induction steps generalizing t with
  | nil => exact ho
  | cons step steps ih => exact ih (orderly_perform ho step)

/-- What every step keeps of a member is kept by a run. -/
theorem keeps_run {p : Member κ → Prop}
    (hp : ∀ (t : Dispatch κ) (step : Step κ) (m m' : Member κ), Moves t step n m m' → p m → p m')
    (ho : t.service.Orderly) (hm : t.service.members[n]? = some m) (steps : List (Step κ))
    {m' : Member κ} (hm' : (t.run steps).service.members[n]? = some m') (h : p m) : p m' := by
  induction steps generalizing t m with
  | nil =>
      obtain rfl := Option.some.inj (hm.symm.trans hm')
      exact h
  | cons step steps ih =>
      obtain ⟨m₁, hm₁, moves⟩ := moves ho hm step
      exact ih (orderly_perform ho step) hm₁ hm' (hp t step m m₁ moves h)

/-! ### Nothing to hear before the start -/

/-- Nothing has ever been queued for a member, and nothing has been heard of it. -/
structure Untouched (t : Dispatch κ) (n : Nat) (queued : List GroupEvent) : Prop where
  waiting : ∀ m, t.service.members[n]? = some m → m.queue = []
  calls : t.calls n = []
  heard : ∀ k, t.heardBy n k = []
  queued : queued = []

/-- A step does nothing about a member that has not joined, unless that joins. -/
theorem untouched_absent {queued : List GroupEvent} (h : Untouched t n queued)
    (hn : t.service.members[n]? = none) (step : Step κ) :
    Untouched (t.perform step) n (queued ++ t.emitted step n) := by
  have hquiet : ∀ t' : Dispatch κ, t'.service.members[n]? = none → t'.calls n = t.calls n →
      (∀ k, t'.heardBy n k = t.heardBy n k) → Untouched t' n (queued ++ []) := by
    intro t' hn' hc hh
    refine ⟨fun m hm => absurd (hn'.symm.trans hm) (by simp), hc.trans h.calls, fun k => ?_, ?_⟩
    · rw [hh k, h.heard k]
    · rw [List.append_nil, h.queued]
  have hchange : ∀ j (f : Member κ → Member κ),
      (t.service.onMember j f).members[n]? = none := by
    intro j f
    rw [Coordination.getElem?_onMember, hn]
    simp
  cases step with
  | request r =>
      refine ⟨fun m hm => (Coordination.queue_newcomer r hn hm).1, h.calls, h.heard, ?_⟩
      rw [h.queued, emitted, Coordination.events_of_none r hn, List.append_nil]
  | publish j state =>
      rcases t.service.update_cases j state with he | he
      · exact hquiet _ (by simp [perform, he, hn]) rfl fun _ => rfl
      · exact hquiet _ (by rw [perform, he]; exact hchange ..) rfl fun _ => rfl
  | listen j k => exact hquiet _ (hchange ..) rfl fun _ => rfl
  | unlisten j k => exact hquiet _ (hchange ..) rfl fun _ => rfl
  | expire k => exact hquiet _ (by simp [perform, Coordination.expire, hn]) rfl fun _ => rfl
  | take j =>
      rcases take_cases t j with he | ⟨x, event, rest, hx, _, _, he⟩
      · exact hquiet _ (by rw [he, hn]) (by rw [he]) fun k => by rw [he]
      · have hj : n ≠ j := by
          rintro rfl
          exact absurd (hn.symm.trans hx) (by simp)
        refine hquiet _ ?_ ?_ ?_ <;> rw [he]
        · exact hchange ..
        · exact withCalls_ne _ _ hj
        · exact fun k => rfl
  | call j =>
      rcases call_cases t j with he | ⟨listener, event, rest, hc, he⟩
      · exact hquiet _ (by rw [he, hn]) (by rw [he]) fun k => by rw [he]
      · have hj : n ≠ j := by
          rintro rfl
          exact absurd (hc.symm.trans h.calls) (by simp)
        refine hquiet _ ?_ ?_ ?_ <;> rw [he]
        · exact hn
        · exact withCalls_ne _ _ hj
        · intro k
          rw [heardBy_cons _ _ _ _ t.heard (withCalls_heard ..)]
          simp [heardBy, Ne.symm hj]
  | fail j event failure => exact hquiet _ hn rfl fun _ => rfl

/-- Nor does it about a member that has joined, as long as that has not started. -/
theorem untouched_perform {queued : List GroupEvent} (ho : t.service.Orderly)
    (h : Untouched t n queued) (step : Step κ)
    (hs : ∀ m', (t.perform step).service.members[n]? = some m' → m'.started = false) :
    Untouched (t.perform step) n (queued ++ t.emitted step n) := by
  cases hm : t.service.members[n]? with
  | none => exact untouched_absent h hm step
  | some m =>
      obtain ⟨m', hm', moves⟩ := moves ho hm step
      have hnone : t.emitted step n = [] := moves.unstarted (hs m' hm')
      have hq : m.queue = [] := h.waiting m hm
      have hc : t.calls n = [] := h.calls
      have hqueued : queued ++ t.emitted step n = [] := by rw [h.queued, hnone]; rfl
      have hadvance := moves.advance
      rw [hnone] at hadvance
      cases hadvance with
      | queue _ _ queue calls heard =>
          refine ⟨fun x hx => ?_, by rw [calls, hc], fun k => by rw [heard, h.heard], hqueued⟩
          rw [← Option.some.inj (hm'.symm.trans hx), queue, hq, List.append_nil]
      | close _ queue calls heard =>
          refine ⟨fun x hx => ?_, by rw [calls, hc], fun k => by rw [heard, h.heard], hqueued⟩
          rw [← Option.some.inj (hm'.symm.trans hx), queue]
      | take event _ queue => exact absurd (hq.symm.trans queue) (by simp)
      | call listener event _ calls => exact absurd (hc.symm.trans calls) (by simp)

/-- Whoever has not started by the end of a run has never been given anything to hear. -/
theorem untouched_run {queued : List GroupEvent} (ho : t.service.Orderly)
    (h : Untouched t n queued) (steps : List (Step κ)) {m : Member κ}
    (hm : (t.run steps).service.members[n]? = some m) (hs : m.started = false) :
    Untouched (t.run steps) n (queued ++ t.queued n steps) := by
  induction steps generalizing t queued with
  | nil => simpa [Dispatch.queued] using h
  | cons step steps ih =>
      have ho' := orderly_perform ho step
      -- whoever has not started in the end has not started on the way
      have hs' : ∀ m', (t.perform step).service.members[n]? = some m' → m'.started = false := by
        intro m' hm'
        refine Bool.eq_false_iff.mpr fun hstarted => ?_
        have hend := keeps_run (p := fun m => m.started = true) (fun _ _ _ _ h => h.started) ho' hm'
          steps hm hstarted
        exact absurd (hs.symm.trans hend) (by simp)
      have := ih ho' (untouched_perform ho h step hs') hm
      rwa [List.append_assoc] at this

/-! ### The account -/

/-- There are at least `c` registrations, and no other ones if `only`. -/
def Enough (c : Nat) (only : Prop) (x : Nat) : Prop := c ≤ x ∧ (only → x = c)

/-- Where `queued` has been queued for a member, a listener has heard, or is about to be called for,
every event that does not wait in the queue any more, as often as it was registered then. -/
structure Told (c : Nat) (only : Prop) (t : Dispatch κ) (n : Nat) (k : κ)
    (queued : List GroupEvent) (m : Member κ) : Prop where
  registered : Enough c only (m.listeners.count k)
  account : ∃ (past : List GroupEvent) (times : List Nat), times.length = past.length ∧
    (∀ x ∈ times, Enough c only x) ∧ queued = past ++ m.queue ∧
    t.heardBy n k ++ t.owed n k = (List.zipWith List.replicate times past).flatten

/-- A registration is kept unless it is withdrawn. -/
theorem Moves.registered {step : Step κ} {m' : Member κ} (h : Moves t step n m m') {k : κ}
    {c : Nat} {only : Prop} (hk : Enough c only (m.listeners.count k))
    (hstay : step ≠ .unlisten n k ∧ step ≠ .expire k) (honly : only → step ≠ .listen n k) :
    Enough c only (m'.listeners.count k) := by
  rcases h.listeners with he | ⟨j, rfl, he⟩ | ⟨j, hj, he⟩
  · rwa [he]
  · rw [he, List.count_append]
    refine ⟨Nat.le_trans hk.1 (Nat.le_add_right _ _), fun ho => ?_⟩
    have hne : j ≠ k := fun hjk => honly ho (by rw [hjk])
    rw [hk.2 ho, List.count_singleton, if_neg (by simpa using hne), Nat.add_zero]
  · have hne : k ≠ j := by
      rintro rfl
      rcases hj with rfl | rfl
      · exact hstay.1 rfl
      · exact hstay.2 rfl
    rwa [he, List.count_filter (by simpa using hne)]

/-- The calls for an event are those of the registrations of the listener. -/
theorem owed_of_calls {listeners : List κ} {event : GroupEvent}
    (hc : t.calls n = listeners.map (·, event)) (k : κ) :
    t.owed n k = List.replicate (listeners.count k) event := by
  rw [owed, hc]
  clear hc
  induction listeners with
  | nil => rfl
  | cons j listeners ih =>
      by_cases hj : j = k
      · simp [hj, List.replicate_succ, ← ih]
      · simp [hj, ← ih]

/-- **A step keeps the account**: an event that is taken counts once for each registration, and a
call that is made is one that was owed. -/
theorem Told.advance {t' : Dispatch κ} {m' : Member κ} {c : Nat} {only : Prop} {k : κ}
    {queued events : List GroupEvent} (h : Told c only t n k queued m)
    (a : Advance t t' n m m' events) (hc : m'.closed = false)
    (hk : Enough c only (m'.listeners.count k)) : Told c only t' n k (queued ++ events) m' := by
  obtain ⟨past, times, hlength, htimes, hqueued, haccount⟩ := h.account
  refine ⟨hk, ?_⟩
  cases a with
  | queue events _ queue calls heard =>
      refine ⟨past, times, hlength, htimes, ?_, ?_⟩
      · rw [hqueued, queue, List.append_assoc]
      · rw [heard, ← haccount, owed, calls, owed]
  | close closed => exact absurd (closed.symm.trans hc) (by simp)
  | take event _ queue idle calls heard =>
      refine ⟨past ++ [event], times ++ [m.listeners.count k], by simp [hlength], ?_, ?_, ?_⟩
      · intro x hx
        rcases List.mem_append.mp hx with hx | hx
        · exact htimes x hx
        · rw [List.mem_singleton.mp hx]
          exact h.registered
      · rw [hqueued, queue]
        simp
      · have howed : t.owed n k = [] := by simp [owed, idle]
        rw [howed, List.append_nil] at haccount
        rw [heard, haccount, owed_of_calls calls, List.zipWith_append hlength,
          List.flatten_append]
        simp
  | call listener event same calls heard =>
      refine ⟨past, times, hlength, htimes, by rw [hqueued, same, List.append_nil], ?_⟩
      rw [heard, ← haccount, List.append_assoc]
      congr 1
      by_cases hl : listener = k <;> simp [owed, calls, hl]

/-- And so does a run, as long as the member is open and the registrations are not withdrawn. -/
theorem Told.run {c : Nat} {only : Prop} {k : κ} {queued : List GroupEvent}
    (h : Told c only t n k queued m) (ho : t.service.Orderly)
    (hm : t.service.members[n]? = some m) (steps : List (Step κ))
    (hstay : ∀ step ∈ steps, step ≠ .unlisten n k ∧ step ≠ .expire k)
    (honly : only → ∀ step ∈ steps, step ≠ .listen n k) {m' : Member κ}
    (hm' : (t.run steps).service.members[n]? = some m') (hc : m'.closed = false) :
    Told c only (t.run steps) n k (queued ++ t.queued n steps) m' := by
  induction steps generalizing t m queued with
  | nil =>
      obtain rfl := Option.some.inj (hm.symm.trans hm')
      simpa [Dispatch.queued] using h
  | cons step steps ih =>
      obtain ⟨m₁, hm₁, moves⟩ := moves ho hm step
      have ho₁ := orderly_perform ho step
      -- nobody is open in the end who has been closed on the way
      have hc₁ : m₁.closed = false := by
        refine Bool.eq_false_iff.mpr fun hclosed => ?_
        have hend := keeps_run (p := fun m => m.closed = true)
          (fun _ _ _ _ h => h.advance.closed) ho₁ hm₁ steps hm' hclosed
        exact absurd (hc.symm.trans hend) (by simp)
      have hk₁ := moves.registered h.registered (hstay step List.mem_cons_self)
        fun ho => honly ho step List.mem_cons_self
      have htold := h.advance moves.advance hc₁ hk₁
      have := ih htold ho₁ hm₁ (fun s hs => hstay s (List.mem_cons_of_mem _ hs))
        (fun ho s hs => honly ho s (List.mem_cons_of_mem _ hs)) hm'
      rwa [List.append_assoc] at this

/-! ## Deliveries -/

/-- What a member does for an event that it has taken: it calls the listeners one after the other,
each of which may close it and may fail. -/
def handing (react : κ → GroupEvent → Reaction) (n : Nat) (event : GroupEvent)
    (listeners : List κ) : List (Step κ) :=
  listeners.flatMap fun k =>
    .call n :: (if (react k event).closes then [.request (.close n)] else [])
      ++ ((react k event).failure.map (Step.fail n event)).toList

/-- The steps of a delivery. -/
def delivery (react : κ → GroupEvent → Reaction) (t : Transcript κ) (n : Nat) : List (Step κ) :=
  .take n :: match (t.service.takeEvent n).1 with
    | none => []
    | some (event, listeners) => handing react n event listeners

/-- One listener hears the event and reacts. -/
theorem run_reaction (react : κ → GroupEvent → Reaction) (n : Nat) (event : GroupEvent) (k : κ)
    (rest : List (κ × GroupEvent)) (t : Dispatch κ) :
    (t.withCalls n ((k, event) :: rest)).run
        (.call n :: (if (react k event).closes then [.request (.close n)] else [])
          ++ ((react k event).failure.map (Step.fail n event)).toList)
      = { t with toTranscript := t.toTranscript.hear react n event k }.withCalls n rest := by
  have hcall : (t.withCalls n ((k, event) :: rest)).perform (.call n)
      = { t with
          heard := { member := n, listener := k, event, isMaster := t.service.isMaster n }
            :: t.heard }.withCalls n rest := by
    simp only [perform, withCalls_self]
    exact withCalls_withCalls { t with heard := _ :: t.heard } n ((k, event) :: rest) rest
  rw [List.cons_append, run_cons, hcall, run_append, Transcript.hear]
  cases (react k event).closes <;> cases (react k event).failure <;> rfl

theorem run_handing (react : κ → GroupEvent → Reaction) (n : Nat) (event : GroupEvent)
    (listeners : List κ) (t : Dispatch κ) :
    (t.withCalls n (listeners.map (·, event))).run (handing react n event listeners)
      = { t with toTranscript := listeners.foldl (Transcript.hear react n event) t.toTranscript
        }.withCalls n [] := by
  induction listeners generalizing t with
  | nil => rfl
  | cons k listeners ih =>
      rw [handing, List.flatMap_cons, run_append, List.map_cons, run_reaction, ← handing, ih]
      rfl

/-- **A delivery is a run** in which nothing else happens in between. -/
theorem run_delivery (react : κ → GroupEvent → Reaction) (t : Dispatch κ) {n : Nat}
    (hn : t.calls n = []) :
    t.run (delivery react t.toTranscript n)
      = { t with toTranscript := t.toTranscript.deliver react n } := by
  rcases ht : t.service.takeEvent n with ⟨_ | ⟨event, listeners⟩, service⟩
  · simp only [delivery, ht, Transcript.deliver, run_cons, run_nil, perform]
  · have htake : t.perform (.take n)
        = { t with service }.withCalls n (listeners.map (·, event)) := by
      simp only [perform, ht, hn]
    rw [delivery, run_cons, ht, htake, run_handing, Transcript.deliver, ht]
    exact withCalls_of_idle hn

/-! ## All of it -/

/-- **Events are exact.** At any time a call queues for each member the events that its standing
asks for, and a change of mastership goes by nobody. A listener that was registered with a member
before that started, and whose registrations have not been withdrawn, has heard once nothing is left
to be heard every event that was ever queued for the member, in order and as often as it was
registered at the time. Deliveries as a service makes them are among the runs of which this
speaks. -/
theorem events_are_exact :
    (∀ (steps : List (Step κ)) (r : Request), (run {} steps).service.Announces r) ∧
    (∀ (before after : List (Step κ)) (n : Nat) (k : κ) (m m' : Member κ),
      (run {} before).service.members[n]? = some m → m.started = false →
      (∀ step ∈ after, step ≠ .unlisten n k ∧ step ≠ .expire k) →
      (run {} (before ++ after)).service.members[n]? = some m' → m'.closed = false →
      m'.queue = [] → (run {} (before ++ after)).calls n = [] →
      ∃ times : List Nat, times.length = (queued {} n (before ++ after)).length ∧
        (∀ x ∈ times, m.listeners.count k ≤ x) ∧
        ((∀ step ∈ after, step ≠ .listen n k) → ∀ x ∈ times, x = m.listeners.count k) ∧
        (run {} (before ++ after)).heardBy n k
          = (List.zipWith List.replicate times (queued {} n (before ++ after))).flatten) ∧
    ∀ (react : κ → GroupEvent → Reaction) (t : Dispatch κ) (n : Nat), t.calls n = [] →
      t.run (delivery react t.toTranscript n)
        = { t with toTranscript := t.toTranscript.deliver react n } := by
  refine ⟨fun steps r => (orderly_run Coordination.orderly_empty steps).announces r, ?_,
    fun react t n hn => run_delivery react t hn⟩
  intro before after n k m m' hm hs hstay hm' hopen hqueue hcalls
  have ho : (run ({} : Dispatch κ) before).service.Orderly :=
    orderly_run Coordination.orderly_empty before
  -- up to the start there is nothing to account for
  have huntouched : Untouched (run {} before) n ([] ++ queued {} n before) :=
    untouched_run Coordination.orderly_empty
      ⟨fun x hx => absurd hx (by simp), rfl, fun _ => rfl, rfl⟩ before hm hs
  have hstart : Told (m.listeners.count k) (∀ step ∈ after, step ≠ .listen n k) (run {} before) n k
      (queued {} n before) m := by
    refine ⟨⟨Nat.le_refl _, fun _ => rfl⟩, [], [], rfl, by simp, ?_, ?_⟩
    · simpa [huntouched.waiting m hm] using huntouched.queued
    · simp [huntouched.heard, owed, huntouched.calls]
  rw [run_append] at hm' hcalls
  obtain ⟨past, times, hlength, htimes, hpast, haccount⟩ :=
    (hstart.run ho hm after hstay (fun h => h) hm' hopen).account
  rw [hqueue, List.append_nil, ← queued_append] at hpast
  have howed : ((run ({} : Dispatch κ) before).run after).owed n k = [] := by simp [owed, hcalls]
  rw [howed, List.append_nil] at haccount
  refine ⟨times, by rw [hpast, hlength], fun x hx => (htimes x hx).1,
    fun h x hx => (htimes x hx).2 h, ?_⟩
  rw [run_append, haccount, hpast]

/-- A listener that is registered twice hears twice that the member is connected, whatever becomes
of another one that fails and is removed in between. -/
theorem events_are_exact_twice :
    ∃ times : List Nat, times.length = 1 ∧ (∀ x ∈ times, x = 2) ∧
      (run ({} : Dispatch Nat) ([.request (.join "/g" "n"), .listen 0 7, .listen 0 8, .listen 0 7]
        ++ [.request (.start 0), .take 0, .call 0, .call 0, .fail 0 .connected .noStore,
          .unlisten 0 8, .call 0])).heardBy 0 7
        = (List.zipWith List.replicate times [.connected]).flatten := by
  obtain ⟨times, hlength, _, htimes, hheard⟩ := events_are_exact.2.1
    [.request (.join "/g" "n"), .listen 0 7, .listen 0 8, .listen 0 7]
    [.request (.start 0), .take 0, .call 0, .call 0, .fail 0 .connected .noStore, .unlisten 0 8,
      .call 0] 0 7 _ _ rfl rfl (by simp) rfl rfl rfl rfl
  exact ⟨times, hlength, htimes (by simp), hheard⟩

end

end Dispatch

end FleetScaler
