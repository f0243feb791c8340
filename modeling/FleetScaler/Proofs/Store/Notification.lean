import FleetScaler.Proofs.Store.Run

/-!
# No change goes unnoticed

Changes may come while the notifier is calling, and several of them may share one round. The
argument needs no more than the stage of the notifier. Once a change has been raised the notifier
owes a call to everyone who is tracked: it has not taken up the change yet, or it is about to copy
the list, or the callback is among those still to be called. Only the call itself ends such a debt,
and the notifier does not rest before. In the other direction, a round begins only with a change
that has not been taken up before, and calls nobody twice, since nobody is listed twice.

A document is in force from the first step of its change. After the last raise, with no change
under way, there is no first step left either, so every call sees the document that stays.
-/

namespace FleetScaler.Busy

variable {κ : Type}

/-! ## What every run keeps -/

/-- What every run keeps: the notifier has taken up no more changes than there were, and nobody is
listed twice. -/
structure Sound (u : Busy κ) : Prop where
  notified : u.store.notified ≤ u.store.generation
  nodup : u.store.callbacks.Nodup

variable {u v : Busy κ} {c : Option κ} {k : κ}

theorem sound_start (document : Document) : (start document : Busy κ).Sound :=
  ⟨Nat.le_refl 0, List.nodup_nil⟩

theorem Moves.sound (h : Moves u c v) (hu : u.Sound) : v.Sound := by
  cases h with
  | stay => exact hu
  | write document journal => exact ⟨hu.notified, hu.nodup⟩
  | raise hpos => exact ⟨Nat.le_succ_of_le hu.notified, hu.nodup⟩
  | list callbacks hn => exact ⟨hu.notified, hn hu.nodup⟩
  | notice hi hn => exact ⟨Nat.le_refl _, hu.nodup⟩
  | copy hi _ => exact ⟨hu.notified, hu.nodup⟩
  | call hi journal => exact ⟨hu.notified, hu.nodup⟩
  | finish hi => exact ⟨hu.notified, hu.nodup⟩

/-- The changes that have been written. -/
def written (u : Busy κ) : Nat := u.store.generation + u.unannounced

/-- A document is replaced only by a change that has not been there before. -/
theorem Moves.written_le (h : Moves u c v) : u.written ≤ v.written ∧
    (u.written = v.written → v.store.document = u.store.document) := by
  cases h with
  | write document journal =>
      simp only [written]
      omega
  | raise hpos =>
      have heq : u.store.generation + 1 + (u.unannounced - 1) = u.store.generation + u.unannounced := by
        omega
      exact ⟨Nat.le_of_eq heq.symm, fun _ => rfl⟩
  | _ => exact ⟨Nat.le_refl _, fun _ => rfl⟩

/-! ## Nobody is forgotten -/

/-- The notifier will call whoever is tracked, or at least this one. -/
def Owes (u : Busy κ) (k : κ) : Prop :=
  u.store.notified < u.store.generation ∨ u.store.notifier = .noticed ∨
    ∃ remaining, u.store.notifier = .calling remaining ∧ k ∈ remaining

/-- The notifier has nothing to do. -/
structure Rests (u : Busy κ) : Prop where
  idle : u.store.notifier = .idle
  notified : u.store.notified = u.store.generation

theorem Rests.not_owes (h : u.Rests) (k : κ) : ¬ u.Owes k := by
  rintro (hlt | hn | ⟨remaining, hc, -⟩)
  · have := h.notified
    omega
  · exact absurd (h.idle.symm.trans hn) (by simp)
  · exact absurd (h.idle.symm.trans hc) (by simp)

/-- A debt stays until it is paid. -/
theorem Moves.owes (h : Moves u c v) (ho : u.Owes k) (hk : k ∈ u.store.callbacks) :
    c = some k ∨ v.Owes k := by
  cases h with
  | stay => exact Or.inr ho
  | write document journal => exact Or.inr ho
  | raise hpos =>
      rcases ho with hlt | hrest
      · exact Or.inr (Or.inl (Nat.lt_succ_of_lt hlt))
      · exact Or.inr (Or.inr hrest)
  | list callbacks hn => exact Or.inr ho
  | notice hi hn => exact Or.inr (Or.inr (Or.inl rfl))
  | copy hi _ => exact Or.inr (Or.inr (Or.inr ⟨_, rfl, hk⟩))
  | @call k' rest hi journal =>
      rcases ho with hlt | hn | ⟨remaining, hc, hmem⟩
      · exact Or.inr (Or.inl hlt)
      · exact absurd (hi.symm.trans hn) (by simp)
      · obtain rfl := NotifierStage.calling.inj (hi.symm.trans hc)
        rcases List.mem_cons.mp hmem with rfl | hrest
        · exact Or.inl rfl
        · exact Or.inr (Or.inr (Or.inr ⟨rest, rfl, hrest⟩))
  | finish hi =>
      rcases ho with hlt | hn | ⟨remaining, hc, hmem⟩
      · exact Or.inr (Or.inl hlt)
      · exact absurd (hi.symm.trans hn) (by simp)
      · obtain rfl := NotifierStage.calling.inj (hi.symm.trans hc)
        exact absurd hmem (by simp)

/-! ## Callbacks that fail -/

/-- The step as it is where no callback fails. -/
def calm : StoreStep κ → StoreStep κ
  | .notify _ => .notify fun _ => none
  | x => x

/-- The two differ in the records of the store only. -/
def Alike (u v : Busy κ) : Prop :=
  ∃ journal, v = { u with store := { u.store with journal } }

theorem Alike.symm (h : u.Alike v) : v.Alike u := by
  obtain ⟨journal, rfl⟩ := h
  exact ⟨u.store.journal, rfl⟩

theorem Alike.trans {w : Busy κ} (h : u.Alike v) (h' : v.Alike w) : u.Alike w := by
  obtain ⟨journal, rfl⟩ := h
  obtain ⟨journal', rfl⟩ := h'
  exact ⟨journal', rfl⟩

/-- The notifier goes on in the same way whether the callback fails or not. -/
theorem alike_notify (u : Busy κ) (react react' : κ → Option Failure) (journal : Log.Journal) :
    Alike { u with store := u.store.notify react }
      { u with store := ({ u.store with journal } : Store κ).notify react' } := by
  cases h : u.store.notifier with
  | idle =>
      by_cases hn : u.store.generation = u.store.notified
      · exact ⟨journal, by simp [Store.notify, Store.notifierStep, h, hn]⟩
      · exact ⟨journal, by simp [Store.notify, Store.notifierStep, h, hn]⟩
  | noticed =>
      simp only [Store.notify, Store.notifierStep, h]
      exact ⟨_, rfl⟩
  | calling remaining =>
      cases remaining with
      | nil => exact ⟨journal, by simp [Store.notify, Store.notifierStep, h]⟩
      | cons k rest =>
          simp only [Store.notify, Store.notifierStep, h]
          cases react k with
          | none =>
              cases react' k with
              | none => exact ⟨_, rfl⟩
              | some e => exact ⟨_, rfl⟩
          | some e =>
              cases react' k with
              | none => exact ⟨_, rfl⟩
              | some e' => exact ⟨_, rfl⟩

/-! ## The notifier comes to rest -/

/-- The steps that the notifier has before it if nobody else does anything. -/
def effort (u : Busy κ) : Nat :=
  let again := if u.store.generation = u.store.notified then 0 else u.store.callbacks.length + 3
  match u.store.notifier with
  | .idle => again
  | .noticed => u.store.callbacks.length + 2 + again
  | .calling remaining => remaining.length + 1 + again

theorem rests_of_effort (h : u.effort = 0) : u.Rests := by
  unfold effort at h
  cases hn : u.store.notifier with
  | idle =>
      refine ⟨hn, ?_⟩
      simp only [hn] at h
      split at h
      · rename_i heq
        exact heq.symm
      · omega
  | noticed =>
      simp only [hn] at h
      omega
  | calling remaining =>
      simp only [hn] at h
      omega

theorem effort_notify (u : Busy κ) (react : κ → Option Failure) :
    effort { u with store := u.store.notify react } = u.effort - 1 := by
  cases h : u.store.notifier with
  | idle =>
      by_cases hn : u.store.generation = u.store.notified
      · simp [effort, Store.notify, Store.notifierStep, h, hn]
      · simp [effort, Store.notify, Store.notifierStep, h, hn]
  | noticed => simp [effort, Store.notify, Store.notifierStep, h]
  | calling remaining =>
      cases remaining with
      | nil => simp [effort, Store.notify, Store.notifierStep, h]
      | cons k rest =>
          cases hr : react k with
          | none => simp [effort, Store.notify, Store.notifierStep, h, hr]
          | some e =>
              simp [effort, Store.notify, Store.notifierStep, h, hr, Store.callbackFailed]

/-! ## Nobody is called too often -/

variable [DecidableEq κ]

/-- The calls that the notifier has still to make in its round. -/
def due (u : Busy κ) (k : κ) : Nat :=
  match u.store.notifier with
  | .idle => 0
  | .noticed => 1
  | .calling remaining => remaining.count k

/-- A step makes no more calls than it takes up changes. -/
theorem Moves.calls_le (h : Moves u c v) (hu : u.Sound) (k : κ) :
    v.store.called.count k + v.due k + u.store.notified
      ≤ u.store.called.count k + u.due k + v.store.notified := by
  cases h with
  | stay => exact Nat.le_refl _
  | write document journal => exact Nat.le_refl _
  | raise hpos => exact Nat.le_refl _
  | list callbacks hn => exact Nat.le_refl _
  | notice hi hn =>
      have := hu.notified
      simp only [due, hi]
      omega
  | copy hi _ =>
      have := List.nodup_iff_count.mp hu.nodup k
      simp only [due, hi]
      omega
  | @call k' rest hi journal =>
      simp only [due, hi, List.count_cons]
      omega
  | finish hi => simp [due, hi]

/-! ## Whole runs -/

theorem sound_run (hu : u.Sound) (steps : List (StoreStep κ)) : (u.run steps).Sound := by
  induction steps generalizing u with
  | nil => exact hu
  | cons x rest ih => exact ih ((moves_perform u x).sound hu)

theorem Reachable.sound (h : u.Reachable) : u.Sound := by
  obtain ⟨document, steps, rfl⟩ := h
  exact sound_run (sound_start document) steps

theorem written_le_run (u : Busy κ) (steps : List (StoreStep κ)) :
    u.written ≤ (u.run steps).written ∧
    (u.written = (u.run steps).written → (u.run steps).store.document = u.store.document) := by
  induction steps generalizing u with
  | nil => exact ⟨Nat.le_refl _, fun _ => rfl⟩
  | cons x rest ih =>
      obtain ⟨hle, hsame⟩ := (moves_perform u x).written_le
      obtain ⟨hle', hsame'⟩ := ih (u.perform x)
      rw [run_cons]
      exact ⟨by omega, fun h => (hsame' (by omega)).trans (hsame (by omega))⟩

/-- Whoever is owed a call and stays tracked is called before the notifier rests. -/
theorem called_of_owes {steps : List (StoreStep κ)} (ho : u.Owes k)
    (hk : ∀ earlier, earlier <+: steps → k ∈ (u.run earlier).store.callbacks)
    (hr : (u.run steps).Rests) :
    ∃ before x after, steps = before ++ x :: after ∧ (u.run before).calls x = some k := by
  induction steps generalizing u with
  | nil => exact absurd ho (hr.not_owes k)
  | cons x rest ih =>
      rcases (moves_perform u x).owes ho (hk [] List.nil_prefix) with hcall | howes
      · exact ⟨[], x, rest, rfl, hcall⟩
      · obtain ⟨before, y, after, rfl, hcall⟩ := ih howes (fun earlier he =>
          hk (x :: earlier) (List.cons_prefix_cons.mpr ⟨rfl, he⟩)) hr
        exact ⟨x :: before, y, after, rfl, hcall⟩

/-- A run makes no more calls than it takes up changes. -/
theorem calls_le_run (hu : u.Sound) (steps : List (StoreStep κ)) (k : κ) :
    (u.run steps).store.called.count k + (u.run steps).due k + u.store.notified
      ≤ u.store.called.count k + u.due k + (u.run steps).store.notified := by
  induction steps generalizing u with
  | nil => exact Nat.le_refl _
  | cons x rest ih =>
      have hstep := (moves_perform u x).calls_le hu k
      have hrest := ih ((moves_perform u x).sound hu)
      rw [run_cons]
      omega

/-! ### Runs in which other callbacks fail -/

theorem alike_perform (h : u.Alike v) (x : StoreStep κ) :
    (u.perform x).Alike (v.perform (calm x)) := by
  obtain ⟨journal, rfl⟩ := h
  cases x with
  | write document => exact ⟨journal, rfl⟩
  | raise =>
      by_cases hu : u.unannounced = 0
      · exact ⟨journal, by simp [perform, calm, hu]⟩
      · exact ⟨journal, by simp [perform, calm, hu, Store.raise]⟩
  | load path found =>
      cases hd : Store.documentOf? found with
      | none => exact ⟨journal, by simp [perform, calm, hd]⟩
      | some document => exact ⟨_, by simp only [perform, calm, hd]; rfl⟩
  | track callback =>
      cases callback with
      | none => exact ⟨journal, rfl⟩
      | some k =>
          by_cases hk : k ∈ u.store.callbacks
          · exact ⟨journal, by simp [perform, calm, Store.track, hk]⟩
          · exact ⟨journal, by simp [perform, calm, Store.track, hk]⟩
  | untrack callback =>
      cases callback with
      | none => exact ⟨journal, rfl⟩
      | some k => exact ⟨journal, rfl⟩
  | notify react => exact alike_notify u react _ journal

theorem alike_run (h : u.Alike v) (steps : List (StoreStep κ)) :
    (u.run steps).Alike (v.run (steps.map calm)) := by
  induction steps generalizing u v with
  | nil => exact h
  | cons x rest ih => exact ih (alike_perform h x)

/-- **Which callbacks fail makes no difference** to whom the notifier calls. -/
theorem alike_of_calm (u : Busy κ) {steps steps' : List (StoreStep κ)}
    (h : steps.map calm = steps'.map calm) : (u.run steps).Alike (u.run steps') := by
  have hrefl : u.Alike u := ⟨u.store.journal, rfl⟩
  have hcalm := alike_run hrefl steps
  rw [h] at hcalm
  exact hcalm.trans (alike_run hrefl steps').symm

/-- **Left alone, the notifier comes to rest.** -/
theorem rests_of_left_alone (u : Busy κ) (reacts : List (κ → Option Failure))
    (h : u.effort ≤ reacts.length) : (u.run (reacts.map .notify)).Rests := by
  induction reacts generalizing u with
  | nil => exact rests_of_effort (Nat.le_zero.mp h)
  | cons react rest ih =>
      refine ih _ ?_
      rw [perform, effort_notify]
      exact Nat.sub_le_of_le_add h

/-! ## The result -/

theorem perform_raise (h : 0 < u.unannounced) :
    u.perform .raise = ⟨u.store.raise, u.unannounced - 1⟩ := by
  rw [perform, if_neg (by omega)]

theorem owes_raise (hu : u.Sound) (h : 0 < u.unannounced) (k : κ) : (u.perform .raise).Owes k := by
  rw [perform_raise h]
  exact Or.inl (Nat.lt_succ_of_le hu.notified)

/-- After the last raise, with no change under way at the end, no document is replaced. -/
theorem document_of_last_raise {steps earlier : List (StoreStep κ)} (he : earlier <+: steps)
    (hg : (u.run steps).store.generation = u.store.generation)
    (hn : (u.run steps).unannounced = 0) :
    (u.run earlier).store.document = (u.run steps).store.document := by
  obtain ⟨after, rfl⟩ := he
  have happend : u.run (earlier ++ after) = (u.run earlier).run after := List.foldl_append
  rw [happend] at hg hn ⊢
  obtain ⟨hle, -⟩ := written_le_run u earlier
  obtain ⟨hle', hsame⟩ := written_le_run (u.run earlier) after
  simp only [written] at hle hle' hsame
  exact (hsame (by omega)).symm

theorem count_track (hu : u.Sound) (k : κ) :
    (u.perform (.track (some k))).store.callbacks.count k = 1 := by
  have hnodup := ((moves_perform u (.track (some k))).sound hu).nodup
  have hmem : k ∈ (u.perform (.track (some k))).store.callbacks := by
    by_cases hk : k ∈ u.store.callbacks
    · simp [perform, Store.track, hk]
    · simp [perform, Store.track, hk]
  have hpos := List.count_pos_iff.mpr hmem
  have hle := List.nodup_iff_count.mp hnodup k
  omega

theorem perform_load (u : Busy κ) (path : String) (found : Found) :
    ((u.store.load path found).1 ≠ .accepted () →
      (u.store.load path found).2 = u.store ∧ u.perform (.load path found) = u) ∧
    ((u.store.load path found).1 = .accepted () →
      ((u.perform (.load path found)).perform .raise) =
        ⟨(u.store.load path found).2, u.unannounced⟩) := by
  cases hd : Store.documentOf? found with
  | none =>
      obtain ⟨hne, hsame⟩ := Store.load_of_no_document hd u.store path
      exact ⟨fun _ => ⟨hsame, by simp only [perform, hd]⟩, fun h => absurd h hne⟩
  | some document =>
      have hload := Store.load_of_document hd u.store path
      refine ⟨fun h => absurd (congrArg Prod.fst hload) h, fun _ => ?_⟩
      simp [perform, hd, hload]

/--
**No change goes unnoticed.** For every state that a store can come to, whatever its users and its
notifier have done in whatever order:

* a raise that turns out to be the last one, with no change under way and the notifier at rest at
  the end: whoever was tracked from before it has been called since, while the document was in force
  that is in force at the end;
* from a state of rest on, nobody is called more often than the generation has been raised;
* runs that differ in nothing but which callbacks fail differ in nothing but the records;
* nobody is tracked twice, and what is no callback is not tracked at all;
* loading that fails leaves everything as it is, and loading that does not is a change.
-/
theorem no_change_goes_unnoticed {u : Busy κ} (hu : u.Reachable) :
    (0 < u.unannounced → ∀ steps k,
      ((u.perform .raise).run steps).Rests →
      ((u.perform .raise).run steps).unannounced = 0 →
      ((u.perform .raise).run steps).store.generation = (u.perform .raise).store.generation →
      (∀ earlier, earlier <+: steps →
        k ∈ ((u.perform .raise).run earlier).store.callbacks) →
      ∃ before x after, steps = before ++ x :: after ∧
        ((u.perform .raise).run before).calls x = some k ∧
        ((u.perform .raise).run before).store.document
          = ((u.perform .raise).run steps).store.document) ∧
    (u.Rests → ∀ steps k, (u.run steps).store.called.count k
      ≤ u.store.called.count k + ((u.run steps).store.generation - u.store.generation)) ∧
    (∀ steps steps' : List (StoreStep κ), steps.map calm = steps'.map calm →
      (u.run steps).Alike (u.run steps')) ∧
    (u.store.callbacks.Nodup ∧
      (∀ k, (u.perform (.track (some k))).store.callbacks.count k = 1) ∧
      u.perform (.track none) = u ∧ u.perform (.untrack none) = u) ∧
    (∀ path found,
      ((u.store.load path found).1 ≠ .accepted () →
        (u.store.load path found).2 = u.store ∧ u.perform (.load path found) = u) ∧
      ((u.store.load path found).1 = .accepted () →
        (u.perform (.load path found)).perform .raise
          = ⟨(u.store.load path found).2, u.unannounced⟩)) := by
  have hs := hu.sound
  refine ⟨fun hraise steps k hrests hnone hlast hk => ?_, fun hrests steps k => ?_,
    fun steps steps' h => alike_of_calm u h, ⟨hs.nodup, count_track hs, rfl, rfl⟩,
    perform_load u⟩
  · obtain ⟨before, x, after, hsplit, hcall⟩ := called_of_owes (owes_raise hs hraise k) hk hrests
    have hbefore : before <+: steps := hsplit ▸ List.prefix_append before (x :: after)
    exact ⟨before, x, after, hsplit, hcall, document_of_last_raise hbefore hlast hnone⟩
  · have hle := calls_le_run hs steps k
    have htaken := (sound_run hs steps).notified
    have hzero : u.due k = 0 := by rw [due, hrests.idle]
    have heq := hrests.notified
    omega

/-- A document that asks for one instance. -/
def wanted : Document where
  requirements := [{ profile := "db", minimum := some 1 }]
  distinct := by decide

/-- A store with two callbacks and one change under way. -/
def stirred : Busy Nat :=
  (start .empty).run [.track (some 1), .track (some 2), .track (some 1), .write wanted]

/-- A round of the notifier in which the first callback fails. -/
def round : List (StoreStep Nat) :=
  List.replicate 5 (.notify fun k => if k = 1 then some (.collaborator "out of order") else none)

/-- The second callback is called although the first one fails, and it finds the new document. -/
theorem second_callback_is_called :
    stirred.Reachable ∧ 0 < stirred.unannounced ∧ ((stirred.perform .raise).run round).Rests ∧
      ∃ before x after, round = before ++ x :: after ∧
        ((stirred.perform .raise).run before).calls x = some 2 ∧
        ((stirred.perform .raise).run before).store.document = wanted := by
  have hreach : stirred.Reachable := ⟨_, _, rfl⟩
  have hraise : 0 < stirred.unannounced := by decide
  have hrests : ((stirred.perform .raise).run round).Rests := ⟨by decide, by decide⟩
  have htracked : ∀ n ≤ 5,
      2 ∈ ((stirred.perform .raise).run (round.take n)).store.callbacks := by decide
  refine ⟨hreach, hraise, hrests, ?_⟩
  refine (no_change_goes_unnoticed hreach).1 hraise round 2 hrests (by decide) (by decide) ?_
  intro earlier he
  rw [List.prefix_iff_eq_take.mp he]
  exact htracked _ he.length_le

end FleetScaler.Busy
