import FleetScaler.Store

/-!
# Runs of a store

What happens to a store comes in steps of several parties: a change has two, the notifier has its
own, and all of them come in any order. `Busy` is a store together with the number of changes of
which only the first step has been made, and a run of it is a list of steps. Loading a file is a
change like any other once the document has been read.
-/

namespace FleetScaler

variable {κ : Type}

namespace Store

/-! ## Loading in two steps -/

/-- The document of what is found at a path, if it can be had. -/
def documentOf? (found : Found) : Option Document :=
  match textOf? found with
  | none => none
  | some text =>
    match Document.parse text with
    | .accepted document => some document
    | _ => none

/-- The first step of loading a document that has been read. -/
def beginLoad (s : Store κ) (path : String) (document : Document) : Store κ :=
  { s with
    document
    journal := s.journal.add .info storeSource
      ("loaded " ++ toString document.size ++ " profile requirement(s) from " ++ path) }

theorem load_of_document {found : Found} {document : Document}
    (h : documentOf? found = some document) (s : Store κ) (path : String) :
    s.load path found = (.accepted (), (s.beginLoad path document).raise) := by
  unfold documentOf? at h
  cases ht : textOf? found with
  | none => simp [ht] at h
  | some text =>
      cases hp : Document.parse text with
      | accepted document' =>
          simp only [ht, hp, Option.some.injEq] at h
          subst h
          simp only [load, ht, hp]
          rfl
      | refused reason => simp [ht, hp] at h
      | failed e => simp [ht, hp] at h

/-- A document that cannot be had leaves the store as it is. -/
theorem load_of_no_document {found : Found} (h : documentOf? found = none) (s : Store κ)
    (path : String) : (s.load path found).1 ≠ .accepted () ∧ (s.load path found).2 = s := by
  unfold documentOf? at h
  cases ht : textOf? found with
  | none => simp [load, ht]
  | some text =>
      cases hp : Document.parse text with
      | accepted document' => simp [ht, hp] at h
      | refused reason => simp [load, ht, hp]
      | failed e => simp [load, ht, hp]

end Store

/-! ## Steps -/

/-- A store in use. -/
structure Busy (κ : Type) where
  store : Store κ
  /-- The number of changes that have been written and not been raised yet. -/
  unannounced : Nat := 0

/-- A step of somebody who uses a store, or of its notifier. -/
inductive StoreStep (κ : Type) where
  /-- The first step of a change. -/
  | write (document : Document)
  /-- The second step of a change, of which the first has been made. -/
  | raise
  /-- The first step of loading a file, which is nothing if the document cannot be had. -/
  | load (path : String) (found : Found)
  | track (callback : Option κ)
  | untrack (callback : Option κ)
  /-- The next step of the notifier; `react` tells which callbacks fail this time. -/
  | notify (react : κ → Option Failure)

namespace Busy

variable [DecidableEq κ]

/-- The store after a step. -/
def perform (u : Busy κ) : StoreStep κ → Busy κ
  | .write document => ⟨u.store.write document, u.unannounced + 1⟩
  | .raise => if u.unannounced = 0 then u else ⟨u.store.raise, u.unannounced - 1⟩
  | .load path found =>
    match Store.documentOf? found with
    | none => u
    | some document => ⟨u.store.beginLoad path document, u.unannounced + 1⟩
  | .track callback => { u with store := u.store.track callback }
  | .untrack callback => { u with store := u.store.untrack callback }
  | .notify react => { u with store := u.store.notify react }

/-- The store after some steps, one after the other. -/
def run (u : Busy κ) (steps : List (StoreStep κ)) : Busy κ := steps.foldl perform u

@[simp] theorem run_nil (u : Busy κ) : u.run [] = u := rfl

@[simp] theorem run_cons (u : Busy κ) (x : StoreStep κ) (rest : List (StoreStep κ)) :
    u.run (x :: rest) = (u.perform x).run rest := rfl

/-- A store that has just been made. -/
def start (document : Document) : Busy κ := { store := { document } }

/-- The store can come about. -/
def Reachable (u : Busy κ) : Prop := ∃ document steps, u = (start document).run steps

/-- The callback that a step calls, if it calls one. -/
def calls (u : Busy κ) : StoreStep κ → Option κ
  | .notify _ => u.store.notifierStep.1
  | _ => none

/-! ## All that a step can do -/

/-- What comes of a store in one step, with the callback that is called. -/
inductive Moves (u : Busy κ) : Option κ → Busy κ → Prop
  | stay : Moves u none u
  | write (document : Document) (journal : Log.Journal) :
      Moves u none ⟨{ u.store with document, journal }, u.unannounced + 1⟩
  | raise (h : 0 < u.unannounced) : Moves u none ⟨u.store.raise, u.unannounced - 1⟩
  | list (callbacks : List κ) (h : u.store.callbacks.Nodup → callbacks.Nodup) :
      Moves u none { u with store := { u.store with callbacks } }
  | notice (h : u.store.notifier = .idle) (hn : u.store.generation ≠ u.store.notified) :
      Moves u none
        { u with store := { u.store with notified := u.store.generation, notifier := .noticed } }
  | copy (h : u.store.notifier = .noticed) (journal : Log.Journal) :
      Moves u none
        { u with store := { u.store with notifier := .calling u.store.callbacks, journal } }
  | call {k : κ} {rest : List κ} (h : u.store.notifier = .calling (k :: rest))
      (journal : Log.Journal) :
      Moves u (some k)
        { u with
          store := { u.store with notifier := .calling rest, called := k :: u.store.called,
                                  journal } }
  | finish (h : u.store.notifier = .calling []) :
      Moves u none { u with store := { u.store with notifier := .idle } }

omit [DecidableEq κ] in
theorem moves_notify (u : Busy κ) (react : κ → Option Failure) :
    Moves u u.store.notifierStep.1 { u with store := u.store.notify react } := by
  cases h : u.store.notifier with
  | idle =>
      by_cases hn : u.store.generation = u.store.notified
      · simp only [Store.notify, Store.notifierStep, h, hn, if_true]
        exact .stay
      · simp only [Store.notify, Store.notifierStep, h, hn, if_false]
        exact .notice h hn
  | noticed =>
      simp only [Store.notify, Store.notifierStep, h]
      exact .copy h _
  | calling remaining =>
      cases remaining with
      | nil =>
          simp only [Store.notify, Store.notifierStep, h]
          exact .finish h
      | cons k rest =>
          simp only [Store.notify, Store.notifierStep, h]
          cases react k with
          | none => exact .call h u.store.journal
          | some e => exact .call h _

/-- **All that a step can do.** -/
theorem moves_perform (u : Busy κ) (x : StoreStep κ) : Moves u (u.calls x) (u.perform x) := by
  cases x with
  | write document => exact .write document u.store.journal
  | raise =>
      by_cases h : u.unannounced = 0
      · simp only [perform, calls, h, if_true]
        exact .stay
      · simp only [perform, calls, h, if_false]
        exact .raise (by omega)
  | load path found =>
      cases h : Store.documentOf? found with
      | none =>
          simp only [perform, calls, h]
          exact .stay
      | some document =>
          simp only [perform, calls, h]
          exact .write document _
  | track callback =>
      cases callback with
      | none => exact .stay
      | some k =>
          by_cases hk : k ∈ u.store.callbacks
          · simp only [perform, calls, Store.track, hk, if_true]
            exact .stay
          · simp only [perform, calls, Store.track, hk, if_false]
            refine .list _ fun h => ?_
            rw [List.nodup_append]
            refine ⟨h, by simp, ?_⟩
            rintro a ha b hb rfl
            exact hk (List.mem_singleton.mp hb ▸ ha)
  | untrack callback =>
      cases callback with
      | none => exact .stay
      | some k => exact .list _ fun h => h.filter _
  | notify react => exact moves_notify u react

end Busy
end FleetScaler
