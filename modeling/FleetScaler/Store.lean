import FleetScaler.Folder
import FleetScaler.Log.Entry
import FleetScaler.Requirements.Format

/-!
# The requirements store

The store holds the document in force and calls every tracked callback after a change. A change has
two steps, writing the document and raising the generation; the notifier has three, taking the
current generation as notified, copying the list of callbacks, and calling the copied ones in
order. Changes that fall between two rounds of the notifier share one round.

Callbacks are handles of some type `κ`; calling one is the business of whoever owns it.
-/

namespace FleetScaler

/-- The source that the store names in its log records. -/
def storeSource : String := "store"

/-- What the notifier of a store is doing. -/
inductive NotifierStage (κ : Type) where
  | idle
  /-- A generation has been taken as notified. -/
  | noticed
  /-- Callbacks that are still to be called in this round. -/
  | calling (remaining : List κ)
  deriving DecidableEq, Repr

/-- A requirements document with those who want to hear of its changes. -/
structure Store (κ : Type) where
  document : Document := Document.empty
  /-- The number of changes so far. -/
  generation : Nat := 0
  /-- The generation that the notifier took up last. -/
  notified : Nat := 0
  /-- The tracked callbacks, in the order in which they came. -/
  callbacks : List κ := []
  notifier : NotifierStage κ := .idle
  /-- Everyone who has been called, newest first. -/
  called : List κ := []
  journal : Log.Journal := []
  deriving Repr

namespace Store

variable {κ : Type}

/-! ## Changes -/

/-- The first step of a change. -/
def write (s : Store κ) (document : Document) : Store κ := { s with document }

/-- The second step of a change. -/
def raise (s : Store κ) : Store κ := { s with generation := s.generation + 1 }

/-- Puts a document in force. -/
def set (s : Store κ) (document : Document) : Store κ := (s.write document).raise

/-! ## Callbacks -/

/-- Tracks a callback, unless there is none or it is tracked already. -/
def track [DecidableEq κ] (s : Store κ) : Option κ → Store κ
  | none => s
  | some k => if k ∈ s.callbacks then s else { s with callbacks := s.callbacks ++ [k] }

/-- Tracks a callback no longer. -/
def untrack [DecidableEq κ] (s : Store κ) : Option κ → Store κ
  | none => s
  | some k => { s with callbacks := s.callbacks.filter (· ≠ k) }

/-- The number of tracked callbacks. -/
def trackedCount (s : Store κ) : Nat := s.callbacks.length

/-! ## The notifier -/

/-- The notifier has something to do. -/
def isPending (s : Store κ) : Bool :=
  match s.notifier with
  | .idle => s.generation ≠ s.notified
  | _ => true

/-- The next step of the notifier, with the callback that the step calls, if it calls one. -/
def notifierStep (s : Store κ) : Option κ × Store κ :=
  match s.notifier with
  | .idle =>
    if s.generation = s.notified then (none, s)
    else (none, { s with notified := s.generation, notifier := .noticed })
  | .noticed =>
    (none, { s with
      notifier := .calling s.callbacks
      journal := s.journal.add .debug storeSource
        ("requirements changed; notifying " ++ toString s.callbacks.length ++ " tracker(s)") })
  | .calling [] => (none, { s with notifier := .idle })
  | .calling (k :: rest) =>
    (some k, { s with notifier := .calling rest, called := k :: s.called })

/-- Enough steps for the notifier to become idle, if nothing changes meanwhile. -/
def stepsToIdle (s : Store κ) : Nat :=
  if s.isPending then
    match s.notifier with
    | .calling remaining => remaining.length + s.callbacks.length + 4
    | _ => s.callbacks.length + 3
  else 0

/-- Notes that a callback failed, which keeps no other from being called. -/
def callbackFailed (s : Store κ) (e : Failure) : Store κ :=
  { s with
    journal := s.journal.add .error storeSource ("configuration callback failed: " ++ e.message) }

/-- The next step of the notifier where `react` tells which callbacks fail. -/
def notify (react : κ → Option Failure) (s : Store κ) : Store κ :=
  match s.notifierStep with
  | (none, s) => s
  | (some k, s) =>
    match react k with
    | none => s
    | some e => s.callbackFailed e

/-- The notifier finishes what it has to do at the moment. -/
def notifyAll (react : κ → Option Failure) (s : Store κ) : Store κ :=
  Nat.repeat (notify react) s.stepsToIdle s

/-! ## Files -/

/-- The text to parse of what is found at a path. A folder counts as an empty file. -/
def textOf? : Found → Option String
  | .nothing => none
  | .folder => some ""
  | .text text => some text

/-- Loads the document of a file; `found` is what is found at the path. A document that cannot be
had leaves the store as it is. -/
def load (s : Store κ) (path : String) (found : Found) : Loaded Unit × Store κ :=
  match textOf? found with
  | none => (.refused ("cannot open requirements file " ++ path), s)
  | some text =>
    match Document.parse text with
    | .failed e => (.failed e, s)
    | .refused reason => (.refused (path ++ ": " ++ reason), s)
    | .accepted document =>
      let journal := s.journal.add .info storeSource
        ("loaded " ++ toString document.size ++ " profile requirement(s) from " ++ path)
      (.accepted (), { s with journal }.set document)

/-- Saves the document at a path and gives the text of the file; `written` is what becomes of it. -/
def save (s : Store κ) (path : String) : Written → Except String String
  | .notOpened => .error ("cannot write requirements file " ++ path)
  | .broken => .error ("failed writing requirements file " ++ path)
  | .whole => .ok s.document.fileText

end Store

end FleetScaler
