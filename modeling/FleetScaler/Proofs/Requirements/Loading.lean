import FleetScaler.Proofs.Json.Limits
import FleetScaler.Proofs.Requirements.Grammar
import FleetScaler.Proofs.Store.Run
import FleetScaler.Settings.Format

/-!
# What may come of loading

A text that is to be a document is accepted if it states one, and refused with a reason if it does
not. One thing comes in between: a number that no double can hold is a failure of the reader, and
whoever reads a document passes that failure on. Whoever reads settings does not, and refuses the
text as it refuses any other that is not JSON.

The texts that lead to the failure hold such a number, and the store is left as it is by everything
but a document.
-/

namespace FleetScaler

/-- What comes of a text that is read as a document. -/
inductive Comes (text : String) : Loaded Document → Prop where
  | notJson (h : Json.parse text = .error .malformed) :
      Comes text (.refused ("invalid JSON: " ++ Json.ReadError.malformed.message))
  | tooLarge (h : Json.parse text = .error .numberTooLarge) :
      Comes text (.failed (.json .numberTooLarge))
  | fault {v : Json} {reason : String} (h : Json.parse text = .ok v) (hf : FirstFault v reason) :
      Comes text (.refused reason)
  | states {v : Json} {document : Document} (h : Json.parse text = .ok v)
      (hs : States v document.requirements) : Comes text (.accepted document)

theorem comes_parse (text : String) : Comes text (Document.parse text) := by
  unfold Document.parse
  cases hread : Json.parse text with
  | error e =>
      cases e with
      | malformed => exact .notJson hread
      | numberTooLarge => exact .tooLarge hread
  | ok v =>
      cases hdocument : Document.ofJson v with
      | error e =>
          simp only [hdocument]
          refine .fault hread (Document.ofJson_eq_error_iff.mp ?_)
          rw [hdocument]
          rfl
      | ok document =>
          simp only [hdocument]
          exact .states hread (Document.ofJson_eq_ok_iff.mp hdocument)

theorem parse_eq_failed_iff (text : String) :
    (∃ e, Document.parse text = .failed e) ↔ Json.parse text = .error .numberTooLarge := by
  constructor
  · rintro ⟨e, he⟩
    have hcomes := comes_parse text
    rw [he] at hcomes
    cases hcomes with
    | tooLarge h => exact h
  · intro h
    exact ⟨.json .numberTooLarge, by rw [Document.parse, h]⟩

/-- What the store answers to a text is what the reader does, with the path before a reason. -/
def Store.answer (path : String) : Loaded Document → Loaded Unit
  | .accepted _ => .accepted ()
  | .refused reason => .refused (path ++ ": " ++ reason)
  | .failed e => .failed e

/-- **Loading ends as reading does**, and changes the store only if there is a document. -/
theorem Store.load_text {κ : Type} (s : Store κ) (path text : String) :
    (s.load path (.text text)).1 = answer path (Document.parse text) ∧
      ((s.load path (.text text)).1 ≠ .accepted () → (s.load path (.text text)).2 = s) ∧
      ∀ document, Document.parse text = .accepted document →
        (s.load path (.text text)).2.document = document ∧
          (s.load path (.text text)).2.generation = s.generation + 1 ∧
          (s.load path (.text text)).2.callbacks = s.callbacks := by
  cases hparse : Document.parse text with
  | accepted document =>
      have hload : s.load path (.text text) = (.accepted (), (s.beginLoad path document).raise) :=
        load_of_document (by simp only [documentOf?, textOf?, hparse]) s path
      rw [hload]
      refine ⟨rfl, fun h => absurd rfl h, fun document' h => ?_⟩
      obtain rfl := Loaded.accepted.inj h
      exact ⟨rfl, rfl, rfl⟩
  | refused reason =>
      have hload : s.load path (.text text) = (.refused (path ++ ": " ++ reason), s) := by
        simp only [load, textOf?, hparse]
      rw [hload]
      exact ⟨rfl, fun _ => rfl, fun document h => absurd h (by simp)⟩
  | failed e =>
      have hload : s.load path (.text text) = (.failed e, s) := by
        simp only [load, textOf?, hparse]
      rw [hload]
      exact ⟨rfl, fun _ => rfl, fun document h => absurd h (by simp)⟩

theorem Store.load_eq_failed_iff {κ : Type} (s : Store κ) (path text : String) :
    (∃ e, (s.load path (.text text)).1 = .failed e) ↔
      Json.parse text = .error .numberTooLarge := by
  rw [← parse_eq_failed_iff, (s.load_text path text).1]
  cases Document.parse text <;> simp [answer]

theorem Settings.load_text_ne_broken (base : Settings) (path text : String) (e : Failure) :
    (base.load path (.text text)).1 ≠ .error (.broken e) := by
  unfold load
  split
  · simp
  · rename_i htext
    exact absurd htext (by simp)
  · split
    · simp
    · split <;> simp

/--
**Loading fails only for a number that is too large.** For every text, at every path, over every
settings and in every store:

* the text is refused with a reason, or accepted for what it states. The failure comes in between
  exactly if the reader of JSON reports a number as too large, which it does only if the text holds
  a number beyond the range of a double;
* the store answers in the same way, with the path before a reason. Unless it accepts the text it
  is left as it is. If it does accept it, its document is the one that the text states, one change
  further on and with the same callbacks;
* reading settings never fails. A number that is too large is refused like anything that is not
  JSON.
-/
theorem loading_fails_only_on_too_large {κ : Type} (text path : String) (base : Settings)
    (s : Store κ) :
    Comes text (Document.parse text) ∧
    ((∃ e, Document.parse text = .failed e) ↔ Json.parse text = .error .numberTooLarge) ∧
    (Json.parse text = .error .numberTooLarge → Json.HoldsTooLarge text.toList) ∧
    (s.load path (.text text)).1 = Store.answer path (Document.parse text) ∧
    ((∃ e, (s.load path (.text text)).1 = .failed e) ↔
      Json.parse text = .error .numberTooLarge) ∧
    ((s.load path (.text text)).1 ≠ .accepted () → (s.load path (.text text)).2 = s) ∧
    (∀ document, Document.parse text = .accepted document →
      (s.load path (.text text)).2.document = document ∧
        (s.load path (.text text)).2.generation = s.generation + 1 ∧
        (s.load path (.text text)).2.callbacks = s.callbacks) ∧
    (∀ e, (base.load path (.text text)).1 ≠ .error (.broken e)) ∧
    ∀ e, Json.parseFirst text = .error e →
      base.load path (.text text) = (.error (.notJson path e), []) := by
  obtain ⟨hanswer, hkept, haccepted⟩ := s.load_text path text
  refine ⟨comes_parse text, parse_eq_failed_iff text, fun h => ?_, hanswer,
    s.load_eq_failed_iff path text, hkept, haccepted, base.load_text_ne_broken path text,
    fun e h => ?_⟩
  · exact Json.holdsTooLarge_of_readFirst (Json.readFirst_of_parse h)
  · simp only [Settings.load, h]

/-- A document whose minimum is beyond the range of a double. -/
def overflowing : String :=
  "\x7b\"profileRequirements\":[\x7b\"profile\":\"web\",\"minimumInstances\":1e999\x7d]\x7d"

/-- It is neither accepted nor refused, although as settings it is refused. -/
theorem overflowing_document_fails :
    Document.parse overflowing = .failed (.json .numberTooLarge) ∧
      (({} : Store Nat).load "requirements.json" (.text overflowing)).1
        = .failed (.json .numberTooLarge) ∧
      ({} : Settings).load "requirements.json" (.text overflowing)
        = (.error (.notJson "requirements.json" .numberTooLarge), []) := by
  have hread : Json.readFirst overflowing = .error .numberTooLarge := by
    have herror : (Json.readFirst overflowing).map (fun _ => ()) = .error .numberTooLarge := by
      decide +kernel
    cases hcases : Json.readFirst overflowing with
    | error e =>
        rw [hcases] at herror
        exact congrArg _ (Except.error.inj herror)
    | ok answer =>
        rw [hcases] at herror
        exact absurd herror (by simp [Except.map])
  have hparse : Document.parse overflowing = .failed (.json .numberTooLarge) := by
    simp only [Document.parse, Json.parse, hread]
  refine ⟨hparse, ?_, ?_⟩
  · rw [(Store.load_text _ _ _).1, hparse]
    rfl
  · simp only [Settings.load, Json.parseFirst, hread]
    rfl

end FleetScaler
