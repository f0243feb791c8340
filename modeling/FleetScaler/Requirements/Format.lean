import FleetScaler.Failure
import FleetScaler.Json.Printer
import FleetScaler.Requirements.Basic

/-!
# Requirement documents as JSON

A document is an object with a list under `profileRequirements`. Reading checks each entry in the
order of the list and stops at the first fault; an absent or null minimum means none, an absent or
null list of dependencies is empty, and other keys are ignored. Writing leaves out what is absent
or empty, and puts the keys in alphabetical order.
-/

namespace FleetScaler

/-- What is wrong with a document that is JSON but no list of requirements. -/
inductive FormatError where
  | notAnObject
  | listNotAnArray
  | entryNotAnObject
  | noProfile
  | minimumNotAnInteger (profile : String)
  | minimumNegative (profile : String)
  | minimumTooLarge (profile : String)
  | dependenciesNotAnArray (profile : String)
  | dependencyNotAText (profile : String)
  | duplicateProfile (profile : String)
  deriving DecidableEq, Repr

namespace FormatError

/-- The wording of a fault. -/
def message : FormatError → String
  | notAnObject => "requirements must be a JSON object"
  | listNotAnArray => "\"profileRequirements\" must be an array"
  | entryNotAnObject => "profile requirement must be an object"
  | noProfile => "profile requirement needs a non-empty \"profile\""
  | minimumNotAnInteger profile => "minimumInstances of " ++ profile ++ " must be an integer"
  | minimumNegative profile => "minimumInstances of " ++ profile ++ " must not be negative"
  | minimumTooLarge profile => "minimumInstances of " ++ profile ++ " is out of range"
  | dependenciesNotAnArray profile => "dependentProfiles of " ++ profile ++ " must be an array"
  | dependencyNotAText profile => "dependentProfiles of " ++ profile ++ " must contain strings"
  | duplicateProfile profile => "duplicate profile requirement: " ++ profile

end FormatError

/-- The largest minimum that may be asked for. -/
def largestMinimum : Int := 2147483647

namespace Requirement

/-- The profile of an entry: a text that is not empty. -/
def profileOfJson (v : Json) : Except FormatError String :=
  match v.get? "profile" with
  | some (.text s) => if s = "" then .error .noProfile else .ok s
  | _ => .error .noProfile

/-- The minimum of an entry, for the profile that error messages name. -/
def minimumOfJson (profile : String) (v : Json) : Except FormatError (Option Int) :=
  match v.get? "minimumInstances" with
  | none => .ok none
  | some .null => .ok none
  | some m =>
    match m.int? with
    | none => .error (.minimumNotAnInteger profile)
    | some i =>
      if i < 0 then .error (.minimumNegative profile)
      else if largestMinimum < i then .error (.minimumTooLarge profile)
      else .ok (some i)

/-- The texts of a list of dependencies. -/
def textsOfJson (profile : String) : List Json → Except FormatError (List String)
  | [] => .ok []
  | v :: rest =>
    match v.text? with
    | none => .error (.dependencyNotAText profile)
    | some s =>
      match textsOfJson profile rest with
      | .error e => .error e
      | .ok ss => .ok (s :: ss)

/-- The dependencies of an entry, for the profile that error messages name. -/
def dependenciesOfJson (profile : String) (v : Json) : Except FormatError (List String) :=
  match v.get? "dependentProfiles" with
  | none => .ok []
  | some .null => .ok []
  | some ds =>
    match ds.items? with
    | none => .error (.dependenciesNotAnArray profile)
    | some items => textsOfJson profile items

/-- The requirement that a JSON object states. -/
def ofJson (v : Json) : Except FormatError Requirement :=
  if v.isObject then do
    let profile ← profileOfJson v
    let minimum ← minimumOfJson profile v
    let dependencies ← dependenciesOfJson profile v
    return { profile, minimum, dependencies }
  else .error .entryNotAnObject

/-- The field of the dependencies, if there are any. -/
def dependencyFields : List String → List (String × Json)
  | [] => []
  | ds => [("dependentProfiles", .array (ds.map .text))]

/-- The field of the minimum, if there is one. -/
def minimumFields : Option Int → List (String × Json)
  | none => []
  | some i => [("minimumInstances", .signed i)]

/-- The requirement as a JSON object. -/
def toJson (r : Requirement) : Json :=
  .object (dependencyFields r.dependencies ++ minimumFields r.minimum ++
    [("profile", .text r.profile)])

end Requirement

namespace Document

/-- Reads the entries of a list one after the other into a document. -/
def readEntries (d : Document) : List Json → Except FormatError Document
  | [] => .ok d
  | v :: rest =>
    match Requirement.ofJson v with
    | .error e => .error e
    | .ok r =>
      if d.contains r.profile then .error (.duplicateProfile r.profile)
      else readEntries (d.insert r) rest

/-- The document that a JSON value states. -/
def ofJson (v : Json) : Except FormatError Document :=
  if v.isObject then
    match v.get? "profileRequirements" with
    | none => .ok empty
    | some .null => .ok empty
    | some list =>
      match list.items? with
      | none => .error .listNotAnArray
      | some entries => readEntries empty entries
  else .error .notAnObject

/-- The document as a JSON value. -/
def toJson (d : Document) : Json :=
  .object [("profileRequirements", .array (d.requirements.map Requirement.toJson))]

/--
The document that a text states. A text that is not JSON is refused; a number that no double can
hold is a failure of the reader and is passed on as one.
-/
def parse (s : String) : Loaded Document :=
  match Json.parse s with
  | .error .malformed => .refused ("invalid JSON: " ++ Json.ReadError.malformed.message)
  | .error .numberTooLarge => .failed (.json .numberTooLarge)
  | .ok v =>
    match ofJson v with
    | .error e => .refused e.message
    | .ok d => .accepted d

/-- The text of the document in a file, with a line break at its end. -/
def fileText (d : Document) : String := d.toJson.print ++ "\n"

end Document

end FleetScaler
