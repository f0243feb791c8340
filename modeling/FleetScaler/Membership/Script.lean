import FleetScaler.Membership.Elector

/-!
# Scripted groups

A stand-in for the coordination service of an elector. Every join makes a new group, which keeps a
record of what is asked of it. Whether a group has the mastership and whether it still takes states
is set from outside, so that an elector can be led into every situation.
-/

namespace FleetScaler

/-- A group of one member that does what it is told. -/
structure ScriptedGroup where
  id : String
  started : Bool := false
  closed : Bool := false
  /-- How many states the group has taken. -/
  updates : Nat := 0
  /-- The elector hears the events of the group. -/
  listening : Bool := false
  /-- The state that the group took last. -/
  state : MemberState := {}
  master : Bool := false
  /-- The group takes no more states. -/
  stale : Bool := false
  deriving DecidableEq, Repr

/-- The groups made so far, oldest first. -/
structure ScriptedGroups where
  groups : List ScriptedGroup := []
  /-- New groups are stale from the start. -/
  staleJoins : Bool := false
  deriving DecidableEq, Repr

namespace ScriptedGroups

/-- Changes the group of a number, if there is one. -/
def change (s : ScriptedGroups) (number : Nat) (f : ScriptedGroup → ScriptedGroup) :
    ScriptedGroups :=
  { s with groups := s.groups.modify number f }

/-- Makes a new group. Its id is made of the path, the type of the node and the number. -/
def join (path nodeType : String) (s : ScriptedGroups) : Nat × ScriptedGroups :=
  let number := s.groups.length
  let id := path ++ "!" ++ nodeType ++ "!" ++ toString number
  (number, { s with groups := s.groups ++ [{ id, stale := s.staleJoins }] })

/-- Has a group take a state, unless it is stale. -/
def update (number : Nat) (state : MemberState) (s : ScriptedGroups) :
    Except Failure Unit × ScriptedGroups :=
  if (s.groups[number]?.map ScriptedGroup.stale).getD false then
    (.error (.membershipStale "membership torn down"), s)
  else (.ok (), s.change number fun g => { g with updates := g.updates + 1, state })

/-- Scripted groups as an elector uses them, by their numbers. -/
def access : GroupAccess ScriptedGroups Nat where
  join path nodeType s := (.ok (s.join path nodeType).1, (s.join path nodeType).2)
  listen number s := (.ok (), s.change number fun g => { g with listening := true })
  update := update
  start number s := (.ok (), s.change number fun g => { g with started := true })
  unlisten number s := s.change number fun g => { g with listening := false }
  close number s := s.change number fun g => { g with closed := true }
  isMaster number s := (s.groups[number]?.map ScriptedGroup.master).getD false
  memberId number s := (s.groups[number]?.map ScriptedGroup.id).getD ""

/-- No group is listened to any longer. -/
def forgetListener (s : ScriptedGroups) : ScriptedGroups :=
  { s with groups := s.groups.map fun g => { g with listening := false } }

end ScriptedGroups

end FleetScaler
