/-!
# `EntityRules.Event.Basic`: events in the life of an entity

An entity is created, updated any number of times, and deleted. Each event has
the state of the entity before it, the state after it, or both.
-/

set_option autoImplicit false

namespace EntityRules

/-- An event in the life of an entity. -/
inductive Event
  | create
  | update
  | delete
deriving DecidableEq, Repr

namespace Event

/-- All events, in the order in which they are listed. -/
def all : List Event := [create, update, delete]

/-- The name of an event. -/
def name : Event → String
  | create => "create"
  | update => "update"
  | delete => "delete"

/-- The event with a name. -/
def ofName? (name : String) : Option Event :=
  if name = "create" then some create
  else if name = "update" then some update
  else if name = "delete" then some delete
  else none

end Event

end EntityRules
