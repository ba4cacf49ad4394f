import PlanningAgents.Atoms.Table

/-!
# PlanningAgents.Definition.Spec

Authored content: the actions that agents can plan with, and the types of entities with their
first world state and their goal.
-/

namespace PlanningAgents

/-- Truth values of atoms by name. -/
abbrev AtomMap := SortedMap String Bool

/-- Which atoms, beyond its preconditions, a running action keeps an eye on. -/
inductive WatchSpec where
  /-- `*` watches every registered atom; any other pattern adds nothing. -/
  | pattern (p : String)
  | atoms (names : List String)
  deriving DecidableEq, Repr

/-- An authored action. -/
structure ActionSpec where
  name : String
  cost : UInt32 := 1
  pre : AtomMap := .empty
  post : AtomMap := .empty
  watch : Option WatchSpec := none
  deriving DecidableEq, Inhabited

namespace ActionSpec

/-- The action with another cost. -/
def withCost (a : ActionSpec) (cost : UInt32) : ActionSpec := { a with cost }

/-- The action with one more precondition. -/
def withPre (a : ActionSpec) (atom : String) (value : Bool) : ActionSpec :=
  { a with pre := a.pre.insert atom value }

/-- The action with one more effect. -/
def withPost (a : ActionSpec) (atom : String) (value : Bool) : ActionSpec :=
  { a with post := a.post.insert atom value }

/-- The action that watches the given atoms. -/
def watching (a : ActionSpec) (names : List String) : ActionSpec :=
  { a with watch := some (.atoms names) }

/-- The action that watches every atom. -/
def watchingAll (a : ActionSpec) : ActionSpec := { a with watch := some (.pattern "*") }

/-- The atoms whose change concerns the running action: its preconditions and what it watches. -/
def watchMask (a : ActionSpec) (atoms : AtomTable) : UInt64 :=
  let pre := atoms.mask a.pre.keys
  match a.watch with
  | some (.pattern p) => if p = "*" then atoms.allMask else pre
  | some (.atoms names) => pre ||| atoms.mask names
  | none => pre

end ActionSpec

/-- A type of entities. -/
structure EntityTypeSpec where
  initial : AtomMap := .empty
  goal : AtomMap := .empty
  deriving DecidableEq, Inhabited

namespace EntityTypeSpec

/-- The type with one more atom in its first world state. -/
def withInitial (t : EntityTypeSpec) (atom : String) (value : Bool) : EntityTypeSpec :=
  { t with initial := t.initial.insert atom value }

/-- The type with one more atom in its goal. -/
def withGoal (t : EntityTypeSpec) (atom : String) (value : Bool) : EntityTypeSpec :=
  { t with goal := t.goal.insert atom value }

end EntityTypeSpec

/-- The authored half of a definition. -/
structure DefinitionData where
  /-- In authored order, which is the order of planning. -/
  actions : List ActionSpec := []
  entityTypes : SortedMap String EntityTypeSpec := .empty
  maxRetries : Option UInt32 := none
  deriving DecidableEq, Inhabited

/-- Replacements for whole sections of a definition. -/
structure DefinitionOverrides where
  actions : Option (List ActionSpec) := none
  entityTypes : Option (SortedMap String EntityTypeSpec) := none
  maxRetries : Option UInt32 := none
  deriving DecidableEq, Inhabited

namespace DefinitionData

/-- The first action with a name. -/
def action? (d : DefinitionData) (name : String) : Option ActionSpec :=
  d.actions.find? (·.name = name)

/-- The definition in which the sections that `o` has replace its own. -/
def withOverrides (d : DefinitionData) (o : DefinitionOverrides) : DefinitionData :=
  { actions := o.actions.getD d.actions
    entityTypes := o.entityTypes.getD d.entityTypes
    maxRetries := o.maxRetries.or d.maxRetries }

end DefinitionData

end PlanningAgents
