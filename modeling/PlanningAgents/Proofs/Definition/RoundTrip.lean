import PlanningAgents.Definition.Codec
import PlanningAgents.Proofs.Node.Shape

/-!
# PlanningAgents.Proofs.Definition.RoundTrip

A definition that is written as data and read again.  Nothing of it is lost: a watch comes back as
the pattern or as the list that it was, what was left out is still left out, and the actions keep
their order.  Some fields of a definition have older names, and so have fields of its actions and of
its entity types.  Which of its names a field stands under makes no difference, but it may not stand
under two of them.

Main statements:

* `decode_actionSpec`, `decode_entityTypeSpec`, `decode_definition` — what is made of data that has
  been written;
* `ActionSpec.shape_heeds`, `EntityTypeSpec.shape_heeds`, `DefinitionData.shape_heeds` — every name
  of a field counts;
* `DefinitionData.reading_laws` — what comes back, under whichever names.
-/

namespace PlanningAgents

/-! ## what has been written -/

theorem decode_atomMap (m : AtomMap) :
    (decode (Node.ofJson m.toJson) : Decoding AtomMap) = pure m := decode_map decode_bool m

theorem decode_watch (w : WatchSpec) :
    (decode (Node.ofJson w.toJson) : Decoding WatchSpec) = pure w := by
  cases w with
  | pattern p => rfl
  | atoms names =>
      change (Node.ofJsonItems (names.map .string)).mapM _ >>=
        (fun names => (pure (.atoms names) : Decoding WatchSpec)) = _
      rw [Node.ofJsonItems_eq_map, List.map_map, List.mapM_map]
      change names.mapM (fun s => (pure s : Decoding String)) >>= _ = _
      rw [List.mapM_pure, List.map_id', pure_bind]

theorem decode_actionSpec (a : ActionSpec) :
    (decode (Node.ofJson a.toJson) : Decoding ActionSpec) = pure a := by
  have hfields : Node.fields [["name"], ["cost"], ["pre", "preconditions"],
      ["post", "postconditions"], ["watch"]] (Node.ofJson a.toJson) =
        pure [some (Node.ofJson (.string a.name)), some (Node.ofJson (.nat a.cost.toNat)),
          some (Node.ofJson a.pre.toJson), some (Node.ofJson a.post.toJson),
          a.watch.map fun w => Node.ofJson w.toJson] := by
    rcases a with ⟨_, _, _, _, _ | w⟩ <;> rfl
  have hwatch := optional_map decode_watch (fun w => by cases w <;> rfl) a.watch
  simp only [decode]
  rw [hfields]
  simp only [pure_bind, Node.required, hwatch]
  simp only [Node.optional, decode_string, decode_uint32, decode_atomMap, pure_bind]

theorem decode_entityTypeSpec (t : EntityTypeSpec) :
    (decode (Node.ofJson t.toJson) : Decoding EntityTypeSpec) = pure t := by
  have hfields : Node.fields [["initial", "initial_state"], ["goal", "goal_state", "goal_template"]]
      (Node.ofJson t.toJson) =
        pure [some (Node.ofJson t.initial.toJson), some (Node.ofJson t.goal.toJson)] := rfl
  simp only [decode]
  rw [hfields]
  simp only [pure_bind, Node.optional, decode_atomMap]

theorem decode_definition (d : DefinitionData) :
    (decode (Node.ofJson d.toJson) : Decoding DefinitionData) = pure d := by
  have hfields : Node.fields definitionSections (Node.ofJson d.toJson) =
      pure [some (Node.ofJson (.array (d.actions.map (·.toJson)))),
        some (Node.ofJson (.object (d.entityTypes.toList.map fun e => (e.1, e.2.toJson)))),
        d.maxRetries.map fun n => Node.ofJson (.nat n.toNat)] := by
    rcases d with ⟨_, _, _ | n⟩ <;> rfl
  have hretries := optional_map decode_uint32 (fun _ => rfl) d.maxRetries
  simp only [decode]
  rw [hfields]
  simp only [pure_bind, hretries]
  simp only [Node.optional, decode_list decode_actionSpec, decode_map decode_entityTypeSpec,
    pure_bind]

/-! ## the names of fields -/

/-- The names of the fields of an action. -/
def ActionSpec.shape : Shape :=
  .record [(["name"], .plain), (["cost"], .plain), (["pre", "preconditions"], .plain),
    (["post", "postconditions"], .plain), (["watch"], .plain)]

/-- The names of the fields of an entity type. -/
def EntityTypeSpec.shape : Shape :=
  .record [(["initial", "initial_state"], .plain),
    (["goal", "goal_state", "goal_template"], .plain)]

/-- The names of the sections of a definition, and of the fields within them. -/
def DefinitionData.shape : Shape :=
  .record [(["actions"], .list ActionSpec.shape),
    (["entity_types", "types"], .map EntityTypeSpec.shape), (["max_retries"], .plain)]

theorem ActionSpec.shape_heeds :
    shape.Heeds fun v => (decode (Node.ofJson v) : Decoding ActionSpec) :=
  Shape.heeds_record_plain (by decide) (by simp)

theorem EntityTypeSpec.shape_heeds :
    shape.Heeds fun v => (decode (Node.ofJson v) : Decoding EntityTypeSpec) :=
  Shape.heeds_record_plain (by decide) (by simp)

theorem DefinitionData.shape_heeds :
    shape.Heeds fun v => (decode (Node.ofJson v) : Decoding DefinitionData) := by
  refine Shape.Heeds.record (by decide) fun {i names t} hi values => ?_
  -- Only two sections have names within them: the actions come first, the types second.
  match i, hi with
  | 0, hi =>
      obtain rfl : Shape.list ActionSpec.shape = t := congrArg Prod.snd (Option.some.inj hi)
      match values with
      | [_, _, _] => exact ActionSpec.shape_heeds.list.bind _
      | [] | [_] | [_, _] | _ :: _ :: _ :: _ :: _ => exact Shape.heeds_failure
  | 1, hi =>
      obtain rfl : Shape.map EntityTypeSpec.shape = t := congrArg Prod.snd (Option.some.inj hi)
      match values with
      | [_, _, _] => exact .after (fun _ => EntityTypeSpec.shape_heeds.map.bind _) _
      | [] | [_] | [_, _] | _ :: _ :: _ :: _ :: _ => exact Shape.heeds_failure
  | 2, hi =>
      obtain rfl : Shape.plain = t := congrArg Prod.snd (Option.some.inj hi)
      exact Shape.heeds_plain _

/-! ## documents -/

/-- **Definitions as data.**  Every definition comes back from the data that it is written as.  What
a document is read as is the same whichever of their names its fields stand under, the fields of its
actions and entity types included; and where any field stands under two names, or twice under one,
it is not read as a definition. -/
theorem DefinitionData.reading_laws :
    (∀ d : DefinitionData, (Document.ofJson d.toJson).decode? = some d) ∧
    (∀ (d : DefinitionData) (v w : Json), (Document.ofJson v).decode? = some d →
      Relation.ReflTransGen shape.Renames v w → (Document.ofJson w).decode? = some d) ∧
    ∀ v : Json, shape.GivesTwice v →
      ((Document.ofJson v).decode? : Option DefinitionData) = none := by
  refine ⟨fun d => ?_, fun d v w hv hnames => ?_, fun v htwice => ?_⟩
  · rw [Document.decode?, Document.ofJson, decode_definition]
    rfl
  · rw [← shape_heeds.decode?_eq hnames, hv]
  · exact shape_heeds.decode?_eq_none htwice

/-- Older names in a definition, in an action and in an entity type. -/
example : (Document.ofJson (.object [
      ("types", .object [("villager", .object [("initial_state", .object [("HAS_FOOD", false)]),
        ("goal_template", .object [("HAS_FOOD", true)])])]),
      ("actions", .array [.object [("name", "get_food"),
        ("preconditions", .object [("HAS_FOOD", false)]),
        ("postconditions", .object [("HAS_FOOD", true)])]])])).decode? =
    some { actions := [({ name := "get_food" } : ActionSpec).withPre "HAS_FOOD" false
             |>.withPost "HAS_FOOD" true],
           entityTypes := .ofList [("villager", ({} : EntityTypeSpec).withInitial "HAS_FOOD" false
             |>.withGoal "HAS_FOOD" true)] : DefinitionData } := by
  decide +kernel

end PlanningAgents
