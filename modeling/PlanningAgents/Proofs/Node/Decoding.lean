import Mathlib.Data.List.Basic
import PlanningAgents.Node.Decode
import PlanningAgents.Node.Json
import PlanningAgents.Proofs.Atoms.Registration

/-!
# PlanningAgents.Proofs.Node.Decoding

What is made of JSON values: a text, a truth value or a count is what was written, an array is read
item by item and an object entry by entry.  What is written of the items or entries of a container
decides what is read of the container.

Main statements:

* `Decoding.mapM_eq_failure` — a part that cannot be read is one too many;
* `decode_array`, `decode_object` — containers are read part by part;
* `decode_list`, `decode_map` — containers come back if what they hold comes back;
* `Node.fields_object`, `Node.fields_array`, `Node.field_given_of_mem` — where the fields of a
  record are found.
-/

namespace PlanningAgents

/-! ## readings that fail -/

namespace Decoding

variable {α β : Type}

theorem failure_bind (f : α → Decoding β) : (failure >>= f : Decoding β) = failure := rfl

theorem bind_failure (a : Decoding α) : (a >>= fun _ => failure : Decoding β) = failure := by
  funext numbered left
  exact Option.bind_fun_none (a numbered left)

theorem mapM_eq_failure {f : α → Decoding β} {l : List α} {a : α} (ha : a ∈ l)
    (h : f a = failure) : l.mapM f = failure := by
  obtain ⟨before, after, rfl⟩ := List.mem_iff_append.mp ha
  simp only [List.mapM_append, List.mapM_cons, h, failure_bind, bind_failure]

/-- Parts that are only taken or refused are so all at once. -/
theorem mapM_liftM (f : α → Option β) (l : List α) :
    (l.mapM fun a => (liftM (f a) : Decoding β)) = liftM (l.mapM f) := by
  induction l with
  | nil => rfl
  | cons a l ih =>
      rw [List.mapM_cons, List.mapM_cons, ih]
      cases f a with
      | none => rfl
      | some b => cases l.mapM f <;> rfl

end Decoding

/-! ## single values -/

theorem reading_scalar {α : Type} (take : Scalar → Option α) (s : Scalar) :
    Node.reading take (.scalar s) = (liftM (take s) : Decoding α) := rfl

theorem natBelow_of_lt {s : Scalar} {n bound : Nat} (hs : s.int = some (n : Int)) (h : n < bound) :
    s.natBelow bound = some n := by
  have hlt : (n : Int) < bound := by exact_mod_cast h
  simp [Scalar.natBelow, hs, hlt]

theorem decode_string (s : String) :
    (decode (Node.ofJson (.string s)) : Decoding String) = pure s := rfl

theorem decode_bool (b : Bool) : (decode (Node.ofJson (.bool b)) : Decoding Bool) = pure b := rfl

theorem decode_uint32 (n : UInt32) :
    (decode (Node.ofJson (.nat n.toNat)) : Decoding UInt32) = pure n := by
  have hdecode (n : Node) : (decode n : Decoding UInt32) =
      n.reading fun s => (s.natBelow UInt32.size).map Nat.toUInt32 := rfl
  rw [hdecode, Json.nat, Node.ofJson, reading_scalar, natBelow_of_lt rfl n.toNat_lt,
    Option.map_some, Nat.toUInt32, UInt32.ofNat_toNat]
  rfl

theorem decode_uint64 (n : UInt64) :
    (decode (Node.ofJson (.nat n.toNat)) : Decoding UInt64) = pure n := by
  have hdecode (n : Node) : (decode n : Decoding UInt64) =
      n.reading fun s => (s.natBelow UInt64.size).map Nat.toUInt64 := rfl
  rw [hdecode, Json.nat, Node.ofJson, reading_scalar, natBelow_of_lt rfl n.toNat_lt,
    Option.map_some, Nat.toUInt64, UInt64.ofNat_toNat]
  rfl

/-! ## containers -/

theorem Node.ofJsonItems_eq_map (items : List Json) : ofJsonItems items = items.map ofJson := by
  induction items with
  | nil => rfl
  | cons v rest ih => rw [ofJsonItems, ih, List.map_cons]

theorem Node.ofJsonMembers_eq_map (members : List (String × Json)) :
    ofJsonMembers members = members.map fun m => (.ofText m.1, ofJson m.2) := by
  induction members with
  | nil => rfl
  | cons m rest ih => rw [ofJsonMembers, ih, List.map_cons]

section

variable {α : Type} [Decode α]

theorem decode_array (items : List Json) :
    (decode (Node.ofJson (.array items)) : Decoding (List α)) =
      items.mapM fun v => decode (Node.ofJson v) := by
  have hitems : (decode (Node.ofJson (.array items)) : Decoding (List α)) =
      (Node.ofJsonItems items).mapM decode := rfl
  rw [hitems, Node.ofJsonItems_eq_map, List.mapM_map]
  rfl

/-- One entry of an object, read. -/
def Json.entry (m : String × Json) : Decoding (String × α) := do
  return (m.1, ← decode (Node.ofJson m.2))

theorem decode_object (members : List (String × Json)) :
    (decode (Node.ofJson (.object members)) : Decoding (SortedMap String α)) =
      members.mapM Json.entry >>= fun entries => return .ofList entries := by
  have hmembers : (decode (Node.ofJson (.object members)) : Decoding (SortedMap String α)) =
      (Node.ofJsonMembers members).mapM Node.entry >>= fun entries => return .ofList entries := rfl
  rw [hmembers, Node.ofJsonMembers_eq_map, List.mapM_map]
  rfl

/-- A list comes back if its items do. -/
theorem decode_list {f : α → Json} (h : ∀ a, decode (Node.ofJson (f a)) = (pure a : Decoding α))
    (l : List α) : (decode (Node.ofJson (.array (l.map f))) : Decoding (List α)) = pure l := by
  rw [decode_array, List.mapM_map]
  simp only [Function.comp_def, h]
  rw [List.mapM_pure, List.map_id']

/-- A map comes back if its values do. -/
theorem decode_map {f : α → Json} (h : ∀ a, decode (Node.ofJson (f a)) = (pure a : Decoding α))
    (m : SortedMap String α) :
    (decode (Node.ofJson (.object (m.toList.map fun e => (e.1, f e.2)))) :
      Decoding (SortedMap String α)) = pure m := by
  rw [decode_object, List.mapM_map]
  simp only [Function.comp_def, Json.entry, h, pure_bind]
  rw [List.mapM_pure, List.map_id', pure_bind, SortedMap.ofList_toList]

theorem decode_option {v : Json} (h : (Node.ofJson v).isAbsent = some false) :
    (decode (Node.ofJson v) : Decoding (Option α)) =
      decode (Node.ofJson v) >>= fun a => return some a := by
  have hdecode : (decode (Node.ofJson v) : Decoding (Option α)) =
      (Node.ofJson v).follow >>= fun n => (liftM n.isAbsent : Decoding Bool) >>= fun absent =>
        if absent then return none else decode n >>= fun a => return some a := rfl
  rw [hdecode, Node.follow_ofJson, pure_bind, h]
  rfl

/-- A field that is written only when there is something to say comes back either way. -/
theorem optional_map {f : α → Json} (h : ∀ a, decode (Node.ofJson (f a)) = (pure a : Decoding α))
    (hpresent : ∀ a, (Node.ofJson (f a)).isAbsent = some false) (o : Option α) :
    (Node.optional none (o.map fun a => Node.ofJson (f a)) : Decoding (Option α)) = pure o := by
  cases o with
  | none => rfl
  | some a => rw [Option.map_some, Node.optional, decode_option (hpresent a), h, pure_bind]

end

/-! ## records -/

namespace Node

variable {declared : List (List String)}

theorem fields_array (items : List Json) : fields declared (ofJson (.array items)) =
    if items.length ≤ declared.length then
      pure (items.map (fun v => some (ofJson v)) ++
        List.replicate (declared.length - items.length) none)
    else failure := by
  have hfields : fields declared (ofJson (.array items)) =
      if (ofJsonItems items).length ≤ declared.length then
        pure ((ofJsonItems items).map some ++
          List.replicate (declared.length - (ofJsonItems items).length) none)
      else failure := rfl
  rw [hfields, ofJsonItems_eq_map, List.length_map, List.map_map]
  rfl

/-- The members of an object as they are looked up. -/
def given (members : List (String × Json)) : List (String × Node) :=
  members.map fun m => (m.1, ofJson m.2)

theorem fields_object (members : List (String × Json)) :
    fields declared (ofJson (.object members)) = liftM (declared.mapM (field (given members))) := by
  have hfields : fields declared (ofJson (.object members)) =
      (ofJsonMembers members).mapM named >>= fun members =>
        declared.mapM fun names => (liftM (field members names) : Decoding _) := rfl
  have hnamed : (ofJsonMembers members).mapM named = (pure (given members) : Decoding _) := by
    rw [ofJsonMembers_eq_map, List.mapM_map]
    exact List.mapM_pure
  rw [hfields, hnamed, pure_bind, Decoding.mapM_liftM]

variable {names : List String} {before after : List (String × Json)} {name : String}

/-- A member under a name of its own says nothing about a field. -/
theorem field_given_of_not_mem (h : name ∉ names) (v : Json) :
    field (given (before ++ (name, v) :: after)) names = field (given (before ++ after)) names := by
  simp [field, given, h]

/-- A member under a name of a field is the field, if nothing else is given under its names. -/
theorem field_given_of_mem (h : name ∈ names) (v : Json) :
    field (given (before ++ (name, v) :: after)) names =
      if ∀ m ∈ before ++ after, m.1 ∉ names then some (some (ofJson v)) else none := by
  have hfilter : (given (before ++ (name, v) :: after)).filter (·.1 ∈ names) =
      given (before.filter (·.1 ∈ names)) ++
        (name, ofJson v) :: given (after.filter (·.1 ∈ names)) := by
    simp [given, List.filter_map, Function.comp_def, h]
  have hothers : (∀ m ∈ before ++ after, m.1 ∉ names) ↔
      before.filter (·.1 ∈ names) = [] ∧ after.filter (·.1 ∈ names) = [] := by
    simp [or_imp, forall_and]
  rw [field, hfilter]
  simp only [hothers]
  cases before.filter (·.1 ∈ names) with
  | nil => cases after.filter (·.1 ∈ names) <;> rfl
  | cons m ms => cases ms <;> rfl

end Node

/-! ## sizes -/

namespace Node

theorem itemsSize_append (items items' : List Node) :
    itemsSize (items ++ items') = itemsSize items + itemsSize items' := by
  induction items with
  | nil => simp [itemsSize]
  | cons n rest ih => rw [List.cons_append, itemsSize, itemsSize, ih, Nat.add_assoc]

theorem membersSize_append (members members' : List (Node × Node)) :
    membersSize (members ++ members') = membersSize members + membersSize members' := by
  induction members with
  | nil => simp [membersSize]
  | cons m rest ih =>
      rw [List.cons_append, membersSize, membersSize, ih, Nat.add_assoc (m.1.size + m.2.size)]

/-- The size of an array, with one item set apart. -/
theorem size_ofJson_array (before after : List Json) (v : Json) :
    (ofJson (.array (before ++ v :: after))).size =
      itemsSize (ofJsonItems before) + ((ofJson v).size + itemsSize (ofJsonItems after)) + 2 := by
  rw [ofJson, size, ofJsonItems_eq_map, List.map_append, itemsSize_append, List.map_cons, itemsSize,
    ofJsonItems_eq_map, ofJsonItems_eq_map]

/-- The size of an object, with one member set apart.  Every name has the same size. -/
theorem size_ofJson_object (before after : List (String × Json)) (name : String) (v : Json) :
    (ofJson (.object (before ++ (name, v) :: after))).size =
      membersSize (ofJsonMembers before) +
        (1 + (ofJson v).size + membersSize (ofJsonMembers after)) + 2 := by
  rw [ofJson, size, ofJsonMembers_eq_map, List.map_append, membersSize_append, List.map_cons,
    membersSize, ofJsonMembers_eq_map, ofJsonMembers_eq_map, ofText, size]

end Node

end PlanningAgents
