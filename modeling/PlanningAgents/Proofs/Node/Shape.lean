import Mathlib.Data.List.Nodup
import Mathlib.Logic.Relation
import PlanningAgents.Proofs.Node.Decoding

/-!
# PlanningAgents.Proofs.Node.Shape

Records within lists, maps and other records, whose fields have several names each.  A shape says
where in a JSON value the records are and how their fields are called.  A reading that heeds it
takes every field under each of its names, however deep the record is, and takes no record in which
a field is given twice.

Main statements:

* `Shape.Renames`, `Shape.GivesTwice` — other names for the same, and one name too many;
* `Shape.Heeds.list`, `Shape.Heeds.map`, `Shape.Heeds.record` — a shape is heeded if its parts are;
* `Shape.Heeds.decode?_eq`, `Shape.Heeds.decode?_eq_none` — what a document stands for.
-/

namespace PlanningAgents

/-- Where in a JSON value the records are, and how their fields are called. -/
inductive Shape where
  /-- No names count. -/
  | plain
  | list (item : Shape)
  | map (value : Shape)
  /-- The fields in the order of the declaration, each with its names. -/
  | record (fields : List (List String × Shape))

namespace Shape

variable {s t : Shape} {fields : List (List String × Shape)} {names : List String}

/-! ## what is said twice, and what is said otherwise -/

/-- A value of the shape `s` has a place where a value of the shape `t` is read.  What stands around
that place is fixed. -/
inductive Within : Shape → (Json → Json) → Shape → Prop
  | here (s : Shape) : Within s (fun v => v) s
  | item {s t : Shape} {place : Json → Json} (before after : List Json) (h : Within s place t) :
      Within (.list s) (fun v => .array (before ++ place v :: after)) t
  | value {s t : Shape} {place : Json → Json} (before after : List (String × Json)) (key : String)
      (h : Within s place t) :
      Within (.map s) (fun v => .object (before ++ (key, place v) :: after)) t
  /-- A field of a record that is written with names. -/
  | member {s t : Shape} {place : Json → Json} {fields : List (List String × Shape)}
      {names : List String} {name : String} (before after : List (String × Json))
      (hfield : (names, s) ∈ fields) (hname : name ∈ names) (h : Within s place t) :
      Within (.record fields) (fun v => .object (before ++ (name, place v) :: after)) t
  /-- A field of a record that is written as a list. -/
  | position {s t : Shape} {place : Json → Json} {fields : List (List String × Shape)}
      {names : List String} (before after : List Json)
      (hfield : fields[before.length]? = some (names, s)) (h : Within s place t) :
      Within (.record fields) (fun v => .array (before ++ place v :: after)) t

/-- Somewhere in a value of the shape, a field of a record stands under another of its names. -/
inductive Renames (s : Shape) : Json → Json → Prop
  | mk {place : Json → Json} {fields : List (List String × Shape)} {names : List String} {t : Shape}
      {name name' : String} {before after : List (String × Json)} {v : Json}
      (hplace : s.Within place (.record fields)) (hfield : (names, t) ∈ fields)
      (hname : name ∈ names) (hname' : name' ∈ names) :
      Renames s (place (.object (before ++ (name, v) :: after)))
        (place (.object (before ++ (name', v) :: after)))

/-- Somewhere in a value of the shape, a record has two members under names of one field. -/
inductive GivesTwice (s : Shape) : Json → Prop
  | mk {place : Json → Json} {fields : List (List String × Shape)} {names : List String} {t : Shape}
      {name name' : String} {before between after : List (String × Json)} {v v' : Json}
      (hplace : s.Within place (.record fields)) (hfield : (names, t) ∈ fields)
      (hname : name ∈ names) (hname' : name' ∈ names) :
      GivesTwice s (place (.object (before ++ (name, v) :: (between ++ (name', v') :: after))))

/-! ## readings that heed a shape -/

/-- A reading takes the fields of a shape under all of their names, and none of them twice. -/
structure Heeds {α : Type} (s : Shape) (read : Json → Decoding α) : Prop where
  renames {v w : Json} (h : s.Renames v w) : read v = read w
  twice {v : Json} (h : s.GivesTwice v) : read v = failure

section

variable {α β : Type} {read : Json → Decoding α}

/-- Where no names count, every reading will do. -/
theorem heeds_plain (read : Json → Decoding α) : plain.Heeds read where
  renames := by
    rintro _ _ ⟨hplace, _, _, _⟩
    cases hplace
  twice := by
    rintro _ ⟨hplace, _, _, _⟩
    cases hplace

theorem heeds_failure : s.Heeds fun _ => (failure : Decoding α) where
  renames := fun _ => rfl
  twice := fun _ => rfl

theorem Heeds.bind (h : s.Heeds read) (f : α → Decoding β) : s.Heeds fun v => read v >>= f where
  renames := fun hnames => congrArg (· >>= f) (h.renames hnames)
  twice := fun htwice => (congrArg (· >>= f) (h.twice htwice)).trans (Decoding.failure_bind f)

/-- What has been read before makes no difference. -/
theorem Heeds.after {read : β → Json → Decoding α} (h : ∀ b, s.Heeds (read b)) (b : Decoding β) :
    s.Heeds fun v => b >>= fun b => read b v where
  renames := fun hnames => congrArg (b >>= ·) (funext fun b => (h b).renames hnames)
  twice := fun htwice =>
    (congrArg (b >>= ·) (funext fun b => (h b).twice htwice)).trans (Decoding.bind_failure b)

/-- A reading of lists has to heed the shape at every item. -/
theorem heeds_list (h : ∀ before after, s.Heeds fun v => read (.array (before ++ v :: after))) :
    s.list.Heeds read where
  renames := by
    rintro _ _ ⟨hplace, hfield, hname, hname'⟩
    cases hplace with
    | item before after hplace => exact (h before after).renames ⟨hplace, hfield, hname, hname'⟩
  twice := by
    rintro _ ⟨hplace, hfield, hname, hname'⟩
    cases hplace with
    | item before after hplace => exact (h before after).twice ⟨hplace, hfield, hname, hname'⟩

/-- A reading of maps has to heed the shape at every value. -/
theorem heeds_map
    (h : ∀ before after key, s.Heeds fun v => read (.object (before ++ (key, v) :: after))) :
    s.map.Heeds read where
  renames := by
    rintro _ _ ⟨hplace, hfield, hname, hname'⟩
    cases hplace with
    | value before after key hplace =>
        exact (h before after key).renames ⟨hplace, hfield, hname, hname'⟩
  twice := by
    rintro _ ⟨hplace, hfield, hname, hname'⟩
    cases hplace with
    | value before after key hplace =>
        exact (h before after key).twice ⟨hplace, hfield, hname, hname'⟩

/-- A reading of records has to heed the names of the record itself, and the shape of every field
wherever the field stands. -/
theorem heeds_record
    (hnames : ∀ {names t name name' before after v}, (names, t) ∈ fields → name ∈ names →
      name' ∈ names → read (.object (before ++ (name, v) :: after)) =
        read (.object (before ++ (name', v) :: after)))
    (htwice : ∀ {names t name name' before between after v v'}, (names, t) ∈ fields →
      name ∈ names → name' ∈ names →
        read (.object (before ++ (name, v) :: (between ++ (name', v') :: after))) = failure)
    (hmember : ∀ {names t name} before after, (names, t) ∈ fields → name ∈ names →
      t.Heeds fun v => read (.object (before ++ (name, v) :: after)))
    (hposition : ∀ {names t} (before after : List Json),
      fields[before.length]? = some (names, t) →
        t.Heeds fun v => read (.array (before ++ v :: after))) :
    (record fields).Heeds read where
  renames := by
    rintro _ _ ⟨hplace, hfield, hname, hname'⟩
    cases hplace with
    | here => exact hnames hfield hname hname'
    | member before after hmem hkey hplace =>
        exact (hmember before after hmem hkey).renames ⟨hplace, hfield, hname, hname'⟩
    | position before after hat hplace =>
        exact (hposition before after hat).renames ⟨hplace, hfield, hname, hname'⟩
  twice := by
    rintro _ ⟨hplace, hfield, hname, hname'⟩
    cases hplace with
    | here => exact htwice hfield hname hname'
    | member before after hmem hkey hplace =>
        exact (hmember before after hmem hkey).twice ⟨hplace, hfield, hname, hname'⟩
    | position before after hat hplace =>
        exact (hposition before after hat).twice ⟨hplace, hfield, hname, hname'⟩

end

end Shape

/-! ## the fields of a record -/

namespace Node

variable {declared : List (List String)} {names : List String} {name : String} {i : Nat}

/-- Whatever stands at a place of a record, it is the field with the number `i`, unless the record
cannot be read at all. -/
inductive Supplies (declared : List (List String)) (place : Json → Json) (i : Nat) : Prop
  | never (h : ∀ v, fields declared (ofJson (place v)) = failure)
  | always (values : List (Option Node))
      (h : ∀ v, fields declared (ofJson (place v)) = pure (values.set i (some (ofJson v))))

theorem supplies_array (before after : List Json) :
    Supplies declared (fun v => .array (before ++ v :: after)) before.length := by
  by_cases hroom : before.length + (after.length + 1) ≤ declared.length
  · refine .always ((before.map fun v => some (ofJson v)) ++ none ::
      ((after.map fun v => some (ofJson v)) ++
        List.replicate (declared.length - (before.length + (after.length + 1))) none)) fun v => ?_
    rw [fields_array, List.length_append, List.length_cons, if_pos hroom]
    simp
  · refine .never fun v => ?_
    rw [fields_array, List.length_append, List.length_cons, if_neg hroom]

section

variable {rest : List (List String)} {before after : List (String × Json)}

/-- A member makes no difference to fields that are not called so. -/
theorem mapM_field_given_of_not_mem (h : name ∉ declared.flatten) (v : Json) :
    declared.mapM (field (given (before ++ (name, v) :: after))) =
      declared.mapM (field (given (before ++ after))) := by
  induction declared with
  | nil => rfl
  | cons names rest ih =>
      rw [List.flatten_cons, List.mem_append, not_or] at h
      rw [List.mapM_cons, List.mapM_cons, field_given_of_not_mem h.1, ih h.2]

/-- A member that is the first field. -/
theorem mapM_field_given_head (hname : name ∈ names) (hrest : name ∉ rest.flatten) (v : Json) :
    (names :: rest).mapM (field (given (before ++ (name, v) :: after))) =
      if ∀ m ∈ before ++ after, m.1 ∉ names then
        (rest.mapM (field (given (before ++ after)))).map (some (ofJson v) :: ·)
      else none := by
  rw [List.mapM_cons, field_given_of_mem hname, mapM_field_given_of_not_mem hrest]
  split
  · cases rest.mapM (field (given (before ++ after))) <;> rfl
  · rfl

/-- A member that is not the first field. -/
theorem mapM_field_given_tail (hname : name ∉ names) (v : Json) :
    (names :: rest).mapM (field (given (before ++ (name, v) :: after))) =
      (field (given (before ++ after)) names).bind fun value =>
        (rest.mapM (field (given (before ++ (name, v) :: after)))).map (value :: ·) := by
  rw [List.mapM_cons, field_given_of_not_mem hname]
  cases field (given (before ++ after)) names with
  | none => rfl
  | some value => cases rest.mapM (field (given (before ++ (name, v) :: after))) <;> rfl

/-- If no name belongs to two fields, a member is the same field under each of the names that the
field has. -/
theorem mapM_field_given (hnodup : declared.flatten.Nodup) (hi : declared[i]? = some names)
    (before after : List (String × Json)) :
    (∀ name ∈ names, ∀ v,
      declared.mapM (field (given (before ++ (name, v) :: after))) = none) ∨
    ∃ values : List (Option Node), ∀ name ∈ names, ∀ v,
      declared.mapM (field (given (before ++ (name, v) :: after))) =
        some (values.set i (some (ofJson v))) := by
  induction declared generalizing i with
  | nil => cases hi
  | cons ns rest ih =>
      rw [List.flatten_cons, List.nodup_append'] at hnodup
      obtain ⟨-, hrest, hdisjoint⟩ := hnodup
      cases i with
      | zero =>
          obtain rfl : ns = names := by simpa using hi
          by_cases hothers : ∀ m ∈ before ++ after, m.1 ∉ ns
          · cases hvalues : rest.mapM (field (given (before ++ after))) with
            | none =>
                refine .inl fun name hname v => ?_
                rw [mapM_field_given_head hname (hdisjoint hname), if_pos hothers, hvalues,
                  Option.map_none]
            | some values =>
                refine .inr ⟨none :: values, fun name hname v => ?_⟩
                rw [mapM_field_given_head hname (hdisjoint hname), if_pos hothers, hvalues,
                  Option.map_some, List.set_cons_zero]
          · refine .inl fun name hname v => ?_
            rw [mapM_field_given_head hname (hdisjoint hname), if_neg hothers]
      | succ i =>
          have hns (name) (hname : name ∈ names) : name ∉ ns := fun h =>
            hdisjoint h (List.mem_flatten.mpr ⟨names, List.mem_of_getElem? hi, hname⟩)
          cases hvalue : field (given (before ++ after)) ns with
          | none =>
              refine .inl fun name hname v => ?_
              rw [mapM_field_given_tail (hns name hname), hvalue, Option.bind_none]
          | some value =>
              obtain hnone | ⟨values, hvalues⟩ := ih hrest hi
              · refine .inl fun name hname v => ?_
                rw [mapM_field_given_tail (hns name hname), hvalue, Option.bind_some,
                  hnone name hname, Option.map_none]
              · refine .inr ⟨value :: values, fun name hname v => ?_⟩
                rw [mapM_field_given_tail (hns name hname), hvalue, Option.bind_some,
                  hvalues name hname, Option.map_some, List.set_cons_succ]

end

theorem supplies_object (hnodup : declared.flatten.Nodup) (hi : declared[i]? = some names)
    (hname : name ∈ names) (before after : List (String × Json)) :
    Supplies declared (fun v => .object (before ++ (name, v) :: after)) i := by
  obtain hnone | ⟨values, hvalues⟩ := mapM_field_given hnodup hi before after
  · refine .never fun v => ?_
    rw [fields_object, hnone name hname]
    rfl
  · refine .always values fun v => ?_
    rw [fields_object, hvalues name hname]
    rfl

variable {name' : String} {before between after : List (String × Json)}

/-- A field is found under each of its names. -/
theorem fields_rename (hnodup : declared.flatten.Nodup) (hmem : names ∈ declared)
    (hname : name ∈ names) (hname' : name' ∈ names) (v : Json) :
    fields declared (ofJson (.object (before ++ (name, v) :: after))) =
      fields declared (ofJson (.object (before ++ (name', v) :: after))) := by
  obtain ⟨i, hi⟩ := List.mem_iff_getElem?.mp hmem
  rw [fields_object, fields_object]
  obtain hnone | ⟨values, hvalues⟩ := mapM_field_given hnodup hi before after
  · rw [hnone name hname, hnone name' hname']
  · rw [hvalues name hname, hvalues name' hname']

/-- A field that is given twice makes a record unreadable. -/
theorem fields_twice (hmem : names ∈ declared) (hname : name ∈ names) (hname' : name' ∈ names)
    (v v' : Json) :
    fields declared
      (ofJson (.object (before ++ (name, v) :: (between ++ (name', v') :: after)))) = failure := by
  have hfield : field (given (before ++ (name, v) :: (between ++ (name', v') :: after))) names =
      none := by
    rw [field_given_of_mem hname, if_neg]
    intro h
    exact h (name', v') (by simp) hname'
  rw [fields_object, ← Decoding.mapM_liftM]
  exact Decoding.mapM_eq_failure hmem (by rw [hfield]; rfl)

end Node

namespace Shape

variable {s t : Shape} {fields : List (List String × Shape)}

/-! ## what is made of values -/

section

variable {α : Type} [Decode α]

theorem Heeds.list (h : s.Heeds fun v => (decode (Node.ofJson v) : Decoding α)) :
    s.list.Heeds fun v => (decode (Node.ofJson v) : Decoding (List α)) := by
  refine heeds_list fun before after => ?_
  simp only [decode_array, List.mapM_append, List.mapM_cons]
  exact .after (fun _ => (h.bind _).bind _) _

theorem Heeds.map (h : s.Heeds fun v => (decode (Node.ofJson v) : Decoding α)) :
    s.map.Heeds fun v => (decode (Node.ofJson v) : Decoding (SortedMap String α)) := by
  refine heeds_map fun before after key => ?_
  simp only [decode_object, List.mapM_append, List.mapM_cons, Json.entry]
  exact .bind (.after (fun _ => ((h.bind _).bind _).bind _) _) _

end

/-- A reading that finds the fields of a record and then makes something of what it has found. -/
theorem Heeds.record {α : Type} {build : List (Option Node) → Decoding α}
    (hnodup : (fields.map Prod.fst).flatten.Nodup)
    (hbuild : ∀ {i : ℕ} {names : List String} {t : Shape}, fields[i]? = some (names, t) →
      ∀ values : List (Option Node),
        t.Heeds fun v => build (values.set i (some (.ofJson v)))) :
    (record fields).Heeds fun v => Node.fields (fields.map Prod.fst) (.ofJson v) >>= build := by
  have hsupplies {i : ℕ} {names : List String} {t : Shape} {place : Json → Json}
      (hi : fields[i]? = some (names, t))
      (h : Node.Supplies (fields.map Prod.fst) place i) :
      t.Heeds fun v => Node.fields (fields.map Prod.fst) (.ofJson (place v)) >>= build := by
    cases h with
    | never h =>
        simp only [h, Decoding.failure_bind]
        exact heeds_failure
    | always values h =>
        simp only [h, pure_bind]
        exact hbuild hi values
  have hget {i : ℕ} {names : List String} {t : Shape} (hi : fields[i]? = some (names, t)) :
      (fields.map Prod.fst)[i]? = some names := by
    rw [List.getElem?_map, hi, Option.map_some]
  have hmem {names t} (h : (names, t) ∈ fields) : names ∈ fields.map Prod.fst :=
    List.mem_map_of_mem h
  refine heeds_record ?_ ?_ ?_ ?_
  · intro names t name name' before after v hfield hname hname'
    rw [Node.fields_rename hnodup (hmem hfield) hname hname']
  · intro names t name name' before between after v v' hfield hname hname'
    rw [Node.fields_twice (hmem hfield) hname hname', Decoding.failure_bind]
  · intro names t name before after hfield hname
    obtain ⟨i, hi⟩ := List.mem_iff_getElem?.mp hfield
    exact hsupplies hi (Node.supplies_object hnodup (hget hi) hname before after)
  · intro names t before after hi
    exact hsupplies hi (Node.supplies_array before after)

/-- A reading of records that have no names but those of their own fields. -/
theorem heeds_record_plain {α : Type} {build : List (Option Node) → Decoding α}
    (hnodup : (fields.map Prod.fst).flatten.Nodup) (hplain : ∀ f ∈ fields, f.2 = plain) :
    (record fields).Heeds fun v => Node.fields (fields.map Prod.fst) (.ofJson v) >>= build := by
  refine Heeds.record hnodup fun {i names t} hi values => ?_
  obtain rfl : t = plain := hplain _ (List.mem_of_getElem? hi)
  exact heeds_plain _

/-! ## what a document stands for -/

/-- What stands around a place has a size of its own. -/
theorem Within.size_eq {place : Json → Json} (h : s.Within place t) {v w : Json}
    (hsize : (Node.ofJson v).size = (Node.ofJson w).size) :
    (Node.ofJson (place v)).size = (Node.ofJson (place w)).size := by
  induction h with
  | here => exact hsize
  | item before after h ih => rw [Node.size_ofJson_array, Node.size_ofJson_array, ih]
  | value before after key h ih => rw [Node.size_ofJson_object, Node.size_ofJson_object, ih]
  | member before after hfield hname h ih =>
      rw [Node.size_ofJson_object, Node.size_ofJson_object, ih]
  | position before after hfield h ih => rw [Node.size_ofJson_array, Node.size_ofJson_array, ih]

/-- A name is of the same size as every other one. -/
theorem Renames.size_eq {v w : Json} (h : s.Renames v w) :
    (Node.ofJson v).size = (Node.ofJson w).size := by
  obtain ⟨hplace, -, -, -⟩ := h
  exact hplace.size_eq (by rw [Node.size_ofJson_object, Node.size_ofJson_object])

section

variable {α : Type} [Decode α] {v w : Json}

/-- What a document stands for does not depend on which of their names the fields have. -/
theorem Heeds.decode?_eq (h : s.Heeds fun v => (decode (Node.ofJson v) : Decoding α))
    (hnames : Relation.ReflTransGen s.Renames v w) :
    ((Document.ofJson v).decode? : Option α) = (Document.ofJson w).decode? := by
  induction hnames with
  | refl => rfl
  | tail _ hstep ih =>
      rw [ih, Document.decode?, Document.decode?]
      simp only [Document.allowance, Document.ofJson]
      rw [h.renames hstep, hstep.size_eq]

/-- A document in which a field is given twice stands for nothing. -/
theorem Heeds.decode?_eq_none (h : s.Heeds fun v => (decode (Node.ofJson v) : Decoding α))
    (htwice : s.GivesTwice v) : ((Document.ofJson v).decode? : Option α) = none := by
  rw [Document.decode?, Document.ofJson, h.twice htwice]
  rfl

end

end Shape

end PlanningAgents
