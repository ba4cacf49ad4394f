import Mathlib.Data.List.Induction
import PlanningAgents.Blackboard.Basic

/-!
# PlanningAgents.Proofs.Blackboard.Reading

What is read from a blackboard after any calls.  Every call writes one note or drops notes, and what
is read under a key is what the last of the calls that concern this key has left there
(`Blackboard.find?_run_eq_some_iff`, `Blackboard.find?_run_eq_none_iff`).

Eight types can be read, of seven kinds of notes.  A type takes every note of its kind, with one
exception: an integer of 64 bits is not read as one of 32 bits that it does not fit.  That is also
reported as a mismatch of kinds, although the two kinds that are named are the same
(`Blackboard.get_run_wide`).

Main statements:

* `NoteType.ofValue?_eq_some_iff`, `NoteType.ofValue?_eq_none_iff` — which notes a type takes;
* `Blackboard.find?_perform_of_writes`, `Blackboard.find?_perform_of_drops`,
  `Blackboard.find?_perform_of_not_concerns` — one call;
* `Blackboard.get_run` — what is read after any calls.
-/

namespace PlanningAgents

/-! ## types of notes -/

/-- The types of which notes can be read. -/
inductive NoteType where
  | bool | int64 | int32 | float32 | float | text | vec2 | entity
  deriving DecidableEq, Repr

/-- An integer that takes more than 32 bits. -/
def Value.IsWide : Value → Prop
  | .int n => n.toInt < Int32.minValue.toInt ∨ Int32.maxValue.toInt < n.toInt
  | _ => False

namespace NoteType

/-- The values of a type. -/
def Carrier : NoteType → Type
  | .bool => Bool
  | .int64 => Int64
  | .int32 => Int32
  | .float32 => Float32
  | .float => Float
  | .text => String
  | .vec2 => Vec2
  | .entity => EntityHandle

instance (t : NoteType) : Readable t.Carrier :=
  match t with
  | .bool => (inferInstance : Readable Bool)
  | .int64 => (inferInstance : Readable Int64)
  | .int32 => (inferInstance : Readable Int32)
  | .float32 => (inferInstance : Readable Float32)
  | .float => (inferInstance : Readable Float)
  | .text => (inferInstance : Readable String)
  | .vec2 => (inferInstance : Readable Vec2)
  | .entity => (inferInstance : Readable EntityHandle)

/-- The kind of note that holds a value of a type. -/
def kind (t : NoteType) : ValueKind := Readable.kind t.Carrier

/-- An integer fits 32 bits if it comes back from them. -/
theorem toInt64_toInt32_eq_iff (n : Int64) :
    n.toInt32.toInt64 = n ↔ Int32.minValue.toInt ≤ n.toInt ∧ n.toInt ≤ Int32.maxValue.toInt := by
  rw [← Int64.toInt_inj, Int32.toInt_toInt64, Int64.toInt_toInt32,
    show Int32.minValue.toInt = -2147483648 from rfl,
    show Int32.maxValue.toInt = 2147483647 from rfl]
  constructor
  · intro h
    have hlow := Int.le_bmod (x := n.toInt) (m := 2 ^ 32) (by decide)
    have hhigh := Int.bmod_lt (x := n.toInt) (m := 2 ^ 32) (by decide)
    omega
  · rintro ⟨hlow, hhigh⟩
    exact Int.bmod_eq_of_le (by omega) (by omega)

/-- What is read of a note is what the note was written with. -/
theorem ofValue?_eq_some_iff (t : NoteType) (v : Value) (a : t.Carrier) :
    Readable.ofValue? v = some a ↔ v = Readable.toValue a := by
  cases t with
  | int32 =>
      change Int32 at a
      cases v with
      | int n =>
          change (if n.toInt32.toInt64 = n then some n.toInt32 else none) = some a ↔
            Value.int n = .int a.toInt64
          grind [Int32.toInt32_toInt64]
      | _ => simp [Readable.ofValue?, Readable.toValue]
  | _ => cases v <;> constructor <;> intro h <;> cases h <;> rfl

/-- What a type does not take: notes of other kinds, and among the integers those that are too wide
for it. -/
theorem ofValue?_eq_none_iff (t : NoteType) (v : Value) :
    (Readable.ofValue? v : Option t.Carrier) = none ↔ v.kind ≠ t.kind ∨ t = .int32 ∧ v.IsWide := by
  cases t with
  | int32 =>
      cases v with
      | int n =>
          change (if n.toInt32.toInt64 = n then some n.toInt32 else none) = none ↔ _
          simp only [ite_eq_right_iff, reduceCtorEq, imp_false, toInt64_toInt32_eq_iff]
          simp [Value.kind, kind, Readable.kind, Value.IsWide]
          omega
      | _ => simp [Readable.ofValue?, Readable.kind, Value.kind, kind, Carrier]
  | _ => cases v <;> simp [Readable.ofValue?, Readable.kind, Value.kind, kind, Carrier]

end NoteType

namespace Blackboard

variable {b : Blackboard} {key other : String} {v : Value}

/-! ## one call -/

/-- The calls that change a blackboard. -/
inductive Call where
  | set (t : NoteType) (key : String) (a : t.Carrier)
  | setValue (key : String) (v : Value)
  | setVec2 (key : String) (x y : Float32)
  | setEntity (key : String) (id : UInt64)
  | erase (key : String)
  | clear
  | inc (key : String) (delta default : Float32)
  | decay (key : String) (rate dt default : Float32)

/-- What a call does to a blackboard. -/
def perform (b : Blackboard) : Call → Blackboard
  | .set _ key a => b.set key a
  | .setValue key v => b.setValue key v
  | .setVec2 key x y => b.set key (⟨x, y⟩ : Vec2)
  | .setEntity key id => b.set key (⟨id⟩ : EntityHandle)
  | .erase key => b.erase key
  | .clear => .empty
  | .inc key delta default => (b.inc key delta default).1
  | .decay key rate dt default => (b.decay key rate dt default).1

namespace Call

/-- The key that a call is about, unless it is about all of them. -/
def key? : Call → Option String
  | .set _ key _ | .setValue key _ | .setVec2 key _ _ | .setEntity key _ | .erase key
  | .inc key _ _ | .decay key _ _ _ => some key
  | .clear => none

/-- The note that a call writes under its key.  Numbers that are changed are read from the
blackboard, and the result is a number of single precision whatever it was before. -/
def note? (b : Blackboard) : Call → Option Value
  | .set _ _ a => some (Readable.toValue a)
  | .setValue _ v => some v
  | .setVec2 _ x y => some (.vec2 ⟨x, y⟩)
  | .setEntity _ id => some (.entity id)
  | .inc key delta default =>
    some (.float (((b.find? key).bind Value.toFloat32?).getD default + delta))
  | .decay key rate dt default =>
    some (.float (((b.find? key).bind Value.toFloat32?).getD default * (-rate * dt).exp))
  | .erase _ | .clear => none

/-- The call concerns a key: it is about this key, or about all of them. -/
def Concerns (key : String) (c : Call) : Prop := c.key? = none ∨ c.key? = some key

/-- The call writes a note under a key. -/
def Writes (b : Blackboard) (key : String) (v : Value) (c : Call) : Prop :=
  c.key? = some key ∧ c.note? b = some v

/-- The call leaves nothing under a key: it removes the note there, or all notes. -/
def Drops (key : String) (c : Call) : Prop := c = .erase key ∨ c = .clear

/-- A call that concerns a key writes a note there or leaves none. -/
theorem concerns_iff (b : Blackboard) (key : String) (c : Call) :
    c.Concerns key ↔ (∃ v, c.Writes b key v) ∨ c.Drops key := by
  cases c <;> simp [Concerns, Writes, Drops, key?, note?]

end Call

theorem find?_setValue (b : Blackboard) (key other : String) (v : Value) :
    (b.setValue key v).find? other = if other = key then some v else b.find? other :=
  SortedMap.getElem?_insert ..

theorem perform_of_writes {c : Call} (h : c.Writes b key v) : b.perform c = b.setValue key v := by
  obtain ⟨hkey, hnote⟩ := h
  cases c <;> cases hkey <;> cases hnote <;> rfl

/-- A note that is written is found. -/
theorem find?_perform_of_writes {c : Call} (h : c.Writes b key v) :
    (b.perform c).find? key = some v := by
  rw [perform_of_writes h, find?_setValue, if_pos rfl]

/-- A note that is dropped is not found any more. -/
theorem find?_perform_of_drops {c : Call} (h : c.Drops key) : (b.perform c).find? key = none := by
  obtain rfl | rfl := h
  · rw [perform, find?_erase, if_pos rfl]
  · exact Std.ExtTreeMap.getElem?_empty

/-- **No call on one key changes another key.** -/
theorem find?_perform_of_not_concerns {c : Call} (h : ¬c.Concerns key) :
    (b.perform c).find? key = b.find? key := by
  obtain ⟨other, hother⟩ := Option.ne_none_iff_exists'.mp fun hnone => h (.inl hnone)
  have hne : key ≠ other := fun heq => h (.inr (heq ▸ hother))
  cases hnote : c.note? b with
  | some v => rw [perform_of_writes ⟨hother, hnote⟩, find?_setValue, if_neg hne]
  | none =>
      cases c <;> cases hnote <;> cases hother
      rw [perform, find?_erase, if_neg hne]

/-! ## any calls -/

/-- What calls make of a new blackboard, one after the other. -/
def run (calls : List Call) : Blackboard := calls.foldl perform .empty

/-- The last note that was written under a key, after which no call concerned the key. -/
def LastWritten (calls : List Call) (key : String) (v : Value) : Prop :=
  ∃ before c after, calls = before ++ c :: after ∧ c.Writes (run before) key v ∧
    ∀ d ∈ after, ¬d.Concerns key

/-- Every note that was written under a key was dropped later. -/
def Unwritten (calls : List Call) (key : String) : Prop :=
  ∀ before c after v, calls = before ++ c :: after → c.Writes (run before) key v →
    ∃ d ∈ after, d.Drops key

theorem run_append (before after : List Call) :
    run (before ++ after) = after.foldl perform (run before) := List.foldl_append

/-- Calls that do not concern a key leave what is there. -/
theorem find?_foldl_perform {calls : List Call} (h : ∀ d ∈ calls, ¬d.Concerns key) :
    (calls.foldl perform b).find? key = b.find? key := by
  induction calls generalizing b with
  | nil => rfl
  | cons c calls ih =>
      rw [List.foldl_cons, ih fun d hd => h d (List.mem_cons_of_mem _ hd),
        find?_perform_of_not_concerns (h c List.mem_cons_self)]

/-- Calls that do not drop a note leave one there, the same or another. -/
theorem find?_foldl_perform_ne_none {calls : List Call} (hb : b.find? key ≠ none)
    (h : ∀ d ∈ calls, ¬d.Drops key) : (calls.foldl perform b).find? key ≠ none := by
  induction calls generalizing b with
  | nil => exact hb
  | cons c calls ih =>
      refine ih ?_ fun d hd => h d (List.mem_cons_of_mem _ hd)
      by_cases hc : c.Concerns key
      · obtain ⟨v, hv⟩ := ((c.concerns_iff b key).mp hc).resolve_right (h c List.mem_cons_self)
        simp [find?_perform_of_writes hv]
      · rwa [find?_perform_of_not_concerns hc]

/-- What is found was written by the last call that concerned the key. -/
theorem lastWritten_of_find? {calls : List Call} (h : (run calls).find? key = some v) :
    LastWritten calls key v := by
  induction calls using List.reverseRecOn with
  | nil => simp [run, find?, empty] at h
  | append_singleton calls c ih =>
      rw [run_append, List.foldl_cons, List.foldl_nil] at h
      by_cases hc : c.Concerns key
      · rcases (c.concerns_iff (run calls) key).mp hc with ⟨w, hw⟩ | hdrop
        · rw [find?_perform_of_writes hw, Option.some_inj] at h
          exact ⟨calls, c, [], rfl, h ▸ hw, by simp⟩
        · simp [find?_perform_of_drops hdrop] at h
      · rw [find?_perform_of_not_concerns hc] at h
        obtain ⟨before, w, after, rfl, hw, hafter⟩ := ih h
        exact ⟨before, w, after ++ [c], by simp, hw, by grind⟩

/-- **What is found under a key** is the last note that was written there. -/
theorem find?_run_eq_some_iff {calls : List Call} :
    (run calls).find? key = some v ↔ LastWritten calls key v := by
  refine ⟨lastWritten_of_find?, ?_⟩
  rintro ⟨before, c, after, rfl, hc, hafter⟩
  rw [run_append, List.foldl_cons, find?_foldl_perform hafter, find?_perform_of_writes hc]

/-- **Nothing is found under a key** that was not written since it was dropped. -/
theorem find?_run_eq_none_iff {calls : List Call} :
    (run calls).find? key = none ↔ Unwritten calls key := by
  constructor
  · rintro hnone before c after v rfl hc
    by_contra! hdrops
    have hwritten : ((run before).perform c).find? key ≠ none := by
      simp [find?_perform_of_writes hc]
    rw [run_append, List.foldl_cons] at hnone
    exact find?_foldl_perform_ne_none hwritten hdrops hnone
  · intro h
    by_contra hsome
    obtain ⟨v, hv⟩ := Option.ne_none_iff_exists'.mp hsome
    obtain ⟨before, c, after, hcalls, hc, hafter⟩ := lastWritten_of_find? hv
    obtain ⟨d, hd, hdrop⟩ := h before c after v hcalls hc
    exact hafter d hd ((d.concerns_iff (run before) key).mpr (.inr hdrop))

/-! ## reading -/

variable {t : NoteType}

theorem get_eq_missing_iff {name : String} :
    b.get t.Carrier key = .error (.missing name) ↔ name = key ∧ b.find? key = none := by
  unfold get
  grind

theorem get_eq_ok_iff {a : t.Carrier} :
    b.get t.Carrier key = .ok a ↔ b.find? key = some (Readable.toValue a) := by
  unfold get
  cases b.find? key with
  | none => simp
  | some v =>
      rw [Option.some_inj, ← NoteType.ofValue?_eq_some_iff]
      grind

theorem get_eq_kindMismatch_iff {name : String} {expected found : ValueKind} :
    b.get t.Carrier key = .error (.kindMismatch name expected found) ↔
      ∃ v, b.find? key = some v ∧ (v.kind ≠ t.kind ∨ t = .int32 ∧ v.IsWide) ∧
        name = key ∧ expected = t.kind ∧ found = v.kind := by
  unfold get
  cases b.find? key with
  | none => simp
  | some v =>
      simp only [Option.some_inj, exists_eq_left', ← NoteType.ofValue?_eq_none_iff]
      grind [NoteType.kind]

theorem getOr_of_missing (h : b.find? key = none) (default : t.Carrier) :
    b.getOr key default = .ok default := by
  simp [getOr, get, h]

theorem getOr_of_found (h : b.find? key ≠ none) (default : t.Carrier) :
    b.getOr key default = b.get t.Carrier key := by
  unfold getOr
  split
  · next hmissing => exact absurd (get_eq_missing_iff.mp hmissing).2 h
  · rfl

/-- **What is read after any calls.**  A note is missing exactly when it was not written since it
was last dropped.  The kinds do not match exactly when the last note written is of another kind than
the type, or is an integer that is too wide for the type; and otherwise the last note written is
read.  A default is only given for a note that is missing, and a call does not change what it does
not concern. -/
theorem get_run (calls : List Call) (key : String) (t : NoteType) :
    (∀ name, (run calls).get t.Carrier key = .error (.missing name) ↔
      name = key ∧ Unwritten calls key) ∧
    (∀ name expected found,
      (run calls).get t.Carrier key = .error (.kindMismatch name expected found) ↔
        ∃ v, LastWritten calls key v ∧ (v.kind ≠ t.kind ∨ t = .int32 ∧ v.IsWide) ∧
          name = key ∧ expected = t.kind ∧ found = v.kind) ∧
    (∀ a : t.Carrier, (run calls).get t.Carrier key = .ok a ↔
      LastWritten calls key (Readable.toValue a)) ∧
    (∀ default : t.Carrier,
      (Unwritten calls key → (run calls).getOr key default = .ok default) ∧
      (¬Unwritten calls key → (run calls).getOr key default = (run calls).get t.Carrier key)) ∧
    ∀ (c : Call) (other : String), ¬c.Concerns other →
      ((run calls).perform c).find? other = (run calls).find? other := by
  simp only [← find?_run_eq_none_iff, ← find?_run_eq_some_iff]
  exact ⟨fun _ => get_eq_missing_iff, fun _ _ _ => get_eq_kindMismatch_iff, fun _ => get_eq_ok_iff,
    fun default => ⟨fun h => getOr_of_missing h default, fun h => getOr_of_found h default⟩,
    fun _ _ => find?_perform_of_not_concerns⟩

/-- One note is written, and another one was removed. -/
def sample : List Call := [.inc "mood" 1 0, .setEntity "target" 7, .erase "mood"]

theorem get_run_sample :
    Unwritten sample "mood" ∧ ¬Unwritten sample "target" ∧
      (run sample).getOr "mood" true = .ok true ∧
      (run sample).getOr "target" true = (run sample).get Bool "target" ∧
      ((run sample).perform (.erase "target")).find? "mood" = (run sample).find? "mood" := by
  have hmood : Unwritten sample "mood" := find?_run_eq_none_iff.mp (by
    simp [sample, run, perform, find?_erase])
  have htarget : ¬Unwritten sample "target" := by
    rw [← find?_run_eq_none_iff]
    simp [sample, run, perform, find?_erase, find?_set]
  obtain ⟨-, -, -, hdefault, hother⟩ := get_run sample "mood" .bool
  obtain ⟨-, -, -, hsame, -⟩ := get_run sample "target" .bool
  exact ⟨hmood, htarget, (hdefault true).1 hmood, (hsame true).2 htarget,
    hother (.erase "target") "mood" (by simp [Call.Concerns, Call.key?])⟩

/-- **A mismatch of kinds that are the same**: an integer that takes more than 32 bits is there, and
is asked for as one of 32 bits. -/
theorem get_run_wide :
    LastWritten [.set .int64 "k" (5000000000 : Int64)] "k" (.int 5000000000) ∧
      Value.kind (.int 5000000000) = NoteType.kind .int32 ∧
      (run [.set .int64 "k" (5000000000 : Int64)]).get Int32 "k" =
        .error (.kindMismatch "k" .int .int) := by
  have hwrites : Call.Writes .empty "k" (.int 5000000000) (.set .int64 "k" (5000000000 : Int64)) :=
    ⟨rfl, rfl⟩
  have hfound : (run [.set .int64 "k" (5000000000 : Int64)]).find? "k" =
      some (.int 5000000000) := find?_perform_of_writes hwrites
  refine ⟨find?_run_eq_some_iff.mp hfound, rfl, ?_⟩
  rw [get, hfound]
  rfl

end Blackboard

end PlanningAgents
