import PlanningAgents.Proofs.Json.Reading
import PlanningAgents.Proofs.Node.Decoding
import PlanningAgents.Trace.Codec

/-!
# PlanningAgents.Proofs.Trace.RoundTrip

A trace that is saved as text and loaded again.  Every text, count and detail of an event comes back
as it was, and so does its time if that is finite.  There is no text for a time that is infinite or
NaN: it is saved as `null`, which is not taken for a time again, and so the whole trace cannot be
loaded.

Main statements:

* `decode_event`, `decode_buffer` — what is made of a trace that has become data;
* `reads_event`, `reads_buffer` — the data comes back from its text;
* `TraceBuffer.load_save` — which traces come back.
-/

namespace PlanningAgents

open Decimal (Numeral)

/-! ## from data -/

theorem decode_kind (kind : TraceKind) :
    (decode (Node.ofJson (.string kind.name)) : Decoding TraceKind) = pure kind := by
  cases kind <;> rfl

/-- A time that has no text is no time. -/
theorem decode_number (x : Float) : (decode (Node.ofJson (.number x)) : Decoding Float) =
    if x.isFinite then pure x else failure := by
  rw [Json.number]
  split <;> rfl

/-- An event can be made of its data if its time is finite. -/
theorem decode_event (e : TraceEvent) : (decode (Node.ofJson e.toJson) : Decoding TraceEvent) =
    if e.timestamp.isFinite then pure e else failure := by
  have hfields : Node.fields [["kind"], ["timestamp"], ["tick"], ["entity"], ["message"], ["extra"]]
      (Node.ofJson e.toJson) = pure [some (Node.ofJson (.string e.kind.name)),
        some (Node.ofJson (.number e.timestamp)), some (Node.ofJson (.nat e.tick.toNat)),
        some (Node.ofJson (.nat e.entity.toNat)), some (Node.ofJson (.string e.message)),
        some (Node.ofJson (.object (e.extra.toList.map fun d => (d.1, .string d.2))))] := rfl
  simp only [decode]
  rw [hfields]
  simp only [pure_bind, Node.required, decode_kind, decode_number, decode_uint64, decode_string,
    decode_map decode_string]
  split <;> rfl

/-- One event that cannot be made is one too many. -/
theorem decode_events (events : List TraceEvent) :
    (decode (Node.ofJson (.array (events.map (·.toJson)))) : Decoding (List TraceEvent)) =
      if ∀ e ∈ events, e.timestamp.isFinite then pure events else failure := by
  change (Node.ofJsonItems (events.map (·.toJson))).mapM decode = _
  induction events with
  | nil => rfl
  | cons e events ih =>
      rw [List.map_cons, Node.ofJsonItems, List.mapM_cons, decode_event, ih]
      simp only [List.forall_mem_cons]
      by_cases he : e.timestamp.isFinite = true
      · by_cases hevents : ∀ e ∈ events, e.timestamp.isFinite = true
        · rw [if_pos he, if_pos hevents, if_pos ⟨he, hevents⟩]
          rfl
        · rw [if_pos he, if_neg hevents, if_neg (not_and_of_not_right _ hevents)]
          rfl
      · rw [if_neg he, if_neg (not_and_of_not_left _ he)]
        rfl

theorem decode_buffer (b : TraceBuffer) : (decode (Node.ofJson b.toJson) : Decoding TraceBuffer) =
    if ∀ e ∈ b.events, e.timestamp.isFinite then pure b else failure := by
  have hfields : Node.fields [["capacity"], ["events"], ["total_pushed"]] (Node.ofJson b.toJson) =
      pure [some (Node.ofJson (.nat b.capacity.toNat)),
        some (Node.ofJson (.array (b.events.map (·.toJson)))),
        some (Node.ofJson (.nat b.totalPushed.toNat))] := rfl
  simp only [decode]
  rw [hfields]
  simp only [pure_bind, Node.required, decode_uint64, decode_events]
  split <;> rfl

/-! ## from text -/

section Text

variable {machine : Numeral → Option Float}

theorem reads_uint64 (n : UInt64) : Json.Reads machine (.nat n.toNat) := Json.reads_nat n.toNat_lt

theorem reads_number {x : Float} (h : x.isFinite = true → Json.ReadsBack machine x) :
    Json.Reads machine (.number x) := by
  rw [Json.number]
  split
  · next hfinite => exact Json.reads_float (h hfinite)
  · exact Json.reads_null

theorem reads_texts (m : SortedMap String String) :
    Json.Reads machine (.object (m.toList.map fun d => (d.1, .string d.2))) := by
  refine Json.reads_object (List.forall_mem_map.mpr fun d _ => ?_)
  exact Json.reads_string d.2

theorem reads_event {e : TraceEvent}
    (h : e.timestamp.isFinite = true → Json.ReadsBack machine e.timestamp) :
    Json.Reads machine e.toJson := by
  refine Json.reads_object ?_
  simp only [List.forall_mem_cons]
  exact ⟨Json.reads_string _, reads_number h, reads_uint64 _, reads_uint64 _, Json.reads_string _,
    reads_texts _, List.forall_mem_nil _⟩

theorem reads_buffer {b : TraceBuffer}
    (h : ∀ e ∈ b.events, e.timestamp.isFinite = true → Json.ReadsBack machine e.timestamp) :
    Json.Reads machine b.toJson := by
  refine Json.reads_object ?_
  simp only [List.forall_mem_cons]
  have hevents : ∀ v ∈ b.events.map (·.toJson), Json.Reads machine v :=
    List.forall_mem_map.mpr fun e he => reads_event (h e he)
  exact ⟨reads_uint64 _, Json.reads_array hevents, reads_uint64 _, List.forall_mem_nil _⟩

end Text

namespace TraceBuffer

/-- The text of a buffer. -/
def save (b : TraceBuffer) : String := b.toJson.write

/-- The buffer that a text is read as, if it is one.  Numbers that are not whole are read by
`machine`. -/
def load (machine : Numeral → Option Float) (s : String) : Option TraceBuffer :=
  (Json.read machine s).bind fun v => (Document.ofJson v).decode?

/-- What is saved is read as the data that it was. -/
theorem read_save {machine : Numeral → Option Float} {b : TraceBuffer}
    (h : ∀ e ∈ b.events, e.timestamp.isFinite = true → Json.ReadsBack machine e.timestamp) :
    Json.read machine b.save = some b.toJson :=
  (reads_buffer h).read_write

/-- A buffer can be made of its data if every time is finite. -/
theorem decode?_toJson (b : TraceBuffer) : (Document.ofJson b.toJson).decode? =
    if ∀ e ∈ b.events, e.timestamp.isFinite = true then some b else none := by
  rw [Document.decode?, Document.ofJson, decode_buffer]
  split <;> rfl

/-- **Which traces come back.**  As long as finite times come back from their text, a buffer that is
saved and loaded is the same buffer if every time that it holds is finite; and if one of them is
not, nothing can be loaded. -/
theorem load_save (machine : Numeral → Option Float) (b : TraceBuffer)
    (h : ∀ e ∈ b.events, e.timestamp.isFinite = true → Json.ReadsBack machine e.timestamp) :
    load machine b.save = if ∀ e ∈ b.events, e.timestamp.isFinite = true then some b else none := by
  rw [load, read_save h, Option.bind_some, decode?_toJson]

/-- A buffer with two events, one of them at half a second and with a detail. -/
def lunch : TraceBuffer :=
  ((ofCapacity 4).push { kind := .goalSelected, entity := 1, message := "eat" }).push
    ((TraceEvent.mk .planFound 0.5 1 1 "get_food -> \"eat\"" .empty).withExtra "reason" "hungry")

theorem load_save_lunch :
    (∀ e ∈ lunch.events, e.timestamp.isFinite = true →
      Json.ReadsBack Numeral.scaled e.timestamp) ∧ load Numeral.scaled lunch.save = some lunch := by
  have hfinite : ∀ e ∈ lunch.events, e.timestamp.isFinite = true := by decide +kernel
  have hback : ∀ e ∈ lunch.events, e.timestamp.isFinite = true →
      Json.ReadsBack Numeral.scaled e.timestamp := by decide +kernel
  exact ⟨hback, (load_save Numeral.scaled lunch hback).trans (if_pos hfinite)⟩

/-- A buffer whose one event has no finite time. -/
def timeless : TraceBuffer :=
  (ofCapacity 4).push
    { kind := .replan, timestamp := 1 / 0, tick := 3, entity := 1, message := "one" }

/-- **A trace that does not come back**: it can be saved, and what is saved cannot be loaded. -/
theorem load_save_timeless : load Numeral.scaled timeless.save = none := by
  have hback : ∀ e ∈ timeless.events, e.timestamp.isFinite = true →
      Json.ReadsBack Numeral.scaled e.timestamp := by decide +kernel
  have hendless : ¬∀ e ∈ timeless.events, e.timestamp.isFinite = true := by decide +kernel
  rw [load, read_save hback, Option.bind_some, decode?_toJson, if_neg hendless]

end TraceBuffer

end PlanningAgents
