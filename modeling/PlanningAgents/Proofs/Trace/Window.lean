import Mathlib.Data.List.DropRight
import PlanningAgents.Trace.Buffer

/-!
# PlanningAgents.Proofs.Trace.Window

What a buffer still shows of what has been recorded.  A new buffer is a window on the events behind
the last clear: it shows the newest of them, as many as it has room for (`TraceBuffer.sinceClear`).

Room is only made for an event where the buffer holds exactly as many as its capacity.  So the
window depends on the buffer never holding more, and on a capacity that is not zero
(`TraceBuffer.WellFormed`).  New buffers are made so and stay so; a buffer that has been loaded need
not be, and then nothing ever leaves it.

Main statements:

* `TraceBuffer.events_push` — what a push does to a well-formed buffer, and to any other;
* `TraceBuffer.useAll_ofCapacity` — a new buffer is a window, whatever is pushed and cleared;
* `TraceBuffer.pushAll_bounded_iff` — the buffers that stay bounded are the well-formed ones.
-/

namespace PlanningAgents

namespace TraceBuffer

/-! ## uses of a buffer -/

/-- What is done to a buffer. -/
inductive Use where
  | push (e : TraceEvent)
  | clear

/-- The event that is pushed. -/
def Use.event? : Use → Option TraceEvent
  | .push e => some e
  | .clear => none

/-- Uses a buffer once. -/
def use (b : TraceBuffer) : Use → TraceBuffer
  | .push e => b.push e
  | .clear => b.clear

/-- Uses a buffer time and again. -/
def useAll (b : TraceBuffer) (uses : List Use) : TraceBuffer := uses.foldl use b

/-- Pushes events one after the other. -/
def pushAll (b : TraceBuffer) (events : List TraceEvent) : TraceBuffer := events.foldl push b

/-- All events that are ever pushed. -/
def pushed (uses : List Use) : List TraceEvent := uses.filterMap Use.event?

/-- The events that are pushed behind the last clear. -/
def sinceClear (uses : List Use) : List TraceEvent := pushed (uses.rtakeWhile (·.event?.isSome))

variable {b : TraceBuffer} {e : TraceEvent} {events : List TraceEvent} {uses : List Use}

theorem useAll_concat (b : TraceBuffer) (uses : List Use) (u : Use) :
    b.useAll (uses ++ [u]) = (b.useAll uses).use u := by
  rw [useAll, List.foldl_append]
  rfl

theorem pushed_concat_push (uses : List Use) (e : TraceEvent) :
    pushed (uses ++ [.push e]) = pushed uses ++ [e] := by
  rw [pushed, List.filterMap_append]
  rfl

theorem pushed_concat_clear (uses : List Use) : pushed (uses ++ [.clear]) = pushed uses := by
  rw [pushed, List.filterMap_append]
  exact List.append_nil _

theorem sinceClear_concat_push (uses : List Use) (e : TraceEvent) :
    sinceClear (uses ++ [.push e]) = sinceClear uses ++ [e] := by
  rw [sinceClear, List.rtakeWhile_concat_pos _ _ _ rfl, pushed_concat_push]
  rfl

theorem sinceClear_concat_clear (uses : List Use) : sinceClear (uses ++ [.clear]) = [] := by
  rw [sinceClear, List.rtakeWhile_concat_neg _ _ _ (by decide)]
  rfl

/-! ## the newest events -/

/-- The newest of the newest events. -/
theorem rtake_rtake (events : List TraceEvent) (m n : Nat) :
    (events.rtake m).rtake n = events.rtake (min n m) := by
  simp only [List.rtake_eq_reverse_take_reverse, List.reverse_reverse, List.take_take]

theorem length_rtake (events : List TraceEvent) (n : Nat) :
    (events.rtake n).length = min n events.length := by
  rw [List.rtake, List.length_drop]
  omega

/-- All events are the newest ones, where they are not too many. -/
theorem rtake_of_length_le {events : List TraceEvent} {n : Nat} (h : events.length ≤ n) :
    events.rtake n = events := by
  rw [List.rtake, Nat.sub_eq_zero_of_le h, List.drop_zero]

/-- Of the older events only the newest can still be among the newest behind others. -/
theorem rtake_append_rtake (older newer : List TraceEvent) (n : Nat) :
    (older.rtake n ++ newer).rtake n = (older ++ newer).rtake n := by
  simp only [List.rtake_eq_reverse_take_reverse, List.reverse_append, List.reverse_reverse,
    List.take_append, List.take_take]
  rw [Nat.min_eq_left (Nat.sub_le _ _)]

/-! ## one push -/

/-- A buffer with room for an event, that holds no more events than it has room for. -/
def WellFormed (b : TraceBuffer) : Prop := 0 < b.capacity.toNat ∧ b.size ≤ b.capacity.toNat

instance (b : TraceBuffer) : Decidable b.WellFormed := inferInstanceAs (Decidable (_ ∧ _))

theorem wellFormed_ofCapacity (capacity : UInt64) : (ofCapacity capacity).WellFormed :=
  ⟨ofCapacity_pos capacity, Nat.zero_le _⟩

/-- There is room for one event at least. -/
theorem toNat_capacity_ofCapacity (capacity : UInt64) :
    (ofCapacity capacity).capacity.toNat = max capacity.toNat 1 := by
  by_cases hzero : capacity = 0
  · subst hzero
    rfl
  · have hpos := ofCapacity_pos capacity
    simp only [ofCapacity, if_neg hzero] at hpos ⊢
    exact (Nat.max_eq_left hpos).symm

theorem WellFormed.push (h : b.WellFormed) (e : TraceEvent) : (b.push e).WellFormed :=
  ⟨h.1, length_push_le b e h.1 h.2⟩

theorem WellFormed.clear (h : b.WellFormed) : b.clear.WellFormed := ⟨h.1, Nat.zero_le _⟩

/-- **A push** leaves the newest events that there is room for in a well-formed buffer, and takes
nothing out of any other. -/
theorem events_push (b : TraceBuffer) (e : TraceEvent) :
    (b.push e).events =
      if b.WellFormed then (b.events ++ [e]).rtake b.capacity.toNat else b.events ++ [e] := by
  split
  · next hwell =>
      obtain ⟨room, hroom⟩ : ∃ room, b.capacity.toNat = room + 1 :=
        Nat.exists_eq_add_one_of_ne_zero hwell.1.ne'
      have hsize := hwell.2
      rw [size, hroom] at hsize
      rw [push, hroom, List.rtake_concat_succ]
      split
      · next hfull => rw [List.rtake, hfull, Nat.add_sub_cancel_left]
      · next hspare => rw [rtake_of_length_le (by omega)]
  · next hill =>
      rw [push]
      split
      · next hfull =>
          -- Only an empty buffer without room is full here, and there is nothing to take out of it.
          have hempty : b.events = [] := by
            rw [WellFormed, not_and_or, size] at hill
            exact List.eq_nil_of_length_eq_zero (by omega)
          simp only [hempty, List.drop_nil]
      · rfl

/-- A push does not make a buffer well-formed. -/
theorem wellFormed_push_iff (b : TraceBuffer) (e : TraceEvent) :
    (b.push e).WellFormed ↔ b.WellFormed := by
  refine ⟨fun h => ?_, fun h => h.push e⟩
  by_contra hill
  have hsize := h.2
  rw [size, events_push, if_neg hill, List.length_append] at hsize
  exact hill ⟨h.1, Nat.le_of_succ_le hsize⟩

/-! ## new buffers -/

theorem wellFormed_useAll (h : b.WellFormed) (uses : List Use) : (b.useAll uses).WellFormed := by
  induction uses generalizing b with
  | nil => exact h
  | cons u uses ih =>
      cases u with
      | push e => exact ih (h.push e)
      | clear => exact ih h.clear

theorem capacity_useAll (b : TraceBuffer) (uses : List Use) :
    (b.useAll uses).capacity = b.capacity := by
  induction uses generalizing b with
  | nil => rfl
  | cons u uses ih =>
      cases u with
      | push e => exact ih (b.push e)
      | clear => exact ih b.clear

/-- Clearing leaves the count of all that was pushed alone. -/
theorem totalPushed_useAll (b : TraceBuffer) (uses : List Use) :
    (b.useAll uses).totalPushed = b.totalPushed + .ofNat (pushed uses).length := by
  induction uses using List.reverseRecOn with
  | nil => exact (UInt64.add_zero _).symm
  | append_singleton uses u ih =>
      rw [useAll_concat]
      cases u with
      | push e =>
          rw [pushed_concat_push, List.length_append, List.length_singleton, UInt64.ofNat_add,
            ← UInt64.add_assoc, ← ih]
          rfl
      | clear => rw [pushed_concat_clear, ← ih]; rfl

/-- An empty buffer becomes a window on what is pushed since the last clear. -/
theorem events_useAll (hwell : b.WellFormed) (hempty : b.events = []) (uses : List Use) :
    (b.useAll uses).events = (sinceClear uses).rtake b.capacity.toNat := by
  induction uses using List.reverseRecOn with
  | nil => exact hempty.trans (List.rtake_nil _).symm
  | append_singleton uses u ih =>
      rw [useAll_concat]
      cases u with
      | push e =>
          rw [use, events_push, if_pos (wellFormed_useAll hwell uses), capacity_useAll, ih,
            rtake_append_rtake, sinceClear_concat_push]
      | clear => rw [sinceClear_concat_clear, List.rtake_nil]; rfl

/-- **A new buffer is a window on what has been pushed since the last clear.**  Whatever is done to
it, it shows the newest of these events, as many as it has room for; asked for fewer, it shows the
newest of them.  It never holds more than it has room for, which is one event at least, and it
counts all that was ever pushed, in a word of 64 bits. -/
theorem useAll_ofCapacity (capacity : UInt64) (uses : List Use) :
    ((ofCapacity capacity).useAll uses).events =
        (sinceClear uses).rtake (max capacity.toNat 1) ∧
      (∀ n, ((ofCapacity capacity).useAll uses).recent n =
        (sinceClear uses).rtake (min n (max capacity.toNat 1))) ∧
      ((ofCapacity capacity).useAll uses).size ≤ max capacity.toNat 1 ∧
      ((ofCapacity capacity).useAll uses).totalPushed = .ofNat (pushed uses).length := by
  have hevents := events_useAll (wellFormed_ofCapacity capacity) rfl uses
  rw [toNat_capacity_ofCapacity] at hevents
  refine ⟨hevents, fun n => ?_, ?_, ?_⟩
  · rw [recent, hevents]
    exact rtake_rtake _ _ n
  · rw [size, hevents, length_rtake]
    exact Nat.min_le_left _ _
  · rw [totalPushed_useAll]
    exact UInt64.zero_add _

/-! ## loaded buffers -/

/-- **Pushes** leave the newest events that there is room for in a well-formed buffer, and take
nothing out of any other. -/
theorem events_pushAll (b : TraceBuffer) (events : List TraceEvent) :
    (b.pushAll events).events =
      if b.WellFormed then (b.events ++ events).rtake b.capacity.toNat
      else b.events ++ events := by
  induction events generalizing b with
  | nil =>
      rw [List.append_nil]
      split
      · next hwell => exact (rtake_of_length_le hwell.2).symm
      · rfl
  | cons e events ih =>
      rw [pushAll, List.foldl_cons, ← pushAll, ih, events_push]
      simp only [wellFormed_push_iff]
      split
      · rw [show (b.push e).capacity = b.capacity from rfl, rtake_append_rtake, List.append_assoc,
          List.singleton_append]
      · rw [List.append_assoc, List.singleton_append]

/-- What has just been pushed is still held, if there is room for it. -/
theorem mem_events_pushAll (hroom : events.length ≤ b.capacity.toNat) (he : e ∈ events) :
    e ∈ (b.pushAll events).events := by
  rw [events_pushAll]
  split
  · rw [List.rtake, List.length_append, List.drop_append_of_le_length (by omega)]
    exact List.mem_append_right _ he
  · exact List.mem_append_right _ he

/-- **The buffers that stay bounded are the well-formed ones.**  Whatever is pushed, a well-formed
buffer holds the newest events that it has room for.  A buffer that has come from elsewhere with no
room, or with more events than it has room for, never drops any: it grows with every push. -/
theorem pushAll_bounded_iff (b : TraceBuffer) :
    ((∀ events, (b.pushAll events).size ≤ max (max b.capacity.toNat 1) b.size) ↔ b.WellFormed) ∧
      ∀ events, (b.pushAll events).events =
        if b.WellFormed then (b.events ++ events).rtake b.capacity.toNat
        else b.events ++ events := by
  refine ⟨⟨fun hbounded => ?_, fun hwell events => ?_⟩, b.events_pushAll⟩
  · by_contra hill
    have hgrown := hbounded (List.replicate (b.capacity.toNat + 2) default)
    rw [size, events_pushAll, if_neg hill, List.length_append, List.length_replicate, size]
      at hgrown
    omega
  · rw [size, events_pushAll, if_pos hwell, length_rtake]
    omega

/-- A buffer with room for one event that has been given two. -/
def overfull : TraceBuffer where
  capacity := 1
  events :=
    [{ kind := .replan, entity := 1, message := "one" },
      { kind := .replan, entity := 1, message := "two" }]
  totalPushed := 2

/-- **An overfull buffer makes no room**: with one more event it holds three. -/
theorem size_push_overfull :
    overfull.size = 2 ∧
      ¬(overfull.pushAll [{ kind := .replan, entity := 1, message := "three" }]).size ≤
        max (max overfull.capacity.toNat 1) overfull.size := by
  decide

end TraceBuffer

end PlanningAgents
