import PlanningAgents.Proofs.Agent.Moves

/-!
# PlanningAgents.Proofs.Agent.Retries

How often an action is started.  The events of an agent are kept from its very beginning on
(`Chronicle`), and from them the starts are counted that the record at the front has had since it
came there.  Where the front is not due to be started, this count is one more than the retries that
the agent counts itself; so the bound on its retries is a bound on the starts.

Main statements:

* `Agent.Counted` — the count of the agent agrees with the starts;
* `Agent.Move.counted` — every move keeps it so;
* `Agent.Move.of_front_ne` — another record at the front finds no retries counted;
* `Turn.failFront_eq_loop`, `Turn.wellFounded_retriedAs` — trying again is a loop, and it ends;
* `Chronicle.counted`, `Chronicle.exists_of_reachable` — the count is kept throughout every run, and
  every agent that there can be has been through one.
-/

namespace PlanningAgents

variable {W M : Type}

/-! ## counting starts -/

/-- The number of starts with one more event. -/
def Event.count (n : Nat) : Event W M → Nat
  | .ran note => if note.run.isStart then n + 1 else n
  | .newFront => 0

/-- How often the record at the front has been started since it came there. -/
def starts (events : List (Event W M)) : Nat := events.foldl Event.count 0

theorem starts_append (events events' : List (Event W M)) :
    starts (events ++ events') = events'.foldl Event.count (starts events) :=
  List.foldl_append

namespace Agent

variable {a b : Agent W M} {front : ActionRecord W M} {rest : List (ActionRecord W M)}
  {events : List (Event W M)} {n : Nat}

/-- The retries of an agent agree with the number of starts of its front. -/
structure Counted (a : Agent W M) (n : Nat) : Prop where
  le : a.retries ≤ a.maxRetries
  /-- A front that is due has been started once per retry before, and any other once more. -/
  front : ∀ r ∈ a.queue.head?, n = a.retries.toNat + if r.phase = .created then 0 else 1
  waiting : ∀ r ∈ a.queue.tail, r.phase = .created

/-- With an empty queue there is nothing to count. -/
theorem counted_of_queue_eq_nil (hle : a.retries ≤ a.maxRetries) (hqueue : a.queue = [])
    (n : Nat) : a.Counted n := by
  refine ⟨hle, ?_, ?_⟩
  · simp [hqueue]
  · simp [hqueue]

theorem counted_of_queue_eq (hle : a.retries ≤ a.maxRetries) (hcons : a.queue = front :: rest)
    (hfront : n = a.retries.toNat + if front.phase = .created then 0 else 1)
    (hwaiting : ∀ r ∈ rest, r.phase = .created) : a.Counted n := by
  refine ⟨hle, ?_, ?_⟩
  · simpa [hcons] using hfront
  · simpa [hcons] using hwaiting

theorem Counted.front_eq (h : a.Counted n) (hcons : a.queue = front :: rest) :
    n = a.retries.toNat + if front.phase = .created then 0 else 1 :=
  h.front front (by rw [hcons]; rfl)

/-- Only the retries, their bound and the queue matter. -/
theorem Counted.of_kept_eq (h : a.Counted n) (hkept : b.kept = a.kept) : b.Counted n := by
  rw [eq_of_kept_eq hkept]
  exact ⟨h.le, h.front, h.waiting⟩

/-- The front is the only record that a start changes. -/
theorem queue_start {t : Turn W M} (hcons : t.agent.queue = front :: rest) (phase : ActionPhase) :
    ((t.call front.handlers.start).2.mapFront ({ · with phase })).agent.queue =
      { front with phase } :: rest :=
  Turn.queue_mapFront ((congrArg Agent.queue (t.kept_call _)).trans hcons) _

/-- Zero retries are never too many. -/
theorem zero_le_maxRetries (a : Agent W M) : (0 : UInt32) ≤ a.maxRetries :=
  UInt32.le_iff_toNat_le.mpr (Nat.zero_le _)

/-- One more retry, where one is left, is one more. -/
theorem toNat_retries_succ (hleft : a.retries < a.maxRetries) :
    (a.retries + 1).toNat = a.retries.toNat + 1 := by
  have hless := UInt32.lt_iff_toNat_lt.mp hleft
  have hmax := a.maxRetries.toNat_lt
  rw [UInt32.toNat_add, UInt32.toNat_one]
  omega

/-- **Every move keeps the count.** -/
theorem Move.counted (h : Move a events b) (hn : a.Counted n) :
    b.Counted (events.foldl Event.count n) := by
  cases h with
  | @run α t h label hlabel =>
      have hother : (t.note h label).run.isStart = false := hlabel _
      have hsame : [Event.ran (t.note h label)].foldl Event.count n = n := by
        simp [Event.count, hother]
      rw [hsame]
      exact hn.of_kept_eq (t.kept_call h)
  | @start t front rest hcons hdue =>
      have hfront := hn.front_eq hcons
      rw [if_pos hdue] at hfront
      refine counted_of_queue_eq hn.le (queue_start hcons _) ?_ ?_
      · show n + 1 = t.agent.retries.toNat + if startedPhase _ = .created then 0 else 1
        rw [if_neg (startedPhase_ne_created _), hfront]
      · exact fun r hr => hn.waiting r (by rwa [hcons])
  | aside trace blackboard actionIndex dirty => exact ⟨hn.le, hn.front, hn.waiting⟩
  | clearGoal => exact ⟨hn.le, hn.front, hn.waiting⟩
  | remember => exact ⟨hn.le, hn.front, hn.waiting⟩
  | depart => exact ⟨hn.le, hn.front, hn.waiting⟩
  | @touch _ front rest task phase hcons hphase =>
      have hchanged : (a.queue.modifyHead fun r => { r with task := task r, phase := phase r }) =
          { front with task := task front, phase := phase front } :: rest := by simp [hcons]
      refine counted_of_queue_eq hn.le hchanged ?_ ?_
      · simpa [hphase] using hn.front_eq hcons
      · exact fun r hr => hn.waiting r (by rwa [hcons])
  | @retry _ front rest hcons hphase hleft =>
      have hready : a.queue.modifyHead ({ · with task := none, phase := .created }) =
          { front with task := none, phase := .created } :: rest := by simp [hcons]
      refine counted_of_queue_eq ?_ hready ?_ ?_
      · rw [UInt32.le_iff_toNat_le, toNat_retries_succ hleft]
        exact UInt32.lt_iff_toNat_lt.mp hleft
      · have hfront := hn.front_eq hcons
        rw [if_neg hphase] at hfront
        simpa [toNat_retries_succ hleft] using hfront
      · exact fun r hr => hn.waiting r (by rwa [hcons])
  | effect hcons hphase => exact ⟨hn.le, hn.front, hn.waiting⟩
  | @pop _ front rest hcons hphase =>
      cases rest with
      | nil =>
          apply counted_of_queue_eq_nil
          · exact a.zero_le_maxRetries
          · simp [hcons]
      | cons next rest =>
          have hwaiting : ∀ r ∈ next :: rest, r.phase = .created :=
            fun r hr => hn.waiting r (by rwa [hcons])
          have htail : a.queue.tail = next :: rest := by simp [hcons]
          refine counted_of_queue_eq ?_ htail ?_ ?_
          · exact a.zero_le_maxRetries
          · rw [if_pos (hwaiting next List.mem_cons_self)]
            rfl
          · exact fun r hr => hwaiting r (List.mem_cons_of_mem _ hr)
  | giveUp hcons hphase hleft =>
      apply counted_of_queue_eq_nil
      · exact hn.le
      · rfl
  | drop hphase =>
      apply counted_of_queue_eq_nil
      · exact hn.le
      · rfl
  | plan hqueue => exact ⟨hn.le, hn.front, hn.waiting⟩
  | reset hqueue =>
      apply counted_of_queue_eq_nil
      · exact a.zero_le_maxRetries
      · exact hqueue
  | enqueue hqueue hretries =>
      have hcreated : ∀ r ∈ a.plan.actions.zipIdx.filterMap a.recordAt?, r.phase = .created := by
        intro r hr
        obtain ⟨place, -, hrecord⟩ := List.mem_filterMap.mp hr
        exact (of_recordAt?_eq_some hrecord).2.2.2.1
      refine ⟨hn.le, ?_, fun r hr => hcreated r (List.mem_of_mem_tail hr)⟩
      intro r hr
      show 0 = a.retries.toNat + if r.phase = .created then 0 else 1
      rw [if_pos (hcreated r (List.mem_of_mem_head? hr)), hretries]
      rfl

/-- So do moves. -/
theorem Moves.counted (h : Moves a events b) (hn : a.Counted n) :
    b.Counted (events.foldl Event.count n) := by
  induction h with
  | nil => exact hn
  | snoc _ hmove ih =>
      rw [List.foldl_append]
      exact hmove.counted ih

/-! ## how records come to the front -/

/-- **Another record comes to the front** only as it is told, and finds no retries counted. -/
theorem Move.of_front_ne (h : Move a events b) (hqueue : b.queue ≠ [])
    (hne : b.queue.map ActionRecord.place ≠ a.queue.map ActionRecord.place) :
    events = [.newFront] ∧ b.retries = 0 := by
  cases h with
  | run t h hlabel => exact absurd rfl hne
  | start hcons hdue =>
      rw [queue_start hcons, hcons] at hne
      exact absurd rfl hne
  | aside trace blackboard actionIndex dirty => exact absurd rfl hne
  | clearGoal => exact absurd rfl hne
  | remember => exact absurd rfl hne
  | depart => exact absurd rfl hne
  | touch hcons hphase => simp [hcons, ActionRecord.place] at hne
  | retry hcons hphase hleft => simp [hcons, ActionRecord.place] at hne
  | effect hcons hphase => exact absurd rfl hne
  | pop hcons hphase => exact ⟨rfl, rfl⟩
  | giveUp hcons hphase hleft => exact absurd rfl hqueue
  | drop hphase => exact absurd rfl hqueue
  | plan hnil => exact absurd rfl hne
  | reset hnil => exact absurd rfl hne
  | enqueue hnil hretries => exact ⟨rfl, hretries⟩

end Agent

/-! ## trying again -/

namespace Turn

variable {t u : Turn W M} {front : ActionRecord W M} {rest : List (ActionRecord W M)}

/-- A front that has been tried again and did not start is left with one more retry counted. -/
theorem of_countRetry_startFront (hcons : t.agent.queue = front :: rest)
    (hleft : t.agent.retries < t.agent.maxRetries) (hstart : t.countRetry.startFront = (false, u)) :
    u.agent.queue = { front with task := none, phase := .failed } :: rest ∧
      u.agent.retries.toNat = t.agent.retries.toNat + 1 ∧
      u.agent.maxRetries = t.agent.maxRetries := by
  have hcount : t.countRetry.agent.queue = { front with task := none } :: rest :=
    queue_mapFront hcons _
  obtain ⟨hqueue, hretries, hmax⟩ := of_startFront_eq_false hcount hstart
  exact ⟨hqueue, hretries ▸ Agent.toNat_retries_succ hleft, hmax⟩

/-- **Trying again is a loop**: it is left when no retries are left or the front starts, and goes
on from where the front has failed to start otherwise. -/
theorem failFront_eq_loop (hcons : t.agent.queue = front :: rest) :
    t.failFront =
      if t.agent.maxRetries ≤ t.agent.retries then (.retriesExhausted, t.giveUpFront front.name)
      else match t.countRetry.startFront with
        | (true, u) => (.retrying, u)
        | (false, u) => u.failFront := by
  have hfail : t.failFront = retryFront front.name
      (t.agent.maxRetries.toNat - t.agent.retries.toNat) t := by
    rw [failFront, hcons]
  rw [hfail]
  split
  · next hle =>
      rw [UInt32.le_iff_toNat_le] at hle
      rw [Nat.sub_eq_zero_of_le hle]
      rfl
  · next hle =>
      have hleft : t.agent.retries < t.agent.maxRetries := UInt32.not_le.mp hle
      have hless := UInt32.lt_iff_toNat_lt.mp hleft
      obtain ⟨left, hsucc⟩ : ∃ left, t.agent.maxRetries.toNat - t.agent.retries.toNat = left + 1 :=
        ⟨t.agent.maxRetries.toNat - t.agent.retries.toNat - 1, by omega⟩
      simp only [hsucc, retryFront, ← countRetry.eq_def]
      cases hstart : t.countRetry.startFront with
      | mk started u =>
          cases started with
          | true => rfl
          | false =>
              obtain ⟨hqueue, hretries, hmax⟩ := of_countRetry_startFront hcons hleft hstart
              have hnext : u.agent.maxRetries.toNat - u.agent.retries.toNat = left := by
                rw [hretries, hmax]
                omega
              simp only [failFront, hqueue, hnext]

/-- One round of the loop leads from a failure to the next one. -/
def RetriedAs (u t : Turn W M) : Prop :=
  t.agent.queue ≠ [] ∧ t.agent.retries < t.agent.maxRetries ∧
    t.countRetry.startFront = (false, u)

/-- **The loop ends**: there are no rounds without end. -/
theorem wellFounded_retriedAs : WellFounded (RetriedAs (W := W) (M := M)) := by
  refine (measure fun t : Turn W M => t.agent.maxRetries.toNat - t.agent.retries.toNat).wf.mono ?_
  rintro u t ⟨hqueue, hleft, hstart⟩
  obtain ⟨front, rest, hcons⟩ := List.exists_cons_of_ne_nil hqueue
  obtain ⟨-, hretries, hmax⟩ := of_countRetry_startFront hcons hleft hstart
  have hless := UInt32.lt_iff_toNat_lt.mp hleft
  show u.agent.maxRetries.toNat - u.agent.retries.toNat <
    t.agent.maxRetries.toNat - t.agent.retries.toNat
  rw [hretries, hmax]
  omega

end Turn

/-! ## whole runs -/

/-- **What an agent has done** since it came about, in any calls, writes and loads. -/
inductive Chronicle : List (Event W M) → Agent W M → Prop
  | ofDefinition (entityType : String) (definition : Definition W M) (config : AgentConfig) :
      Chronicle [] (.ofDefinition entityType definition config)
  | call {events during : List (Event W M)} {t : Turn W M} (h : Chronicle events t.agent)
      (hbegin : t.seeded = false) (call : Call)
      (hmoves : (t.opening call).agent.Moves during (t.after call).agent)
      (hnotes : during.filterMap Event.note? = t.journal call) :
      Chronicle (events ++ during) (t.after call).agent
  | write {events : List (Event W M)} {a : Agent W M} (h : Chronicle events a) (w : Write) :
      Chronicle events (a.write w)
  | loadDefinition {events : List (Event W M)} {a : Agent W M} (h : Chronicle events a) :
      Chronicle events a.loadDefinition.2
  | loadActions {events : List (Event W M)} {a : Agent W M} (h : Chronicle events a)
      (specs : List ActionSpec) : Chronicle events (a.loadActions specs).2
  | loadWorldState {events : List (Event W M)} {a : Agent W M} (h : Chronicle events a)
      (spec : EntityTypeSpec) : Chronicle events (a.loadWorldState spec).2

namespace Agent

variable {a : Agent W M} {n : Nat}

theorem Counted.loadActions (h : a.Counted n) (specs : List ActionSpec) :
    (a.loadActions specs).2.Counted n := by
  rw [Agent.loadActions]
  split
  · exact ⟨h.le, h.front, h.waiting⟩
  · apply counted_of_queue_eq_nil
    · exact a.zero_le_maxRetries
    · rfl

theorem Counted.loadWorldState (h : a.Counted n) (spec : EntityTypeSpec) :
    (a.loadWorldState spec).2.Counted n := by
  rw [Agent.loadWorldState]
  split
  · exact ⟨h.le, h.front, h.waiting⟩
  · exact ⟨h.le, h.front, h.waiting⟩

theorem Counted.loadDefinition (h : a.Counted n) : a.loadDefinition.2.Counted n := by
  have hloaded := h.loadActions a.definition.data.actions
  rw [Agent.loadDefinition]
  split
  · exact h
  · next spec _ =>
      split
      · next e b heq =>
          rw [heq] at hloaded
          exact hloaded
      · next b heq =>
          rw [heq] at hloaded
          exact hloaded.loadWorldState spec

/-- The opening of a call leaves the queue and the retries alone. -/
theorem Counted.opening {t : Turn W M} (h : t.agent.Counted n) (call : Call) :
    (t.opening call).agent.Counted n := by
  cases call with
  | replanTo goal merge => exact ⟨h.le, h.front, h.waiting⟩
  | launch => exact h
  | step => exact h
  | replan => exact h
  | interrupt => exact h

end Agent

theorem Turn.maxRetries_opening (t : Turn W M) (call : Call) :
    (t.opening call).agent.maxRetries = t.agent.maxRetries := by
  cases call with
  | replanTo goal merge => rfl
  | _ => rfl

namespace Chronicle

variable {events : List (Event W M)} {a : Agent W M}

theorem reachable (h : Chronicle events a) : a.Reachable := by
  induction h with
  | ofDefinition entityType definition config => exact .ofDefinition entityType definition config
  | call _ hbegin call _ _ ih => exact ih.after hbegin call
  | write _ w ih => exact ih.write w
  | loadDefinition _ ih => exact ih.loadDefinition
  | loadActions _ specs ih => exact ih.loadActions specs
  | loadWorldState _ spec ih => exact ih.loadWorldState spec

/-- **The count is kept** throughout every run. -/
theorem counted (h : Chronicle events a) : a.Counted (starts events) := by
  induction h with
  | ofDefinition entityType definition config =>
      apply Agent.counted_of_queue_eq_nil
      · exact Agent.zero_le_maxRetries _
      · rfl
  | call _ _ call hmoves _ ih =>
      rw [starts_append]
      exact hmoves.counted (ih.opening call)
  | @write _ a _ w ih => exact ih.of_kept_eq (a.kept_write w)
  | loadDefinition _ ih => exact ih.loadDefinition
  | loadActions _ specs ih => exact ih.loadActions specs
  | loadWorldState _ spec ih => exact ih.loadWorldState spec

/-- Every call is told by the events of its moves. -/
theorem exists_after {t : Turn W M} (h : Chronicle events t.agent) (hbegin : t.seeded = false)
    (call : Call) : ∃ events', Chronicle events' (t.after call).agent := by
  obtain ⟨during, hmoves, hnotes⟩ := Turn.does_after h.reachable.atRest call
  exact ⟨_, h.call hbegin call hmoves hnotes⟩

/-- **Every agent that there can be** has a chronicle. -/
theorem exists_of_reachable (h : a.Reachable) : ∃ events, Chronicle events a := by
  induction h using Agent.Reachable.inductOn with
  | ofDefinition entityType definition config => exact ⟨_, .ofDefinition _ _ _⟩
  | loadDefinition _ ih => exact ih.imp fun _ h => h.loadDefinition
  | loadActions _ specs ih => exact ih.imp fun _ h => h.loadActions specs
  | loadWorldState _ spec ih => exact ih.imp fun _ h => h.loadWorldState spec
  | write _ w ih => exact ih.imp fun _ h => h.write w
  | after _ hbegin call ih => exact ih.elim fun _ h => h.exists_after hbegin call

end Chronicle

end PlanningAgents
