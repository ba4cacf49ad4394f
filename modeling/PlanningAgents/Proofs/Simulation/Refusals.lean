import PlanningAgents.Proofs.Atoms.Filling
import PlanningAgents.Proofs.Simulation.States
import PlanningAgents.Proofs.Simulation.Tables

/-!
# PlanningAgents.Proofs.Simulation.Refusals

Goals that are refused.  The pairs of a goal are written one after another into the agent's own
table, so that names which come before the refused one have been taken by then (`Agent.withNames`).
Nothing else becomes of the agent.  So a refused goal leaves the agent as it was just where its
table takes no names at all.

Main statements:

* `Agent.encode_cases` — when pairs are refused, and what becomes of the agent;
* `Agent.setGoal_mergeGoal_cases`, `Stage.replanTo_cases` — a goal fails only by being refused;
* `Stage.refused_goals_exact` — when a refused goal leaves the agent as it was;
* `Stage.refused_goals_novice` — a novice, who has another atom after a refused goal.
-/

namespace PlanningAgents

variable {W M : Type}

namespace Agent

variable {a : Agent W M} {pairs : List (String × Bool)}

/-! ## refused goals -/

/-- An agent that has taken as many of the names of pairs as its table takes. -/
def withNames (a : Agent W M) (pairs : List (String × Bool)) : Agent W M :=
  a.withAtoms (a.atoms.filled (pairs.map Prod.fst) a.atoms.freeToSet)

/-- A goal is refused that has more new names than the table takes. -/
def Refuses (a : Agent W M) (pairs : List (String × Bool)) : Prop :=
  a.atoms.freeToSet < (a.atoms.missing (pairs.map Prod.fst)).length

/-- **The names that fit are taken**, and the pairs are refused if others are left over. -/
theorem encode_cases (a : Agent W M) (pairs : List (String × Bool)) :
    (a.Refuses pairs ∧ ∃ err, a.encode pairs = (.error err, a.withNames pairs)) ∨
    ¬ a.Refuses pairs ∧ ∃ goal, a.encode pairs = (.ok goal, a.withNames pairs) := by
  have hrations := AtomTable.rations_set
  obtain ⟨htable, -⟩ := hrations.writeAll_cases a.atoms .empty pairs
  rw [Refuses, ← hrations.exists_error_iff a.atoms .empty pairs, withNames, ← htable, encode,
    AtomTable.encode]
  obtain ⟨result, atoms⟩ := a.atoms.writeAll AtomTable.set .empty pairs
  cases result with
  | error err => exact .inl ⟨⟨err, rfl⟩, err, rfl⟩
  | ok goal => exact .inr ⟨by simp, goal, rfl⟩

/-- **A refusal leaves the agent as it was** just where its table takes no names. -/
theorem withNames_eq_self_iff (h : a.Refuses pairs) :
    a.withNames pairs = a ↔
      a.atoms.autoRegister = false ∨ a.atoms.cap ≤ a.atoms.names.length := by
  rw [← AtomTable.freeToSet_eq_zero_iff, ← AtomTable.filled_eq_self_iff h, withNames]
  refine ⟨fun hsame => congrArg Agent.atoms hsame, fun hsame => ?_⟩
  rw [hsame]
  rfl

/-- Goals are set and merged unless their pairs are refused, and nothing becomes of an agent that
refuses them but that it has taken names. -/
theorem setGoal_mergeGoal_cases (a : Agent W M) (pairs : List (String × Bool)) :
    (a.Refuses pairs ∧ ∃ err, a.setGoal pairs = (.error err, a.withNames pairs) ∧
      a.mergeGoal pairs = (.error err, a.withNames pairs)) ∨
    ¬ a.Refuses pairs ∧ (a.setGoal pairs).1 = .ok () ∧ (a.mergeGoal pairs).1 = .ok () := by
  rw [setGoal, mergeGoal]
  obtain ⟨hrefuses, err, hencode⟩ | ⟨htakes, goal, hencode⟩ := a.encode_cases pairs
  · rw [hencode]
    exact .inl ⟨hrefuses, err, rfl, rfl⟩
  · rw [hencode]
    exact .inr ⟨htakes, rfl, rfl⟩

end Agent

namespace Stage

variable {s : Stage W M} {e : EntityId} {a : Agent W M}

/-- An explicit goal is planned for unless the agent refuses its pairs, and then nothing becomes of
the stage but that the agent has taken names. -/
theorem replanTo_cases (ha : s.sim.agents[e]? = some a) (pairs : List (String × Bool))
    (merge : Bool) :
    (a.Refuses pairs ∧ ∃ err,
      s.replanTo e pairs merge = (.error err, s.mapSim (·.setAgent e (a.withNames pairs)))) ∨
    ¬ a.Refuses pairs ∧ ∃ outcome, (s.replanTo e pairs merge).1 = .ok outcome := by
  rw [replanTo, Simulation.onAgent, ha]
  obtain ⟨hrefuses, err, hencode⟩ | ⟨htakes, goal, hencode⟩ := a.encode_cases pairs
  · simp only [hencode]
    exact .inl ⟨hrefuses, err, rfl⟩
  · -- the agent is there to be called, and planning always has an outcome
    simp only [hencode, callAgent, Simulation.agents_setAgent]
    exact .inr ⟨htakes, _, rfl⟩

/-- To put an agent in its place changes the stage exactly if it changes the agent. -/
theorem setAgent_eq_self_iff (ha : s.sim.agents[e]? = some a) {b : Agent W M} :
    s.mapSim (·.setAgent e b) = s ↔ b = a := by
  constructor
  · intro hsame
    have hthere := s.agents_setAgent e b
    rw [hsame, ha] at hthere
    exact (Option.some.inj hthere).symm
  · rintro rfl
    rw [mapSim, Simulation.setAgent, SortedMap.insert_of_getElem? ha]

/-- **A refused goal leaves everything as it was** exactly where the agent's table takes no names:
it does not take them in by itself, or it is full.  Elsewhere the names before the refused one have
been taken, and this is all that has changed of the agent and of the stage. -/
theorem refused_goals_exact (pairs : List (String × Bool)) :
    (∀ a : Agent W M,
      ((∃ err, (a.setGoal pairs).1 = .error err) ↔ a.Refuses pairs) ∧
      ((∃ err, (a.mergeGoal pairs).1 = .error err) ↔ a.Refuses pairs) ∧
      (a.Refuses pairs →
        (a.setGoal pairs).2 = a.withNames pairs ∧ (a.mergeGoal pairs).2 = a.withNames pairs ∧
        (a.withNames pairs = a ↔
          a.atoms.autoRegister = false ∨ a.atoms.cap ≤ a.atoms.names.length))) ∧
    ∀ (s : Stage W M) e merge,
      (s.sim.agents[e]? = none → s.replanTo e pairs merge = (.error (.unknownEntity e), s)) ∧
      ∀ a, s.sim.agents[e]? = some a →
        ((∃ err, (s.replanTo e pairs merge).1 = .error err) ↔ a.Refuses pairs) ∧
        (a.Refuses pairs →
          (s.replanTo e pairs merge).2 = s.mapSim (·.setAgent e (a.withNames pairs)) ∧
          ((s.replanTo e pairs merge).2 = s ↔
            a.atoms.autoRegister = false ∨ a.atoms.cap ≤ a.atoms.names.length)) := by
  refine ⟨fun a => ?_, fun s e merge => ⟨fun hnone => ?_, fun a ha => ?_⟩⟩
  · obtain ⟨hrefuses, err, hset, hmerge⟩ | ⟨htakes, hset, hmerge⟩ :=
      a.setGoal_mergeGoal_cases pairs
    · rw [hset, hmerge]
      have hfails : ∃ err', (.error err : Except AgentError Unit) = .error err' := ⟨err, rfl⟩
      exact ⟨iff_of_true hfails hrefuses, iff_of_true hfails hrefuses,
        fun _ => ⟨rfl, rfl, Agent.withNames_eq_self_iff hrefuses⟩⟩
    · rw [hset, hmerge]
      have hdone : ¬ ∃ err, (.ok () : Except AgentError Unit) = .error err := by simp
      exact ⟨iff_of_false hdone htakes, iff_of_false hdone htakes,
        fun hrefuses => absurd hrefuses htakes⟩
  · rw [replanTo, Simulation.onAgent, hnone]
  · obtain ⟨hrefuses, err, hrun⟩ | ⟨htakes, outcome, hrun⟩ := replanTo_cases ha pairs merge
    · rw [hrun]
      refine ⟨iff_of_true ⟨err, rfl⟩ hrefuses, fun _ => ⟨rfl, ?_⟩⟩
      rw [setAgent_eq_self_iff ha, Agent.withNames_eq_self_iff hrefuses]
    · rw [hrun]
      exact ⟨iff_of_false (by simp) htakes, fun hrefuses => absurd hrefuses htakes⟩

/-! ## a novice -/

/-- Novices, who know of nothing. -/
def novices : Definition Unit Bool where
  data := { entityTypes := .ofList [("novice", ({} : EntityTypeSpec))] }

/-- A stage with one novice, who can name one atom. -/
def school (autoRegisterAtoms : Bool) : Stage Unit Bool :=
  [.registerDefinition novices, .spawn 1 "novice" none].foldl perform
    { sim := .ofConfig { agent := { safeAtomCap := 1, autoRegisterAtoms } }, world := () }

/-- A goal with more atoms than a novice can name. -/
def lesson : List (String × Bool) := [("awake", true), ("taught", true)]

/-- A novice who takes in no names refuses the lesson, and the school is as it was before. -/
theorem refused_goals_school :
    (∃ err, ((school false).replanTo 1 lesson true).1 = .error err) ∧
      ((school false).replanTo 1 lesson true).2 = school false := by
  have hclosed : ((school false).sim.agents[(1 : EntityId)]?.map (·.atoms)) =
      some { cap := 1 } := by decide +kernel
  obtain ⟨a, ha, hatoms⟩ := Option.map_eq_some_iff.mp hclosed
  obtain ⟨-, hexact⟩ := refused_goals_exact (W := Unit) (M := Bool) lesson
  obtain ⟨hfails, hkeeps⟩ := (hexact (school false) 1 true).2 a ha
  have hrefuses : a.Refuses lesson := by
    rw [Agent.Refuses, hatoms]
    decide +kernel
  exact ⟨hfails.mpr hrefuses, (hkeeps hrefuses).2.mpr (.inl (by rw [hatoms]))⟩

/-- **A novice remembers a refused lesson.**  Whether the goal is set, merged or planned for, it is
refused, and the novice has an atom more. -/
theorem refused_goals_novice :
    ∃ a, (school true).sim.agents[(1 : EntityId)]? = some a ∧ a.atoms.names = [] ∧
      (a.setGoal lesson).1 = .error (.atomCapExceeded "taught" 1) ∧
      (a.setGoal lesson).2.atoms.names = ["awake"] ∧
      (a.mergeGoal lesson).1 = .error (.atomCapExceeded "taught" 1) ∧
      (a.mergeGoal lesson).2.atoms.names = ["awake"] ∧
      ∀ merge, ((school true).replanTo 1 lesson merge).1 = .error (.atomCapExceeded "taught" 1) ∧
        (((school true).replanTo 1 lesson merge).2.sim.agents[(1 : EntityId)]?.map
          (·.atoms.names)) = some ["awake"] := by
  have hthere : ((school true).sim.agents[(1 : EntityId)]?.map (·.atoms)) =
      some { cap := 1, autoRegister := true } := by decide +kernel
  obtain ⟨a, ha, hatoms⟩ := Option.map_eq_some_iff.mp hthere
  refine ⟨a, ha, by rw [hatoms], ?_, ?_, ?_, ?_, by decide +kernel⟩
  all_goals
    simp only [Agent.setGoal, Agent.mergeGoal, Agent.encode, hatoms]
    rfl

end Stage

end PlanningAgents
