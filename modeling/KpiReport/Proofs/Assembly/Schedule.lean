import KpiReport.Proofs.Assembly.Slots
import Mathlib.Logic.Relation

/-!
# Assembling under any schedule

The jobs of a report may run at the same time. They begin in the order of their slots, each as soon
as one of the `Assembler.workers` is free, and end in any order; a job writes to its slot when it
ends. `Crew` is a run in progress and `Crew.Step` what can happen next.

* **`Crew.Sound`** — what holds in every state that a run comes to: no more jobs are running than
  there are workers, each job is waiting, running or completed exactly once, and the slots are those
  that the completed jobs leave behind in some order. `Crew.Step.sound` is the step and
  `Crew.Runs.sound` the run.
* **`Crew.exists_finished`** — a run never gets stuck: every state leads to one without open jobs.
* **`ReportSpec.assemble_eq_of_schedule`** — the outcome is that of the jobs one after the other.

The error of an outcome is found by slot and not by the time it occurred, so with all slots alike
the outcome is alike too (`ReportSpec.runJobs_perm`).
-/

namespace KpiReport

/-- There is always a worker, whatever number of them is asked for. -/
theorem Assembler.workers_pos (a : Assembler) : 0 < a.workers := by
  unfold workers
  split
  · exact Nat.one_pos
  · omega

/-- A run in progress: the jobs that have not begun, in their order, those that have begun and not
ended, and the slots.

What a job works out while it runs is its own. Others can see it only when it ends, so the end is
the one moment at which the slots change. -/
structure Crew where
  waiting : List Job
  running : List Job
  slots : List Slot

namespace Crew

variable {r : ReportSpec} {limit : Nat} {l : Layout} {c c' : Crew}

/-- The state before the first job of a layout begins. -/
def ofLayout (l : Layout) : Crew := ⟨l.jobs, [], l.slots⟩

/-- All jobs have ended. -/
def Finished (c : Crew) : Prop := c.waiting = [] ∧ c.running = []

/-- What can happen next when at most `limit` jobs may run at once. -/
inductive Step (r : ReportSpec) (limit : Nat) : Crew → Crew → Prop where
  /-- The job in front begins, if there is room for it. -/
  | begin (j : Job) (waiting running : List Job) (slots : List Slot)
      (hroom : running.length < limit) :
      Step r limit ⟨j :: waiting, running, slots⟩ ⟨waiting, running ++ [j], slots⟩
  /-- Any running job ends and writes to its slot. -/
  | finish (j : Job) (waiting before after : List Job) (slots : List Slot) :
      Step r limit ⟨waiting, before ++ j :: after, slots⟩
        ⟨waiting, before ++ after, r.runJob slots j⟩

/-- What a run can come to, the state that it is in included. -/
abbrev Runs (r : ReportSpec) (limit : Nat) : Crew → Crew → Prop :=
  Relation.ReflTransGen (Step r limit)

/-! ## What holds throughout a run -/

/-- The state of a run on the layout `l`. -/
structure Sound (r : ReportSpec) (limit : Nat) (l : Layout) (c : Crew) : Prop where
  room : c.running.length ≤ limit
  /-- No job is lost or run twice, and the completed ones have written to the slots. -/
  once : ∃ completed : List Job, (completed ++ (c.running ++ c.waiting)).Perm l.jobs ∧
    c.slots = r.runJobs l.slots completed

theorem sound_ofLayout : Sound r limit l (ofLayout l) where
  room := Nat.zero_le _
  once := ⟨[], List.Perm.refl _, rfl⟩

/-- Each step keeps a run sound. A job that begins is moved from the waiting ones to the running
ones; a job that ends is moved on to the completed ones and writes to its slot. -/
theorem Step.sound (hs : Step r limit c c') (h : Sound r limit l c) : Sound r limit l c' := by
  obtain ⟨completed, hjobs, hslots⟩ := h.once
  cases hs with
  -- there was room for the job, and the slots are as they were
  | begin j waiting running slots hroom =>
    refine ⟨?_, completed, ?_, hslots⟩
    · rw [List.length_append]
      exact hroom
    · rw [List.append_assoc]
      exact hjobs
  | finish j waiting before after slots =>
    have hroom := h.room
    refine ⟨?_, completed ++ [j], ?_, ?_⟩
    · simp only [List.length_append, List.length_cons] at hroom ⊢
      omega
    · -- the job moves from among the running ones to the end of the completed ones
      have hmove : (completed ++ [j] ++ (before ++ after ++ waiting)).Perm
          (completed ++ (before ++ j :: after ++ waiting)) := by
        simp only [List.append_assoc, List.cons_append, List.nil_append]
        exact List.Perm.append_left completed List.perm_middle.symm
      exact hmove.trans hjobs
    · rw [r.runJobs_append, ← hslots]
      rfl

/-- So every state that a run comes to is sound. -/
theorem Runs.sound (hs : Runs r limit c c') (h : Sound r limit l c) : Sound r limit l c' := by
  induction hs with
  | refl => exact h
  | tail _ hstep ih => exact hstep.sound ih

/-- At the end of a run the slots are those of some order of the jobs: the one in which they have
ended. -/
theorem Sound.exists_order (h : Sound r limit l c) (hc : c.Finished) :
    ∃ order : List Job, order.Perm l.jobs ∧ c.slots = r.runJobs l.slots order := by
  obtain ⟨completed, hjobs, hslots⟩ := h.once
  rw [hc.1, hc.2, List.append_nil, List.append_nil] at hjobs
  exact ⟨completed, hjobs, hslots⟩

/-! ## Every run can be finished -/

/-- The number of steps that are left. -/
def steps (c : Crew) : Nat := 2 * c.waiting.length + c.running.length

/-- No step undoes another: each brings the end nearer by one. -/
theorem Step.steps_eq (hs : Step r limit c c') : c.steps = c'.steps + 1 := by
  cases hs with
  | begin j waiting running slots hroom =>
    simp only [steps, List.length_cons, List.length_append, List.length_nil]
    omega
  | finish j waiting before after slots =>
    simp only [steps, List.length_append, List.length_cons]
    omega

/-- With a worker to hand, something can happen unless all jobs have ended. -/
theorem exists_step (r : ReportSpec) (hlimit : 0 < limit) (hc : ¬ c.Finished) :
    ∃ c', Step r limit c c' := by
  obtain ⟨waiting, running, slots⟩ := c
  -- a running job can end; else one that is waiting finds a worker free
  cases running with
  | cons j running => exact ⟨_, .finish j waiting [] running slots⟩
  | nil =>
    cases waiting with
    | nil => exact absurd ⟨rfl, rfl⟩ hc
    | cons j waiting => exact ⟨_, .begin j waiting [] slots hlimit⟩

/-- Every state leads to one in which all jobs have ended. By induction on the steps that are
left. -/
theorem exists_finished (r : ReportSpec) (hlimit : 0 < limit) (c : Crew) :
    ∃ c', Runs r limit c c' ∧ c'.Finished := by
  by_cases hc : c.Finished
  · exact ⟨c, .refl, hc⟩
  · obtain ⟨c₁, hstep⟩ := exists_step r hlimit hc
    have hless : c.steps = c₁.steps + 1 := hstep.steps_eq
    obtain ⟨c₂, hruns, hfin⟩ := exists_finished r hlimit c₁
    exact ⟨c₂, .head hstep hruns, hfin⟩
termination_by c.steps

end Crew

/-! ## The outcome -/

namespace ReportSpec

/-- **The outcome does not depend on the schedule.** Whichever order the jobs are run in, each of
them once, the query or the error is that of the sequential run. The same holds for every run of a
crew with as many workers as the settings allow, and each of them can be finished. -/
theorem assemble_eq_of_schedule (r : ReportSpec) (a : Assembler) :
    (∀ order : List Job, order.Perm r.layout.jobs →
      r.assembleFrom (r.runJobs r.layout.slots order) a = r.assemble { a with parallelism := 1 }) ∧
    ∀ c : Crew, Crew.Runs r a.workers (.ofLayout r.layout) c →
      c.running.length ≤ a.workers ∧
      (c.Finished → r.assembleFrom c.slots a = r.assemble { a with parallelism := 1 }) ∧
      ∃ c', Crew.Runs r a.workers c c' ∧ c'.Finished := by
  -- the jobs write to different slots, so their order does not matter
  have horder : ∀ order : List Job, order.Perm r.layout.jobs →
      r.assembleFrom (r.runJobs r.layout.slots order) a
        = r.assemble { a with parallelism := 1 } := by
    intro order hperm
    rw [r.runJobs_perm r.nodup_slots_jobs hperm]
    rfl
  refine ⟨horder, fun c hruns => ?_⟩
  have hsound := hruns.sound Crew.sound_ofLayout
  refine ⟨hsound.room, fun hfin => ?_, Crew.exists_finished r a.workers_pos c⟩
  -- a crew that has finished has run the jobs in some order
  obtain ⟨order, hperm, hslots⟩ := hsound.exists_order hfin
  rw [hslots]
  exact horder order hperm

/-- Two formulas fail at both levels; their jobs, run from the last to the first or by a crew,
report the first error all the same. -/
theorem assemble_eq_of_schedule_reversed :
    let r : ReportSpec :=
      { dimensions := [⟨"region", false⟩, ⟨"day", true⟩]
        columns := ["first", "second"]
        tables := ["sales"]
        measures := .empty
        mappings := .ofList [("region", .column "reg"), ("day", .column "d"),
          ("first", .formula "(a)"), ("second", .formula "(b)")] }
    let a : Assembler := ⟨-3, ""⟩
    r.assemble { a with parallelism := 1 } = .error (.undefinedKpi "a" "(a)") ∧
      r.assembleFrom (r.runJobs r.layout.slots r.layout.jobs.reverse) a
        = .error (.undefinedKpi "a" "(a)") ∧
      ∃ c, Crew.Runs r a.workers (.ofLayout r.layout) c ∧
        r.assembleFrom c.slots a = .error (.undefinedKpi "a" "(a)") := by
  intro r a
  have hcompile : ∀ d : Dimension,
      compileFormula "(a)" d r.measures r.mappings = .error (.undefinedKpi "a" "(a)") := by
    intro d
    rw [compileFormula_eq_compile d _ _ (by decide +kernel)
      (Formula.GrammarTree.ofTerm (.ofFactor (.agg .start "a"))) (by decide +kernel)]
    rfl
  -- the first formula fails at the first level
  have herror : r.assemble { a with parallelism := 1 } = .error (.undefinedKpi "a" "(a)") := by
    have hmapping : r.mappings.get? "first" = some (.formula "(a)") := rfl
    have hfirst := r.columnSlots_of_formula hmapping (by simp) 0
    rw [assemble, runJobs_layout]
    simp only [r, List.zipIdx_cons, List.flatMap_cons, hfirst]
    simp only [r, List.map_cons, fieldSlot, Mapping.text, hcompile]
    rfl
  obtain ⟨horder, hcrew⟩ := assemble_eq_of_schedule r a
  obtain ⟨c, hc, hfin⟩ := (hcrew _ .refl).2.2
  exact ⟨herror, (horder _ (List.reverse_perm _)).trans herror, c, hc,
    ((hcrew c hc).2.1 hfin).trans herror⟩

end ReportSpec

end KpiReport
