import GraphBench.Database.Discard
import GraphBench.Database.Memory
import GraphBench.Proofs.Driver.Task

/-!
One workload on two databases. Whatever the databases answer, two drivers that are opened alike take the same tasks, write
the same lines and stay equal, except for their statistics. To be opened alike they draw from the same entropy, or they
have a seed.
-/

namespace GraphBench

def Driver.withStats (driver : Driver) (stats : DriverStats) : Driver :=
  { driver with stats := stats }

def Taken.withStats (taken : Taken) (stats : DriverStats) : Taken :=
  { taken with driver := taken.driver.withStats stats }

/-- The statistics of a driver have no influence on what it takes. -/
theorem Driver.take_withStats (driver : Driver) (stats : DriverStats) (ids : IdCounter) (call : DriverCall) :
    (driver.withStats stats).take ids call = (driver.take ids call).withStats stats := by
  obtain ⟨phase, scanLength, source, transactions, old⟩ := driver
  cases call with
  | insert => rfl
  | transact =>
    cases transactions with
    | none => rfl
    | some run =>
      simp only [take, withStats]
      cases run.order.next.operation with
      | none => rfl
      | some op =>
        by_cases hop : op = .insert
        · simp only [takeDrawn, if_pos hop]
          rfl
        · simp only [takeDrawn, if_neg hop]
          rfl

namespace DriverSession

variable {δ ε : Type} [Database δ] [Database ε]

/-- Opens a driver on a disk, with a counter that may have been used before. -/
def startOn (config : Config) (phase : Phase) (entropy : Entropy) (w : Workspace) (db : δ) :
    Except WorkloadError (DriverSession δ) :=
  match Driver.openPhase config phase entropy w with
  | .ok driver w => .ok ⟨driver, w, db⟩
  | .error e _ => .error e

/-- Two sessions with equal disks and counters whose drivers differ in their statistics only: they have the same source,
with the same increment handed out last and the same components to be found, the same chooser and the same order. -/
structure Alike (s : DriverSession δ) (t : DriverSession ε) : Prop where
  disk : t.disk = s.disk
  ids : t.workspace.ids = s.workspace.ids
  driver : t.driver = s.driver.withStats t.driver.stats

/-- A call works on a task: the database performs it, and what it accepts of it decides about the answer. -/
def WorksOn (s : DriverSession δ) (call : DriverCall) (task : Task) : Prop :=
  let performed := task.perform s.driver.scanLength s.driver.stats s.db
  (s.perform call).1 = task.answer performed.1 call ∧ (s.perform call).2.2.db = performed.2.2

theorem worksOn_taken (s : DriverSession δ) (call : DriverCall) : s.WorksOn call (s.taken call).task := by
  rw [WorksOn, s.perform_eq call]
  exact ⟨rfl, rfl⟩

namespace Alike

variable {s : DriverSession δ} {t : DriverSession ε}

omit [Database δ] [Database ε] in
theorem taken (h : s.Alike t) (call : DriverCall) :
    t.taken call = (s.taken call).withStats t.driver.stats := by
  rw [DriverSession.taken, h.ids, h.driver]
  exact s.driver.take_withStats t.driver.stats s.workspace.ids call

/-- A call keeps two sessions alike. -/
theorem perform (h : s.Alike t) (call : DriverCall) :
    (t.perform call).2.1 = (s.perform call).2.1 ∧ (s.perform call).2.2.Alike (t.perform call).2.2 := by
  have htaken := h.taken call
  have hlines : (t.taken call).lines = (s.taken call).lines := by
    rw [htaken]
    rfl
  rw [s.perform_eq call, t.perform_eq call]
  refine ⟨hlines, ?_, ?_, ?_⟩
  · change t.disk.addLines (t.taken call).lines = s.disk.addLines (s.taken call).lines
    rw [h.disk, hlines]
  · change (t.taken call).ids = (s.taken call).ids
    rw [htaken]
    rfl
  · change (t.taken call).driver.withStats _ = (s.taken call).driver.withStats _
    rw [htaken]
    rfl

theorem after (h : s.Alike t) (calls : List DriverCall) :
    t.lines calls = s.lines calls ∧ (s.after calls).Alike (t.after calls) := by
  induction calls generalizing s t with
  | nil => exact ⟨rfl, h⟩
  | cons call rest ih =>
    obtain ⟨hline, hbehind⟩ := h.perform call
    obtain ⟨hrest, hafter⟩ := ih hbehind
    refine ⟨?_, hafter⟩
    rw [lines, lines, hline, hrest]

end Alike

end DriverSession

/-- With a seed, an opening takes nothing from what the system has drawn for it. -/
theorem Driver.openPhase_congr {config : Config} {entropy other : Entropy} (h : config.seed = none → other = entropy)
    (phase : Phase) : openPhase config phase other = openPhase config phase entropy := by
  cases hseed : config.seed with
  | none => rw [h hseed]
  | some seed =>
    have hstream := Config.stream_of_seed hseed
    have hpayloads : config.payloadStream other = config.payloadStream entropy := hstream 0 _ _
    have hchoices : config.choiceStream other = config.choiceStream entropy := hstream 1 _ _
    have hoperations : config.operationStream other = config.operationStream entropy := hstream 2 _ _
    rw [openPhase, openPhase, hpayloads, hchoices, hoperations]

/-- The workload does not depend on the database. Two drivers are opened on equal disks and with equal counters, for
databases of any kind and in any state. Both openings draw from the same entropy; with a seed the two may have been drawn
apart. Either both openings fail, with the same error or by stopping the program at weights without a finite total, or
after any calls the disks, the counters, the sources, the choosers and the orders are equal. Every call then works on the
same task in both sessions, so that it is exhausted in both or in none; what is left to the databases is how much of the
task they accept. -/
theorem workload_ignores_database {δ ε : Type} [Database δ] [Database ε] (config : Config) (phase : Phase)
    {entropy drawn : Entropy} (hentropy : config.seed = none → drawn = entropy) (w : Workspace) (db : δ) (other : ε) :
    (∃ e, DriverSession.startOn config phase entropy w db = .error e ∧
        DriverSession.startOn config phase drawn w other = .error e) ∨
      ∃ s t, DriverSession.startOn config phase entropy w db = .ok s ∧
        DriverSession.startOn config phase drawn w other = .ok t ∧
        ∀ calls, t.lines calls = s.lines calls ∧ (s.after calls).Alike (t.after calls) ∧
          ∀ call, ∃ task, ((s.after calls).taken call).task = task ∧ ((t.after calls).taken call).task = task ∧
            (s.after calls).WorksOn call task ∧ (t.after calls).WorksOn call task ∧
            (((s.after calls).perform call).1 = .transacted .exhausted ↔
              ((t.after calls).perform call).1 = .transacted .exhausted) := by
  have hdrawn := Driver.openPhase_congr hentropy phase
  cases hopen : Driver.openPhase config phase entropy w with
  | error e w' =>
    refine .inl ⟨e, ?_, ?_⟩
    · rw [DriverSession.startOn, hopen]
    · rw [DriverSession.startOn, hdrawn, hopen]
  | ok driver w' =>
    let s : DriverSession δ := ⟨driver, w', db⟩
    let t : DriverSession ε := ⟨driver, w', other⟩
    have halike : s.Alike t := ⟨rfl, rfl, rfl⟩
    refine .inr ⟨s, t, ?_, ?_, ?_⟩
    · rw [DriverSession.startOn, hopen]
    · rw [DriverSession.startOn, hdrawn, hopen]
    intro calls
    obtain ⟨hlines, hafter⟩ := halike.after calls
    refine ⟨hlines, hafter, ?_⟩
    intro call
    have htask : ((t.after calls).taken call).task = ((s.after calls).taken call).task := by
      rw [hafter.taken call]
      rfl
    have hworks := (s.after calls).worksOn_taken call
    have hworks' := (t.after calls).worksOn_taken call
    rw [htask] at hworks'
    refine ⟨_, rfl, htask, hworks, hworks', ?_⟩
    cases call with
    | insert =>
      -- an insert is never answered like a transaction
      rw [hworks.1, hworks'.1]
      exact ⟨DriverAnswer.noConfusion, DriverAnswer.noConfusion⟩
    | transact => rw [hworks.1, hworks'.1, Task.answer_exhausted_iff, Task.answer_exhausted_iff]

/-- A run phase with a seed, recorded in an empty folder: on a database that keeps what it is given, and on one that throws
it away. -/
theorem workload_ignores_database_of_seed :
    let config : Config := { Config.standard with dataSetDirectory := ".", seed := some 7 }
    let drawn : Entropy := ⟨.ofSeed 1, .ofSeed 2, .ofSeed 3⟩
    (config.seed = none → drawn = .zero) ∧
      ∃ s t, DriverSession.startOn config .run .zero ⟨.rootedAt [], .zero⟩ MemoryDatabase.empty = .ok s ∧
        DriverSession.startOn config .run drawn ⟨.rootedAt [], .zero⟩ DiscardDatabase.empty = .ok t ∧
        ∀ calls, t.lines calls = s.lines calls ∧ (s.after calls).Alike (t.after calls) := by
  intro config drawn
  have hentropy : config.seed = none → drawn = .zero := fun h => by cases h
  have hok : (match Driver.openPhase config .run .zero ⟨.rootedAt [], .zero⟩ with
    | .ok _ _ => true
    | .error _ _ => false) = true := by decide +kernel
  refine ⟨hentropy, ?_⟩
  rcases workload_ignores_database config .run hentropy ⟨.rootedAt [], .zero⟩ MemoryDatabase.empty DiscardDatabase.empty
    with ⟨e, herror, -⟩ | ⟨s, t, hs, ht, hcalls⟩
  · rw [DriverSession.startOn] at herror
    split at herror
    · cases herror
    · rename_i hopen
      rw [hopen] at hok
      cases hok
  · exact ⟨s, t, hs, ht, fun calls => ⟨(hcalls calls).1, (hcalls calls).2.1⟩⟩

end GraphBench
