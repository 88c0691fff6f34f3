import GraphBench.Driver
import Mathlib.Algebra.Group.Nat.Defs

/-!
Drivers at work. A session is a driver together with the disk, the counter and the database that it works on;
calls are made one after the other, and each adds the lines that record it to the disk.
-/

namespace GraphBench

inductive DriverCall where
  | insert
  | transact
  deriving DecidableEq

def transactions (count : Nat) : List DriverCall :=
  List.replicate count .transact

theorem length_transactions (count : Nat) : (transactions count).length = count :=
  List.length_replicate

/-- What a call returns. A transaction is refused in the load phase. -/
inductive DriverAnswer where
  | inserted (accepted : Bool)
  | transacted (outcome : Outcome)
  | refused (fault : ConfigFault)
  deriving DecidableEq

structure DriverSession (δ : Type) where
  driver : Driver
  workspace : Workspace
  db : δ

namespace DriverSession

variable {δ : Type} [Database δ]

def start (config : Config) (phase : Phase) (entropy : Entropy) (disk : Disk) (db : δ) :
    Except WorkloadError (DriverSession δ) :=
  match Driver.openPhase config phase entropy ⟨disk, .zero⟩ with
  | .ok driver w => .ok ⟨driver, w, db⟩
  | .error e _ => .error e

omit [Database δ] in
theorem start_of_openPhase {config : Config} {phase : Phase} {entropy : Entropy} {disk : Disk} {driver : Driver}
    {w : Workspace} (h : Driver.openPhase config phase entropy ⟨disk, .zero⟩ = .ok driver w) (db : δ) :
    start config phase entropy disk db = .ok ⟨driver, w, db⟩ := by
  rw [start, h]

omit [Database δ] in
theorem openPhase_of_start {config : Config} {phase : Phase} {entropy : Entropy} {disk : Disk} {db : δ}
    {s : DriverSession δ} (h : start config phase entropy disk db = .ok s) :
    Driver.openPhase config phase entropy ⟨disk, .zero⟩ = .ok s.driver s.workspace := by
  rw [start] at h
  cases hopen : Driver.openPhase config phase entropy ⟨disk, .zero⟩ with
  | ok driver w =>
    rw [hopen] at h
    cases h
    rfl
  | error e w =>
    rw [hopen] at h
    cases h

/-- The answer to a call, the lines that record it, and the session behind it. -/
def perform (s : DriverSession δ) : DriverCall → DriverAnswer × List TraceLine × DriverSession δ
  | .insert =>
    let step := s.driver.insert s.workspace.ids s.db
    (.inserted step.result, step.lines,
      ⟨step.driver, ⟨s.workspace.disk.addLines step.lines, step.ids⟩, step.db⟩)
  | .transact =>
    match s.driver.transact s.workspace.ids s.db with
    | .error fault => (.refused fault, [], s)
    | .ok step =>
      (.transacted step.result, step.lines,
        ⟨step.driver, ⟨s.workspace.disk.addLines step.lines, step.ids⟩, step.db⟩)

def after (s : DriverSession δ) : List DriverCall → DriverSession δ
  | [] => s
  | call :: rest => (s.perform call).2.2.after rest

def answers (s : DriverSession δ) : List DriverCall → List DriverAnswer
  | [] => []
  | call :: rest => (s.perform call).1 :: (s.perform call).2.2.answers rest

def lines (s : DriverSession δ) : List DriverCall → List TraceLine
  | [] => []
  | call :: rest => (s.perform call).2.1 ++ (s.perform call).2.2.lines rest

def disk (s : DriverSession δ) : Disk :=
  s.workspace.disk

omit [Database δ] in
theorem start_db {config : Config} {phase : Phase} {entropy : Entropy} {disk : Disk} {db : δ}
    {s : DriverSession δ} (h : start config phase entropy disk db = .ok s) : s.db = db := by
  rw [start] at h
  split at h
  · cases h
    rfl
  · cases h

theorem after_append (s : DriverSession δ) (first second : List DriverCall) :
    s.after (first ++ second) = (s.after first).after second := by
  induction first generalizing s with
  | nil => rfl
  | cons call rest ih => exact ih _

theorem lines_append (s : DriverSession δ) (first second : List DriverCall) :
    s.lines (first ++ second) = s.lines first ++ (s.after first).lines second := by
  induction first generalizing s with
  | nil => rfl
  | cons call rest ih =>
    rw [List.cons_append, lines, ih, lines, List.append_assoc]
    rfl

theorem after_transactions_succ (s : DriverSession δ) (count : Nat) :
    s.after (transactions (count + 1)) = ((s.after (transactions count)).perform .transact).2.2 := by
  rw [transactions, List.replicate_succ', after_append]
  rfl

theorem lines_transactions_succ (s : DriverSession δ) (count : Nat) :
    s.lines (transactions (count + 1)) =
      s.lines (transactions count) ++ ((s.after (transactions count)).perform .transact).2.1 := by
  rw [transactions, List.replicate_succ', lines_append, lines, lines, List.append_nil]
  rfl

theorem disk_perform (s : DriverSession δ) (call : DriverCall) :
    (s.perform call).2.2.disk = s.disk.addLines (s.perform call).2.1 := by
  cases call with
  | insert => rfl
  | transact =>
    simp only [perform]
    split <;> rfl

theorem disk_after (s : DriverSession δ) (calls : List DriverCall) :
    (s.after calls).disk = s.disk.addLines (s.lines calls) := by
  induction calls generalizing s with
  | nil => rfl
  | cons call rest ih =>
    rw [after, ih, disk_perform, lines]
    exact List.foldl_append.symm

end DriverSession

end GraphBench
