import GraphBench.Proofs.Driver.Task

/-!
What calls do to the generators of a driver. Each generator is asked at most once in a call and otherwise left
alone, so that what holds of all of them in one call holds of a whole run.
-/

namespace GraphBench

namespace Driver

/-- The generators and the counter behind a call: each generator is as it was, or it has been asked once, and the
counter goes with the source. -/
structure MovesTo (driver : Driver) (ids : IdCounter) (behind : Driver) (ids' : IdCounter) : Prop where
  scan : behind.scanLength = driver.scanLength
  source : behind.source = driver.source ∧ ids' = ids ∨
    behind.source = (driver.source.next ids).source ∧ ids' = (driver.source.next ids).ids
  transactions : ∀ run, driver.transactions = some run → ∃ run', behind.transactions = some run' ∧
    (run'.order = run.order ∨ run'.order = run.order.next.order) ∧
    (run'.chooser = run.chooser ∨ run'.chooser = (run.chooser.choose ids driver.source.component?).chooser)

/-- Whatever a call takes, each generator is asked once at most. -/
theorem movesTo_take (driver : Driver) (ids : IdCounter) (call : DriverCall) :
    driver.MovesTo ids (driver.take ids call).driver (driver.take ids call).ids := by
  cases call with
  | insert => exact ⟨rfl, .inr ⟨rfl, rfl⟩, fun run hrun => ⟨run, hrun, .inl rfl, .inl rfl⟩⟩
  | transact =>
    have hsame {run run' : TransactionSource} (hrun : driver.transactions = some run)
        (hrun' : driver.transactions = some run') : run' = run := Option.some.inj (hrun'.symm.trans hrun)
    refine driver.take_transact_cases ids ?_ ?_ ?_ ?_
    · intro hnone
      refine ⟨rfl, .inl ⟨rfl, rfl⟩, ?_⟩
      intro run hrun
      cases hnone.symm.trans hrun
    · intro run hrun
      refine ⟨rfl, .inl ⟨rfl, rfl⟩, ?_⟩
      intro run' hrun'
      obtain rfl := hsame hrun hrun'
      exact ⟨_, rfl, .inr rfl, .inl rfl⟩
    · intro run hrun
      refine ⟨rfl, .inr ⟨rfl, rfl⟩, ?_⟩
      intro run' hrun'
      obtain rfl := hsame hrun hrun'
      exact ⟨_, rfl, .inr rfl, .inl rfl⟩
    · intro run op hrun hinsert
      refine ⟨rfl, .inl ⟨rfl, rfl⟩, ?_⟩
      intro run' hrun'
      obtain rfl := hsame hrun hrun'
      exact ⟨_, rfl, .inr rfl, .inr rfl⟩

/-- A property that a driver and its counter keep whatever is taken and counted. -/
structure Lasting (P : Driver → IdCounter → Prop) : Prop where
  moves : ∀ {driver behind ids ids'}, driver.MovesTo ids behind ids' → P driver ids → P behind ids'
  counts : ∀ {driver ids} stats, P driver ids → P { driver with stats := stats } ids

end Driver

namespace DriverSession

variable {δ : Type} [Database δ] {s : DriverSession δ} {P : Driver → IdCounter → Prop}

theorem perform_of_lasting (hP : Driver.Lasting P) {call : DriverCall}
    (h : P (s.taken call).driver (s.taken call).ids) :
    P (s.perform call).2.2.driver (s.perform call).2.2.workspace.ids := by
  rw [s.perform_eq call]
  exact hP.counts _ h

theorem after_of_lasting (hP : Driver.Lasting P) (h : P s.driver s.workspace.ids) (calls : List DriverCall) :
    P (s.after calls).driver (s.after calls).workspace.ids := by
  induction calls generalizing s with
  | nil => exact h
  | cons call rest ih =>
    apply ih
    apply perform_of_lasting hP
    exact hP.moves (s.driver.movesTo_take s.workspace.ids call) h

end DriverSession

end GraphBench
