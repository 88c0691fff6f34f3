import GraphBench.Proofs.Disk.Replaced
import GraphBench.Proofs.Driver.Exhaustion

/-!
An operation order on its own. What a recording order has drawn is repeated from its trace, as far as whole lines are
left of it; the mix and the stream play no part in that.
-/

namespace GraphBench

namespace OperationOrder

def after (order : OperationOrder) : Nat → OperationOrder
  | 0 => order
  | count + 1 => (order.after count).next.order

def given (order : OperationOrder) (count : Nat) : List Operation :=
  (List.range count).filterMap fun i => (order.after i).next.operation

def lines (order : OperationOrder) : Nat → List TraceLine
  | 0 => []
  | count + 1 => order.lines count ++ (order.after count).next.lines

theorem given_succ (order : OperationOrder) (count : Nat) :
    order.given (count + 1) = order.given count ++ (order.after count).next.operation.toList := by
  rw [given, List.range_succ, List.filterMap_append]
  cases h : (order.after count).next.operation <;> simp [given, h]

/-- An order remembers the result of the call before. -/
theorem last_next (order : OperationOrder) : order.next.order.last = order.next.operation := by
  cases order <;> rfl

end OperationOrder

namespace OrderRecorder

variable (o : OrderRecorder)

theorem after_recorder (count : Nat) :
    ∃ o', (OperationOrder.recorder o).after count = .recorder o' ∧ o'.file = o.file := by
  induction count with
  | zero => exact ⟨o, rfl, rfl⟩
  | succ count ih =>
    obtain ⟨o', hafter, hfile⟩ := ih
    rw [OperationOrder.after, hafter]
    exact ⟨_, rfl, hfile⟩

/-- Every call draws an operation and writes its label. -/
theorem next_after (count : Nat) :
    ∃ op, ((OperationOrder.recorder o).after count).next.operation = some op ∧
      ((OperationOrder.recorder o).after count).next.lines = [⟨o.file, op.label⟩] := by
  obtain ⟨o', hafter, hfile⟩ := o.after_recorder count
  rw [hafter, ← hfile]
  exact ⟨_, rfl, rfl⟩

@[simp]
theorem length_given (count : Nat) : ((OperationOrder.recorder o).given count).length = count := by
  induction count with
  | zero => rfl
  | succ count ih =>
    obtain ⟨op, hop, -⟩ := o.next_after count
    rw [OperationOrder.given_succ, hop, List.length_append, ih]
    rfl

/-- The first of some given operations are those of fewer calls. -/
theorem getElem?_given {count i : Nat} (h : i < count) :
    ((OperationOrder.recorder o).given count)[i]? = ((OperationOrder.recorder o).after i).next.operation := by
  induction count with
  | zero => exact absurd h (Nat.not_lt_zero i)
  | succ count ih =>
    rw [OperationOrder.given_succ]
    rcases Nat.lt_succ_iff_lt_or_eq.1 h with hlt | rfl
    · rw [List.getElem?_append_left (by rw [o.length_given]; exact hlt), ih hlt]
    · have hlength := o.length_given i
      obtain ⟨op, hop, -⟩ := o.next_after i
      rw [List.getElem?_append_right (Nat.le_of_eq hlength), hlength, Nat.sub_self, hop]
      rfl

theorem lines_eq (count : Nat) :
    (OperationOrder.recorder o).lines count =
      ((OperationOrder.recorder o).given count).map fun op => ⟨o.file, op.label⟩ := by
  induction count with
  | zero => rfl
  | succ count ih =>
    obtain ⟨op, hop, hlines⟩ := o.next_after count
    rw [OperationOrder.lines, ih, hlines, OperationOrder.given_succ, hop, List.map_append]
    rfl

end OrderRecorder

namespace OrderReplayer

variable (r : OrderReplayer)

/-- A replay works through what it had before it. -/
theorem after_replayer (count : Nat) :
    ∃ r', (OperationOrder.replayer r).after count = .replayer r' ∧ r'.pending = r.pending.drop count := by
  induction count with
  | zero => exact ⟨r, rfl, rfl⟩
  | succ count ih =>
    obtain ⟨r', hafter, hpending⟩ := ih
    rw [OperationOrder.after, hafter]
    refine ⟨_, rfl, ?_⟩
    change r'.pending.tail = _
    rw [hpending, List.tail_drop]

theorem next_after (count : Nat) :
    ((OperationOrder.replayer r).after count).next.operation = r.pending[count]? := by
  obtain ⟨r', hafter, hpending⟩ := r.after_replayer count
  rw [hafter]
  change r'.pending.head? = _
  rw [hpending, List.head?_drop]

theorem given_eq (count : Nat) : (OperationOrder.replayer r).given count = r.pending.take count := by
  induction count with
  | zero => rfl
  | succ count ih => rw [OperationOrder.given_succ, ih, r.next_after, List.take_add_one]

/-- Given operations are no longer left. -/
theorem remaining_add_given (count : Nat) :
    ∃ r', (OperationOrder.replayer r).after count = .replayer r' ∧
      r'.remaining + ((OperationOrder.replayer r).given count).length = r.remaining := by
  obtain ⟨r', hafter, hpending⟩ := r.after_replayer count
  refine ⟨r', hafter, ?_⟩
  rw [remaining, hpending, r.given_eq, remaining, List.length_drop, List.length_take]
  omega

end OrderReplayer

/-- A recorded order can be opened again however much of its trace has been cut off. An order that starts without a
trace draws an operation in each call and writes its label. When bytes have been cut from the end of the trace behind
`n` calls, an order that is opened on what is left, with whatever mix and stream, gives the first `k` of these
operations, which are those whose lines have kept all their bytes with the newline, and none from then on. Each order
remembers the result of its last call, and what a replay has given and what remains of it add up to the same number
throughout. -/
theorem order_reopens_after_any_cut {disk : Disk} {directory : Path} {folder : Location}
    (h : disk.HasFolder directory folder) (hnone : disk.entryAt? (folder ++ [operationsName]) = none)
    {mix : OperationMix} {weights : WeightedChoice} (hweights : mix.distribution = .ok weights) (stream : Generator) :
    ∃ o made, OperationOrder.openIn directory mix stream disk = .ok (.recorder o) made ∧
      ∀ n dropped,
        let recorded := OperationOrder.recorder o
        let written := made.addLines (recorded.lines n)
        let left := (written.bytes o.file.number).size - dropped
        let cut := written.cutEnd o.file.number dropped
        (recorded.given n).length = n ∧
          (∀ i, (recorded.after (i + 1)).last = (recorded.after i).next.operation) ∧
          ∃ k ≤ n, (∀ i ≤ n, i ≤ k ↔ ((recorded.lines i).flatMap TraceLine.writes).length ≤ left) ∧
            ∃ r, OrderReplayer.ofFiles directory cut = .ok r cut ∧
              (∀ otherMix otherStream, OperationOrder.openIn directory otherMix otherStream cut = .ok (.replayer r) cut) ∧
              let replayed := OperationOrder.replayer r
              (∀ i < k, (replayed.after i).next.operation = (recorded.after i).next.operation) ∧
                (∀ i, k ≤ i → (replayed.after i).next.operation = none) ∧
                (∀ i, (replayed.after (i + 1)).last = (replayed.after i).next.operation) ∧
                ∀ i, ∃ r', replayed.after i = .replayer r' ∧
                  r'.remaining + (replayed.given i).length = k := by
  obtain ⟨o, made, hopen⟩ := OperationOrder.openIn_none h hnone hweights stream
  have hfresh := OperationOrder.openIn_recorder h hopen
  refine ⟨o, made, hopen, fun n dropped => ?_⟩
  intro recorded written left cut
  have hlabels : ∀ line ∈ recorded.lines n, isVisibleText line.text ∧ line.file.number = o.file.number := by
    intro line hline
    rw [o.lines_eq] at hline
    obtain ⟨op, -, rfl⟩ := List.mem_map.1 hline
    exact ⟨op.label_visible, rfl⟩
  -- each block of lines is a single one, so that no part of a block is left
  obtain ⟨k, hk, begun, hsurvive, hwhole, hbegun⟩ := TraceLine.survivors_whole_blocks recorded.lines
    (fun count => (recorded.after count).next.lines) rfl (fun _ => rfl) left n
  obtain rfl : begun = [] := by
    rcases hbegun with hnil | ⟨hbegins, hne⟩
    · exact hnil
    · obtain ⟨op, -, hlines⟩ := o.next_after k
      rw [hlines] at hbegins hne
      rcases List.prefix_cons_iff.1 hbegins with hnil | ⟨rest, rfl, hrest⟩
      · exact hnil
      · exact absurd (by rw [List.prefix_nil.1 hrest]) hne
  have hlines : cut.HasLines folder operationsName o.file.number ((recorded.given k).map Operation.label) := by
    have htexts : (recorded.lines k).map (·.text) = (recorded.given k).map Operation.label := by
      rw [o.lines_eq, List.map_map]
      rfl
    have hcut := hfresh.operations.cutEnd (fun line hline => (hlabels line hline).1)
      (fun line hline => (hlabels line hline).2) dropped
    rw [hsurvive, List.append_nil, htexts] at hcut
    exact hcut
  have hfolder : cut.HasFolder directory folder := by
    apply h.keep
    exact (hfresh.changes.folders.trans (made.keepsFolders_addLines _)).trans (written.keepsFolders_cutEnd _ _)
  obtain ⟨hfiles, hreopen⟩ := OperationOrder.openIn_lines hfolder hlines
  refine ⟨o.length_given n, fun i => OperationOrder.last_next _, k, hk, hwhole, ⟨recorded.given k, none⟩, hfiles,
    hreopen, ?_, ?_, fun i => OperationOrder.last_next _, ?_⟩
  · intro i hi
    rw [OrderReplayer.next_after, o.getElem?_given hi]
  · intro i hi
    rw [OrderReplayer.next_after, List.getElem?_eq_none]
    rw [o.length_given]
    exact hi
  · intro i
    obtain ⟨r', hafter, hsum⟩ := OrderReplayer.remaining_add_given ⟨recorded.given k, none⟩ i
    refine ⟨r', hafter, hsum.trans ?_⟩
    exact o.length_given k

/-- Four bytes are cut from three operations, and what is left is repeated by an order with another mix. -/
theorem order_reopens_after_any_cut_of_three :
    (Disk.rootedAt []).HasFolder "." [] ∧ (Disk.rootedAt []).entryAt? ([] ++ [operationsName]) = none ∧
      ∃ weights, OperationMix.distribution ⟨0.4, 0.1, 0.3, 0.1, 0.1⟩ = .ok weights ∧
        ∃ o made r, OperationOrder.openIn "." ⟨0.4, 0.1, 0.3, 0.1, 0.1⟩ (.ofSeed 7) (Disk.rootedAt []) = .ok (.recorder o) made ∧
          ((OperationOrder.recorder o).given 3).length = 3 ∧
          let cut := (made.addLines ((OperationOrder.recorder o).lines 3)).cutEnd o.file.number 4
          OperationOrder.openIn "." .standard (.ofSeed 11) cut = .ok (.replayer r) cut ∧
            ((OperationOrder.replayer r).after 3).next.operation = none := by
  have hfolder : (Disk.rootedAt []).HasFolder "." [] := Disk.hasFolder_root
  have hnone : (Disk.rootedAt []).entryAt? ([] ++ [operationsName]) = none := by decide
  have hweights : OperationMix.distribution ⟨0.4, 0.1, 0.3, 0.1, 0.1⟩ = .ok _ := rfl
  obtain ⟨o, made, hopen, hcut⟩ := order_reopens_after_any_cut hfolder hnone hweights (.ofSeed 7)
  obtain ⟨hlength, -, k, hk, -, r, -, hreopen, -, hend, -⟩ := hcut 3 4
  exact ⟨hfolder, hnone, _, hweights, o, made, r, hopen, hlength, hreopen .standard (.ofSeed 11), hend 3 hk⟩

end GraphBench
