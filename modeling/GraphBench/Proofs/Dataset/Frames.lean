import GraphBench.Chooser
import GraphBench.OperationOrder
import GraphBench.Proofs.Dataset.Modes
import GraphBench.Source.Replayer

/-!
What a computation may change, whether it fails or not. A frame says how the states before and behind are related; the
parts of a sequence may each change the state as the frame allows. Reading changes nothing on the disk.
-/

namespace GraphBench

/-- The state that a computation leaves, also when it fails. -/
def stateBehind {ε σ α : Type} : EStateM.Result ε σ α → σ
  | .ok _ s => s
  | .error _ s => s

/-- A sequence fails with its first part or with what comes behind it. -/
theorem run_bind_failed {ε σ α β : Type} {x : EStateM ε σ α} {f : α → EStateM ε σ β} {s s'' : σ} {e : ε}
    (h : (x >>= f) s = .error e s'') : x s = .error e s'' ∨ ∃ a s', x s = .ok a s' ∧ f a s' = .error e s'' := by
  cases hx : x s with
  | ok a s' =>
    rw [run_bind hx] at h
    exact .inr ⟨a, s', rfl, h⟩
  | error e' s' =>
    rw [run_bind_error hx] at h
    cases h
    exact .inl rfl

theorem run_lift_failed {α : Type} {x : OnDisk α} {w w' : Workspace} {e : WorkloadError}
    (h : (liftM x : Opening α) w = .error e w') : x w.disk = .error e w'.disk := by
  change OnDisk.lift x w = _ at h
  rw [OnDisk.lift] at h
  cases hx : x w.disk with
  | ok a disk =>
    rw [hx] at h
    cases h
  | error e disk =>
    rw [hx] at h
    cases h
    rfl

/-- A change of state that may be made in several steps, or not at all. -/
structure Frame (σ : Type) where
  allows : σ → σ → Prop
  refl : ∀ s, allows s s
  trans : ∀ {s s' s''}, allows s s' → allows s' s'' → allows s s''

namespace Frame

variable {ε σ α β : Type}

def unchanged (σ : Type) : Frame σ where
  allows s s' := s' = s
  refl _ := rfl
  trans h h' := h'.trans h

/-- A change of a disk, as that of the workspace with this disk. -/
def onDisk (frame : Frame Disk) : Frame Workspace where
  allows w w' := frame.allows w.disk w'.disk
  refl w := frame.refl w.disk
  trans h h' := frame.trans h h'

/-- A computation makes only such changes. -/
def Covers (frame : Frame σ) (x : EStateM ε σ α) : Prop :=
  ∀ s, frame.allows s (stateBehind (x s))

variable {frame : Frame σ} {x : EStateM ε σ α}

theorem covers_pure (frame : Frame σ) (a : α) : frame.Covers (pure a : EStateM ε σ α) :=
  frame.refl

theorem covers_throw (frame : Frame σ) (e : ε) : frame.Covers (throw e : EStateM ε σ α) :=
  frame.refl

theorem covers_get (frame : Frame σ) : frame.Covers (get : EStateM ε σ σ) :=
  frame.refl

/-- Changes that a frame covers may follow each other. -/
theorem Covers.bind {f : α → EStateM ε σ β} (hx : frame.Covers x) (hf : ∀ a, frame.Covers (f a)) :
    frame.Covers (x >>= f) := by
  intro s
  have hfirst := hx s
  cases hrun : x s with
  | ok a s' =>
    rw [hrun] at hfirst
    rw [run_bind hrun]
    exact frame.trans hfirst (hf a s')
  | error e s' =>
    rw [hrun] at hfirst
    rw [run_bind_error hrun]
    exact hfirst

theorem Covers.of_ok (h : frame.Covers x) {s s' : σ} {a : α} (hok : x s = .ok a s') : frame.allows s s' := by
  have hallows := h s
  rw [hok] at hallows
  exact hallows

theorem Covers.of_error (h : frame.Covers x) {s s' : σ} {e : ε} (herror : x s = .error e s') : frame.allows s s' := by
  have hallows := h s
  rw [herror] at hallows
  exact hallows

/-- What changes nothing is covered by every frame. -/
theorem Covers.of_unchanged (h : (unchanged σ).Covers x) (frame : Frame σ) : frame.Covers x := by
  intro s
  have hsame : stateBehind (x s) = s := h s
  rw [hsame]
  exact frame.refl s

/-- What leaves the disk alone is covered by every change of the disk. -/
theorem Covers.of_unchanged_disk {x : Opening α} (h : (unchanged Disk).onDisk.Covers x) (frame : Frame Disk) :
    frame.onDisk.Covers x := by
  intro w
  have hsame : (stateBehind (x w)).disk = w.disk := h w
  change frame.allows w.disk (stateBehind (x w)).disk
  rw [hsame]
  exact frame.refl w.disk

theorem Covers.lift {frame : Frame Disk} {x : OnDisk α} (h : frame.Covers x) :
    frame.onDisk.Covers (liftM x : Opening α) := by
  intro w
  have hdisk := h w.disk
  cases hrun : x w.disk with
  | ok a disk =>
    rw [hrun] at hdisk
    rw [run_lift hrun]
    exact hdisk
  | error e disk =>
    rw [hrun] at hdisk
    rw [run_lift_error hrun]
    exact hdisk

/-! A frame that covers the removal of some files covers whatever removes no others. -/

section
variable {frame : Frame Disk} {directory : Path} {files : List Path}

theorem covers_removePresent {marked : List (Path × Bool)} (h : ∀ file ∈ marked, frame.Covers (removeFile file.1)) :
    frame.Covers (removePresent marked) := by
  induction marked with
  | nil => exact covers_pure _ _
  | cons file rest ih =>
    have hrest := ih fun other hother => h other (List.mem_cons_of_mem _ hother)
    obtain ⟨path, present⟩ := file
    cases present with
    | false => exact hrest
    | true => exact (h _ List.mem_cons_self).bind fun _ => hrest

theorem covers_removeExisting (h : ∀ file ∈ files, frame.Covers (removeFile file)) :
    frame.Covers (removeExisting files) := by
  induction files with
  | nil => exact covers_pure _ _
  | cons file rest ih =>
    have hrest := ih fun other hother => h other (List.mem_cons_of_mem _ hother)
    apply (covers_get _).bind
    intro disk
    split
    · exact (h file List.mem_cons_self).bind fun _ => hrest
    · exact hrest

theorem covers_resolveMode (hensure : frame.Covers (ensureDirectory directory))
    (h : ∀ file ∈ files, frame.Covers (removeFile file)) : frame.Covers (resolveMode directory files) := by
  apply hensure.bind
  intro _
  apply (covers_get _).bind
  intro disk
  simp only
  split
  · exact covers_pure _ _
  · exact covers_pure _ _
  · apply (covers_removePresent _).bind fun _ => covers_pure _ _
    exact fun file hfile => h file.1 (List.of_mem_zip hfile).1

theorem covers_completeOrDiscard (h : ∀ file ∈ files, frame.Covers (removeFile file)) :
    frame.Covers (completeOrDiscard files) := by
  apply (covers_get _).bind
  intro disk
  split
  · exact covers_pure _ _
  · exact covers_pure _ _
  · exact (covers_removeExisting h).bind fun _ => covers_pure _ _

end

end Frame

/-- A computation that leaves the disk as it is, whether it fails or not. -/
def OnDisk.Reads {α : Type} (x : OnDisk α) : Prop :=
  (Frame.unchanged Disk).Covers x

theorem readLines_reads (path : Path) : (readLines path).Reads := by
  intro disk
  rw [readLines]
  cases disk.readText? path <;> rfl

theorem readNumbers_reads (path : Path) : (readNumbers path).Reads :=
  (readLines_reads path).bind fun _ => Frame.covers_pure _ _

theorem refuse_reads {α : Type} (checked : Except IntegrityFault α) : (refuse checked).Reads := by
  cases checked with
  | ok a => exact Frame.covers_pure _ a
  | error fault => exact Frame.covers_throw _ _

section
variable (directory : Path)

theorem readComponents_reads (phase : Phase) : (readComponents directory phase).Reads := by
  have hnodes : (readNodes directory phase).Reads :=
    (readLines_reads _).bind fun _ => Frame.covers_pure _ _
  have hedges : (readEdges directory phase).Reads :=
    (readLines_reads _).bind fun _ => Frame.covers_pure _ _
  exact hnodes.bind fun _ => hedges.bind fun _ => Frame.covers_pure _ _

theorem readBaseline_reads : (readBaseline directory).Reads := by
  apply (readComponents_reads directory .load).bind
  intro components
  exact (refuse_reads _).bind fun _ => Frame.covers_pure _ _

theorem ChoiceReplayer.ofFiles_reads : (ChoiceReplayer.ofFiles directory).Reads := by
  apply (readNumbers_reads _).bind
  intro kinds
  apply (readNumbers_reads _).bind
  intro nodeIds
  exact (readNumbers_reads _).bind fun _ => Frame.covers_pure _ _

theorem OrderReplayer.ofFiles_reads : (OrderReplayer.ofFiles directory).Reads :=
  (readLines_reads _).bind fun _ => Frame.covers_pure _ _

theorem Replayer.ofFiles_reads (phase : Phase) :
    (Frame.unchanged Disk).onDisk.Covers (ofFiles directory phase) := by
  have hmerge : (Frame.unchanged Disk).onDisk.Covers (mergeBaseline directory) := by
    apply (Frame.covers_get _).bind
    intro w
    simp only
    split
    · apply (readBaseline_reads directory).lift.bind
      intro components
      -- the counter is no part of the disk
      exact fun w => rfl
    · exact Frame.covers_pure _ _
  apply (readComponents_reads directory phase).lift.bind
  intro components
  cases phase with
  | load => exact Frame.covers_pure _ _
  | run => exact hmerge.bind fun _ => Frame.covers_pure _ _

end

end GraphBench
