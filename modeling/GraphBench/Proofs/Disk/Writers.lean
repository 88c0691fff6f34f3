import GraphBench.Proofs.Dataset.Frames
import GraphBench.Proofs.Disk.Writes
import GraphBench.Writer

/-!
What writers leave behind. Of what a writer has kept and of the lines that it is given, a beginning comes to the file, and
all of it if nothing fails. A system without limit takes every line as it is. A writer that is closed has nothing else to
hand over than what it has kept.
-/

namespace GraphBench

namespace Spool

/-- Bytes have been added to a file, and no other writer keeps anything else than before. -/
structure Adds (number : Nat) (added : List UInt8) (before after : Spool) : Prop where
  disk : after.disk = before.disk.addBytes (added.map fun byte => (number, byte))
  kept : ∀ other, other ≠ number → after.kept other = before.kept other

variable {number : Nat} {added more bytes : List UInt8} {first second third : Spool}

theorem Adds.refl (number : Nat) (s : Spool) : Adds number [] s s :=
  ⟨rfl, fun _ _ => rfl⟩

theorem Adds.trans (h : Adds number added first second) (h' : Adds number more second third) :
    Adds number (added ++ more) first third := by
  refine ⟨?_, fun other hother => (h'.kept other hother).trans (h.kept other hother)⟩
  rw [h'.disk, h.disk, Disk.addBytes, Disk.addBytes, Disk.addBytes, List.map_append, List.foldl_append]

@[simp]
theorem kept_keep (s : Spool) (number : Nat) (bytes : List UInt8) : (s.keep number bytes).kept number = bytes :=
  if_pos rfl

@[simp]
theorem disk_keep (s : Spool) (number : Nat) (bytes : List UInt8) : (s.keep number bytes).disk = s.disk := rfl

@[simp]
theorem room_keep (s : Spool) (number : Nat) (bytes : List UInt8) : (s.keep number bytes).room = s.room := rfl

theorem Adds.keep (h : Adds number added first second) (bytes : List UInt8) :
    Adds number added first (second.keep number bytes) :=
  ⟨h.disk, fun other hother => (if_neg hother).trans (h.kept other hother)⟩

/-- The system takes a beginning of what it is handed, and without a limit all of it. -/
theorem hand_cases (s : Spool) (number : Nat) (bytes : List UInt8) :
    ∃ taken rest s', s.hand number bytes = (rest, s') ∧ taken ++ rest = bytes ∧ s.Adds number taken s' ∧
      s'.kept = s.kept ∧ (s.room = none → rest = [] ∧ s'.room = none) := by
  rw [hand]
  cases hroom : s.room with
  | none =>
    refine ⟨bytes, [], _, rfl, List.append_nil bytes, ⟨?_, fun _ _ => rfl⟩, rfl, fun _ => ⟨rfl, rfl⟩⟩
    exact Disk.append_eq_addBytes _ _ _
  | some room =>
    refine ⟨bytes.take room, bytes.drop room, _, rfl, List.take_append_drop room bytes, ⟨?_, fun _ _ => rfl⟩, rfl,
      fun h => by cases h⟩
    exact Disk.append_eq_addBytes _ _ _

/-- Bytes are written behind those that the writer has kept. A beginning of them all comes to the file; if nothing fails
the writer keeps the rest, and without a limit nothing fails. -/
structure AttemptsFrom (s : Spool) (number : Nat) (bytes : List UInt8) (x : Spooling Unit) (added : List UInt8) :
    Prop where
  adds : s.Adds number added (stateBehind (x s))
  beginning : added <+: s.kept number ++ bytes
  ok : ∀ s', x s = .ok () s' → added ++ s'.kept number = s.kept number ++ bytes
  unlimited : s.room = none → ∃ s', x s = .ok () s' ∧ s'.room = none

variable {s s' : Spool} {x y : Spooling Unit}

theorem attemptsFrom_ok (hrun : x s = .ok () s') (hadds : s.Adds number added s')
    (hall : added ++ s'.kept number = s.kept number ++ bytes) (hroom : s.room = none → s'.room = none) :
    s.AttemptsFrom number bytes x added := by
  refine ⟨?_, ?_, ?_, fun hnone => ⟨s', hrun, hroom hnone⟩⟩
  · rw [hrun]
    exact hadds
  · rw [← hall]
    exact List.prefix_append _ _
  · intro s'' hok
    cases hrun.symm.trans hok
    exact hall

theorem attemptsFrom_error {e : WorkloadError} (hrun : x s = .error e s') (hadds : s.Adds number added s')
    (hbeginning : added <+: s.kept number ++ bytes) (hroom : s.room ≠ none) : s.AttemptsFrom number bytes x added := by
  refine ⟨?_, hbeginning, ?_, fun hnone => absurd hnone hroom⟩
  · rw [hrun]
    exact hadds
  · intro s'' hok
    cases hrun.symm.trans hok

theorem AttemptsFrom.adds_ok (h : s.AttemptsFrom number bytes x added) (hrun : x s = .ok () s') :
    s.Adds number added s' := by
  have hadds := h.adds
  rw [hrun] at hadds
  exact hadds

theorem AttemptsFrom.adds_error (h : s.AttemptsFrom number bytes x added) {e : WorkloadError}
    (hrun : x s = .error e s') : s.Adds number added s' := by
  have hadds := h.adds
  rw [hrun] at hadds
  exact hadds

theorem AttemptsFrom.congr (h : s.AttemptsFrom number bytes x added) (hrun : y s = x s) :
    s.AttemptsFrom number bytes y added :=
  ⟨hrun ▸ h.adds, h.beginning, fun s' hok => h.ok s' (hrun.symm.trans hok), fun hnone => hrun ▸ h.unlimited hnone⟩

/-- An attempt that goes on behind one without a failure attempts the bytes of both. -/
theorem AttemptsFrom.bind (h : s.AttemptsFrom number bytes x added)
    (h' : ∀ s', x s = .ok () s' → ∃ later, s'.AttemptsFrom number more y later) :
    ∃ all, s.AttemptsFrom number (bytes ++ more) (x >>= fun _ => y) all := by
  -- behind a failure nothing more is attempted
  cases hrun : x s with
  | error e s' =>
    refine ⟨added, attemptsFrom_error (run_bind_error hrun) (h.adds_error hrun) ?_ ?_⟩
    · rw [← List.append_assoc]
      exact h.beginning.trans (List.prefix_append _ _)
    · intro hnone
      obtain ⟨s'', hok, -⟩ := h.unlimited hnone
      cases hrun.symm.trans hok
  | ok _ s' =>
    obtain ⟨later, hlater⟩ := h' s' hrun
    have hbind : (x >>= fun _ => y) s = y s' := run_bind hrun
    have hkept : added ++ s'.kept number = s.kept number ++ bytes := h.ok s' hrun
    refine ⟨added ++ later, ⟨?_, ?_, ?_, ?_⟩⟩
    · rw [hbind]
      exact (h.adds_ok hrun).trans hlater.adds
    · rw [← List.append_assoc, ← hkept, List.append_assoc]
      exact (List.prefix_append_right_inj added).2 hlater.beginning
    · intro s'' hok
      rw [hbind] at hok
      rw [List.append_assoc, hlater.ok s'' hok, ← List.append_assoc, hkept, List.append_assoc]
    · intro hnone
      obtain ⟨s₁, hok, hleft⟩ := h.unlimited hnone
      cases hrun.symm.trans hok
      rw [hbind]
      exact hlater.unlimited hleft

end Spool

namespace TraceFile

variable (file : TraceFile) {s s' : Spool}

/-- Flushing takes a beginning of what is kept, and keeps the rest. -/
theorem flush_attempts (s : Spool) : ∃ added, s.AttemptsFrom file.number [] file.flush added := by
  obtain ⟨taken, rest, left, hhand, hbytes, hadds, -, hroom⟩ := s.hand_cases file.number (s.kept file.number)
  refine ⟨taken, ?_⟩
  cases rest with
  | nil =>
    have hrun : file.flush s = .ok () (left.keep file.number []) := by rw [flush, hhand]
    apply Spool.attemptsFrom_ok hrun (hadds.keep _)
    · rw [Spool.kept_keep, hbytes, List.append_nil]
    · exact fun hnone => (hroom hnone).2
  | cons byte rest =>
    have hrun : file.flush s = .error (.unreadable file.path) (left.keep file.number (byte :: rest)) := by
      rw [flush, hhand]
    apply Spool.attemptsFrom_error hrun (hadds.keep _)
    · rw [List.append_nil, ← hbytes]
      exact List.prefix_append _ _
    · exact fun hnone => List.cons_ne_nil _ _ (hroom hnone).1

/-- A flush that does not fail leaves nothing to its writer. -/
theorem kept_of_flush {file : TraceFile} (h : file.flush s = .ok () s') : s'.kept file.number = [] := by
  rw [flush] at h
  split at h
  · cases h
    exact Spool.kept_keep _ _ _
  · cases h

/-- Past an empty buffer, a beginning of the bytes comes to the file. -/
theorem bypass_attempts {s : Spool} (hkept : s.kept file.number = []) (bytes : List UInt8) :
    ∃ added, s.AttemptsFrom file.number bytes (file.bypass bytes) added := by
  obtain ⟨taken, rest, left, hhand, hbytes, hadds, hleft, hroom⟩ := s.hand_cases file.number bytes
  refine ⟨taken, ?_⟩
  cases rest with
  | nil =>
    have hrun : file.bypass bytes s = .ok () left := by rw [bypass, hhand]
    apply Spool.attemptsFrom_ok hrun hadds
    · rw [hleft, hkept, hbytes, List.nil_append]
    · exact fun hnone => (hroom hnone).2
  | cons byte rest =>
    have hrun : file.bypass bytes s = .error (.unreadable file.path) left := by rw [bypass, hhand]
    apply Spool.attemptsFrom_error hrun hadds
    · rw [hkept, List.nil_append, ← hbytes]
      exact List.prefix_append _ _
    · exact fun hnone => List.cons_ne_nil _ _ (hroom hnone).1

theorem gather_attempts (s : Spool) (bytes : List UInt8) :
    s.AttemptsFrom file.number bytes (file.gather bytes) [] := by
  have hrun : file.gather bytes s = .ok () (s.keep file.number (s.kept file.number ++ bytes)) := rfl
  apply Spool.attemptsFrom_ok hrun
  · exact (Spool.Adds.refl file.number s).keep _
  · rw [Spool.kept_keep, List.nil_append]
  · exact id

/-- Bytes as long as the buffer come behind what has been kept, as this is handed over before. -/
theorem write_attempts (s : Spool) (bytes : List UInt8) :
    ∃ added, s.AttemptsFrom file.number bytes (file.write bytes) added := by
  let last : Spooling Unit := if bufferSize ≤ bytes.length then file.bypass bytes else file.gather bytes
  have hlast {s : Spool} (hkept : bufferSize ≤ bytes.length → s.kept file.number = []) :
      ∃ added, s.AttemptsFrom file.number bytes last added := by
    by_cases hlong : bufferSize ≤ bytes.length
    · obtain ⟨added, hadded⟩ := file.bypass_attempts (hkept hlong) bytes
      exact ⟨added, hadded.congr (by rw [show last = file.bypass bytes from if_pos hlong])⟩
    · exact ⟨[], (file.gather_attempts s bytes).congr (by rw [show last = file.gather bytes from if_neg hlong])⟩
  have hget : (get : Spooling Spool) s = .ok s s := rfl
  by_cases hfits : bufferSize - (s.kept file.number).length < bytes.length
  · have hwrite : file.write bytes s = (file.flush >>= fun _ => last) s := by
      rw [write, run_bind hget, if_pos hfits]
    obtain ⟨added, hflush⟩ := file.flush_attempts s
    obtain ⟨all, hall⟩ := hflush.bind fun s' hok => hlast fun _ => kept_of_flush hok
    exact ⟨all, hall.congr hwrite⟩
  · have hwrite : file.write bytes s = last s := by
      rw [write, run_bind hget, if_neg hfits]
    -- nothing can have been kept where that much fits in
    have hkept : bufferSize ≤ bytes.length → s.kept file.number = [] := by
      intro hlong
      apply List.eq_nil_of_length_eq_zero
      rw [bufferSize] at hlong hfits
      omega
    obtain ⟨added, hadded⟩ := hlast hkept
    exact ⟨added, hadded.congr hwrite⟩

end TraceFile

namespace TraceLine

variable {s s' : Spool}

/-- A line comes behind what its writer has kept. -/
theorem append_attempts (line : TraceLine) (s : Spool) :
    ∃ added, s.AttemptsFrom line.file.number line.bytes.data.toList line.append added := by
  have hbytes : line.bytes.data.toList = line.text.toUTF8.data.toList ++ ("\n".toUTF8.data.toList ++ []) := by
    rw [bytes, List.append_nil]
    simp only [String.toUTF8_eq_toByteArray, String.toByteArray_append, ByteArray.data_append, Array.toList_append]
  obtain ⟨first, hfirst⟩ := line.file.write_attempts s line.text.toUTF8.data.toList
  rw [hbytes]
  refine hfirst.bind fun s₁ _ => ?_
  obtain ⟨second, hsecond⟩ := line.file.write_attempts s₁ "\n".toUTF8.data.toList
  exact hsecond.bind fun s₂ _ => line.file.flush_attempts s₂

theorem kept_of_append {line : TraceLine} (h : line.append s = .ok () s') : s'.kept line.file.number = [] := by
  obtain ⟨_, s₁, -, h⟩ := run_bind_ok h
  obtain ⟨_, s₂, -, h⟩ := run_bind_ok h
  exact TraceFile.kept_of_flush h

/-- A line whose writer has kept nothing is added as it is. -/
theorem disk_of_append {line : TraceLine} (hkept : s.kept line.file.number = []) (h : line.append s = .ok () s') :
    s'.disk = s.disk.addLine line := by
  obtain ⟨added, hadded⟩ := line.append_attempts s
  have hall := hadded.ok s' h
  rw [kept_of_append h, hkept, List.append_nil, List.nil_append] at hall
  rw [(hadded.adds_ok h).disk, hall, ← Disk.append_eq_addBytes, Disk.toByteArray_toList]
  rfl

end TraceLine

namespace Spool

variable {s : Spool} {lines : List TraceLine}

/-- Of what its writer has kept and of its lines a beginning comes to a file: nothing without any line, and all of it when
no line fails. -/
structure Spools (s : Spool) (number : Nat) (lines : List TraceLine) (added : List UInt8) (result : Nat × Spool) :
    Prop where
  beginning : added <+: s.kept number ++ written number (lines.flatMap TraceLine.writes)
  idle : TraceLine.textsOf number lines = [] → added = [] ∧ result.2.kept number = s.kept number
  whole : result.1 = lines.length → TraceLine.textsOf number lines ≠ [] →
    added = s.kept number ++ written number (lines.flatMap TraceLine.writes) ∧ result.2.kept number = []

variable {line : TraceLine} {rest : List TraceLine} {s' : Spool} {added : List UInt8}

/-- A line that fails is the last one that anything is written of. -/
theorem spools_of_error {e : WorkloadError} (hrun : line.append s = .error e s')
    (h : s.AttemptsFrom line.file.number line.bytes.data.toList line.append added) (number : Nat) :
    s.Spools number (line :: rest) (written number (added.map fun byte => (line.file.number, byte))) (0, s') := by
  rw [written_tagged]
  by_cases hnumber : line.file.number = number
  · subst hnumber
    refine ⟨?_, fun hnil => ?_, fun hcount => by cases hcount⟩
    · rw [if_pos rfl, List.flatMap_cons, written_append, TraceLine.written_writes_self, ← List.append_assoc]
      exact h.beginning.trans (List.prefix_append _ _)
    · rw [TraceLine.textsOf_cons, if_pos rfl] at hnil
      cases hnil
  · rw [if_neg hnumber]
    exact ⟨List.nil_prefix, fun _ => ⟨rfl, (h.adds_error hrun).kept number (Ne.symm hnumber)⟩, fun hcount => by cases hcount⟩

/-- Behind a line that has been appended, nothing is kept for its file. -/
theorem spools_of_ok (hrun : line.append s = .ok () s')
    (h : s.AttemptsFrom line.file.number line.bytes.data.toList line.append added) {number : Nat}
    {later : List UInt8} {result : Nat × Spool} (hlater : s'.Spools number rest later result) :
    s.Spools number (line :: rest) (written number (added.map fun byte => (line.file.number, byte)) ++ later)
      (result.1 + 1, result.2) := by
  rw [written_tagged]
  -- the line is one of the file, which then has all its bytes, or the file gets nothing from it
  by_cases hnumber : line.file.number = number
  · subst hnumber
    have hkept := TraceLine.kept_of_append hrun
    have hall : added = s.kept line.file.number ++ line.bytes.data.toList := by
      rw [← h.ok s' hrun, hkept, List.append_nil]
    have hbytes : s.kept line.file.number ++ written line.file.number ((line :: rest).flatMap TraceLine.writes) =
        added ++ written line.file.number (rest.flatMap TraceLine.writes) := by
      rw [List.flatMap_cons, written_append, TraceLine.written_writes_self, ← List.append_assoc, hall]
    have hbeginning := hlater.beginning
    rw [hkept, List.nil_append] at hbeginning
    rw [if_pos rfl]
    refine ⟨?_, fun hnil => ?_, fun hcount _ => ?_⟩
    · rw [hbytes]
      exact (List.prefix_append_right_inj added).2 hbeginning
    · rw [TraceLine.textsOf_cons, if_pos rfl] at hnil
      cases hnil
    · rw [hbytes]
      by_cases hnil : TraceLine.textsOf line.file.number rest = []
      · obtain ⟨rfl, hsame⟩ := hlater.idle hnil
        rw [written_writes, hnil, hsame, hkept]
        exact ⟨rfl, rfl⟩
      · obtain ⟨rfl, hleft⟩ := hlater.whole (Nat.succ.inj hcount) hnil
        rw [hkept]
        exact ⟨rfl, hleft⟩
  · have hsame := (h.adds_ok hrun).kept number (Ne.symm hnumber)
    have hbytes : written number ((line :: rest).flatMap TraceLine.writes) =
        written number (rest.flatMap TraceLine.writes) := by
      rw [List.flatMap_cons, written_append, TraceLine.written_writes_of_ne hnumber, List.nil_append]
    have htexts : TraceLine.textsOf number (line :: rest) = TraceLine.textsOf number rest := by
      rw [TraceLine.textsOf_cons, if_neg hnumber]
    rw [if_neg hnumber, List.nil_append]
    refine ⟨?_, ?_, ?_⟩
    · rw [hbytes, ← hsame]
      exact hlater.beginning
    · rw [htexts, ← hsame]
      exact hlater.idle
    · rw [htexts, hbytes, ← hsame]
      exact fun hcount => hlater.whole (Nat.succ.inj hcount)

/-- Lines are appended in their order, up to the first one that fails. -/
theorem appendLines_spec (s : Spool) (lines : List TraceLine) :
    ∃ writes, (s.appendLines lines).2.disk = s.disk.addBytes writes ∧
      ∀ number, s.Spools number lines (written number writes) (s.appendLines lines) := by
  induction lines generalizing s with
  | nil => exact ⟨[], rfl, fun number => ⟨List.nil_prefix, fun _ => ⟨rfl, rfl⟩, fun _ hne => absurd rfl hne⟩⟩
  | cons line rest ih =>
    obtain ⟨added, hadded⟩ := line.append_attempts s
    cases hrun : line.append s with
    | error e s' =>
      rw [appendLines, hrun]
      exact ⟨_, (hadded.adds_error hrun).disk, fun number => spools_of_error hrun hadded number⟩
    | ok _ s' =>
      obtain ⟨writes, hdisk, hrest⟩ := ih s'
      rw [appendLines, hrun]
      refine ⟨(added.map fun byte => (line.file.number, byte)) ++ writes, ?_, fun number => ?_⟩
      · change (s'.appendLines rest).2.disk = _
        rw [hdisk, (hadded.adds_ok hrun).disk, Disk.addBytes, Disk.addBytes, Disk.addBytes, List.foldl_append]
      · rw [written_append]
        exact spools_of_ok hrun hadded (hrest number)

/-- A beginning of what its writer has kept comes to a file that is closed, and nothing to the other files. -/
structure Closes (s : Spool) (number : Nat) (files : List TraceFile) (added : List UInt8) (left : Spool) : Prop where
  beginning : added <+: s.kept number
  others : (∀ file ∈ files, file.number ≠ number) → added = [] ∧ left.kept number = s.kept number
  closed : (∃ file ∈ files, file.number = number) → left.kept number = []
  whole : s.room = none → added ++ left.kept number = s.kept number

/-- A closed writer has handed over a beginning of what it kept, and all of it without a limit. -/
theorem close_adds (file : TraceFile) (s : Spool) :
    ∃ added, s.Adds file.number added (file.close s) ∧ added <+: s.kept file.number ∧
      (s.room = none → added = s.kept file.number ∧ (file.close s).room = none) := by
  obtain ⟨taken, rest, left, hhand, hbytes, hadds, -, hroom⟩ := s.hand_cases file.number (s.kept file.number)
  have hclose : file.close s = left.keep file.number [] := by rw [TraceFile.close, hhand]
  rw [hclose]
  refine ⟨taken, hadds.keep _, ?_, fun hnone => ?_⟩
  · rw [← hbytes]
    exact List.prefix_append _ _
  · obtain ⟨rfl, hleft⟩ := hroom hnone
    rw [← hbytes, List.append_nil]
    exact ⟨rfl, hleft⟩

section Closing

variable {file : TraceFile} {files : List TraceFile} {later : List UInt8} {left : Spool}

/-- What is closed now keeps nothing for the files that are closed behind it. -/
theorem closes_self (hbeginning : added <+: s.kept file.number)
    (hroom : s.room = none → added = s.kept file.number)
    (hlater : (file.close s).Closes file.number files later left) :
    s.Closes file.number (file :: files) (added ++ later) left := by
  have hclosed : (file.close s).kept file.number = [] := kept_keep _ _ _
  have hnothing : later = [] := by
    have hbehind := hlater.beginning
    rw [hclosed] at hbehind
    exact List.prefix_nil.1 hbehind
  have hleft : left.kept file.number = [] := by
    by_cases hmem : ∃ other ∈ files, other.number = file.number
    · exact hlater.closed hmem
    · rw [(hlater.others fun other hother heq => hmem ⟨other, hother, heq⟩).2, hclosed]
  rw [hnothing, List.append_nil]
  refine ⟨hbeginning, fun hothers => absurd rfl (hothers file List.mem_cons_self), fun _ => hleft, fun hnone => ?_⟩
  rw [hleft, List.append_nil]
  exact hroom hnone

/-- Closing a file leaves the others to those that are closed behind it. -/
theorem closes_of_ne {number : Nat} (hnumber : file.number ≠ number)
    (hsame : (file.close s).kept number = s.kept number) (hroom : s.room = none → (file.close s).room = none)
    (hlater : (file.close s).Closes number files later left) : s.Closes number (file :: files) later left := by
  refine ⟨hsame ▸ hlater.beginning, fun hothers => ?_, ?_, fun hnone => ?_⟩
  · rw [← hsame]
    exact hlater.others fun other hother => hothers other (List.mem_cons_of_mem _ hother)
  · rintro ⟨other, hother, heq⟩
    rcases List.mem_cons.1 hother with rfl | hother
    · exact absurd heq hnumber
    · exact hlater.closed ⟨other, hother, heq⟩
  · rw [← hsame]
    exact hlater.whole (hroom hnone)

end Closing

/-- Files are closed one after the other. What has been closed once keeps nothing for the next time. -/
theorem closeAll_spec (s : Spool) (files : List TraceFile) :
    ∃ writes, (s.closeAll files).disk = s.disk.addBytes writes ∧
      ∀ number, s.Closes number files (written number writes) (s.closeAll files) := by
  induction files generalizing s with
  | nil =>
    refine ⟨[], rfl, fun number => ⟨List.nil_prefix, fun _ => ⟨rfl, rfl⟩, ?_, fun _ => rfl⟩⟩
    rintro ⟨file, hfile, -⟩
    exact absurd hfile List.not_mem_nil
  | cons file rest ih =>
    obtain ⟨added, hadds, hbeginning, hroom⟩ := s.close_adds file
    obtain ⟨writes, hdisk, hrest⟩ := ih (file.close s)
    refine ⟨(added.map fun byte => (file.number, byte)) ++ writes, ?_, fun number => ?_⟩
    · change ((file.close s).closeAll rest).disk = _
      rw [hdisk, hadds.disk, Disk.addBytes, Disk.addBytes, Disk.addBytes, List.foldl_append]
    · rw [written_append, written_tagged]
      by_cases hnumber : file.number = number
      · subst hnumber
        rw [if_pos rfl]
        exact closes_self hbeginning (fun hnone => (hroom hnone).1) (hrest file.number)
      · rw [if_neg hnumber, List.nil_append]
        exact closes_of_ne hnumber (hadds.kept number (Ne.symm hnumber)) (fun hnone => (hroom hnone).2) (hrest number)

/-- A system without limit takes all lines. -/
theorem length_appendLines (hroom : s.room = none) (lines : List TraceLine) :
    (s.appendLines lines).1 = lines.length := by
  induction lines generalizing s with
  | nil => rfl
  | cons line rest ih =>
    obtain ⟨added, hadded⟩ := line.append_attempts s
    obtain ⟨s', hrun, hroom'⟩ := hadded.unlimited hroom
    rw [appendLines, hrun]
    exact congrArg (· + 1) (ih hroom')

/-- Lines that are all appended are added as they are, if their writers had kept nothing before. -/
theorem disk_appendLines (hcount : (s.appendLines lines).1 = lines.length)
    (hkept : ∀ line ∈ lines, s.kept line.file.number = []) : (s.appendLines lines).2.disk = s.disk.addLines lines := by
  induction lines generalizing s with
  | nil => rfl
  | cons line rest ih =>
    obtain ⟨added, hadded⟩ := line.append_attempts s
    cases hrun : line.append s with
    | error e s' =>
      rw [appendLines, hrun] at hcount
      cases hcount
    | ok _ s' =>
      rw [appendLines, hrun] at hcount ⊢
      have hstill : ∀ other ∈ rest, s'.kept other.file.number = [] := by
        intro other hother
        by_cases hsame : other.file.number = line.file.number
        · rw [hsame]
          exact TraceLine.kept_of_append hrun
        · rw [(hadded.adds_ok hrun).kept _ hsame]
          exact hkept other (List.mem_cons_of_mem _ hother)
      change (s'.appendLines rest).2.disk = _
      rw [ih (Nat.succ.inj hcount) hstill, TraceLine.disk_of_append (hkept line List.mem_cons_self) hrun]
      rfl

end Spool

end GraphBench
