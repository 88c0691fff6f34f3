import GraphBench.Proofs.Driver.Generators

/-!
A chooser on its own. Every choice writes its kind to one file and its id to one of two others; what a cut leaves of
the three is repeated choice by choice, whatever the counter has come to in the meantime.
-/

namespace GraphBench

/-- What a call of a chooser sees: the ids issued so far, and the components that can be found. -/
structure ChoiceCall where
  ids : IdCounter
  resolve : Resolver

namespace Chooser

def perform (chooser : Chooser) (call : ChoiceCall) : Step :=
  chooser.choose call.ids call.resolve

def after : Chooser → List ChoiceCall → Chooser
  | chooser, [] => chooser
  | chooser, call :: rest => (chooser.perform call).chooser.after rest

def choices : Chooser → List ChoiceCall → List (Option Component)
  | _, [] => []
  | chooser, call :: rest => (chooser.perform call).choice :: (chooser.perform call).chooser.choices rest

def lines : Chooser → List ChoiceCall → List TraceLine
  | _, [] => []
  | chooser, call :: rest => (chooser.perform call).lines ++ (chooser.perform call).chooser.lines rest

def drawn : Chooser → List ChoiceCall → List Draw
  | _, [] => []
  | chooser, call :: rest => chooser.draws call.ids ++ (chooser.perform call).chooser.drawn rest

theorem lines_append (chooser : Chooser) (first second : List ChoiceCall) :
    chooser.lines (first ++ second) = chooser.lines first ++ (chooser.after first).lines second := by
  induction first generalizing chooser with
  | nil => rfl
  | cons call rest ih =>
    rw [List.cons_append, lines, ih, lines, List.append_assoc]
    rfl

end Chooser

/-- The share that one file has in what is written line by line. -/
theorem TraceLine.textsOf_filterMap {α β : Type} {line? : α → Option TraceLine} {share? : α → Option β}
    {text : β → String} {number : Nat}
    (h : ∀ a, textsOf number (line? a).toList = ((share? a).map text).toList) (l : List α) :
    textsOf number (l.filterMap line?) = (l.filterMap share?).map text := by
  induction l with
  | nil => rfl
  | cons a l ih =>
    have hline : (a :: l).filterMap line? = (line? a).toList ++ l.filterMap line? := by
      cases hline : line? a <;> simp [hline]
    have hshare : (a :: l).filterMap share? = (share? a).toList ++ l.filterMap share? := by
      cases hshare : share? a <;> simp [hshare]
    rw [hline, hshare, textsOf_append, ih, h, List.map_append, Option.toList_map]

namespace ChoiceRecorder

variable {c : ChoiceRecorder}

/-- The line by which a recorder keeps a draw. -/
def line? (c : ChoiceRecorder) : Draw → Option TraceLine
  | .kind bit => some ⟨c.kindFile, Decimal.ofUInt64 bit⟩
  | .componentId kind id => some ⟨c.idFile kind, Decimal.ofUInt64 id⟩
  | _ => none

/-- A choice behind which the recorder goes on with the same three files. -/
theorem perform_recorder (c : ChoiceRecorder) (call : ChoiceCall) :
    ∃ c', (Chooser.recorder c).perform call = ⟨call.resolve c.kind (c.idDraw call.ids).1, .recorder c',
        (c.draws call.ids).filterMap c.line?⟩ ∧ c'.line? = c.line? := by
  obtain ⟨c', hchoose, hkindFile, hidFile⟩ := c.choose_draws call.ids call.resolve
  refine ⟨c', hchoose, ?_⟩
  funext draw
  cases draw <;> simp only [line?, hkindFile, hidFile]

theorem after_recorder (c : ChoiceRecorder) (calls : List ChoiceCall) :
    ∃ c', (Chooser.recorder c).after calls = .recorder c' ∧ c'.line? = c.line? := by
  induction calls generalizing c with
  | nil => exact ⟨c, rfl, rfl⟩
  | cons call rest ih =>
    obtain ⟨c', hperform, hline⟩ := c.perform_recorder call
    obtain ⟨c'', hafter, hline'⟩ := ih c'
    refine ⟨c'', ?_, hline'.trans hline⟩
    rw [Chooser.after, hperform]
    exact hafter

theorem lines_recorder (c : ChoiceRecorder) (calls : List ChoiceCall) :
    (Chooser.recorder c).lines calls = ((Chooser.recorder c).drawn calls).filterMap c.line? := by
  induction calls generalizing c with
  | nil => rfl
  | cons call rest ih =>
    obtain ⟨c', hperform, hline⟩ := c.perform_recorder call
    rw [Chooser.lines, Chooser.drawn, hperform, List.filterMap_append, ih c', hline]
    rfl

theorem visible_lines {draws : List Draw} :
    ∀ line ∈ draws.filterMap c.line?, isVisibleText line.text := by
  intro line hline
  obtain ⟨draw, -, hdraw⟩ := List.mem_filterMap.1 hline
  cases draw with
  | operation op => cases hdraw
  | increment graph => cases hdraw
  | kind bit =>
    cases hdraw
    exact Decimal.ofUInt64_visible bit
  | componentId kind id =>
    cases hdraw
    exact Decimal.ofUInt64_visible id

/-- The three files are different ones. -/
structure Apart (c : ChoiceRecorder) : Prop where
  kinds : ∀ kind, c.kindFile.number ≠ (c.idFile kind).number
  ids : ∀ kind other, (c.idFile kind).number = (c.idFile other).number ↔ kind = other

/-- A file that is made later has a larger number. -/
theorem Fresh.apart {folder : Location} {before after : Disk} (h : c.Fresh folder before after) : c.Apart := by
  have hnode := h.nodeNumber
  have hedge := h.edgeNumber
  refine ⟨?_, ?_⟩
  · intro kind
    cases kind <;> simp only [idFile] <;> omega
  · intro kind other
    cases kind <;> cases other <;> simp [idFile] <;> omega

namespace Apart

theorem textsOf_kinds (h : c.Apart) (draws : List Draw) :
    TraceLine.textsOf c.kindFile.number (draws.filterMap c.line?) =
      (draws.filterMap Draw.kind?).map Decimal.ofUInt64 := by
  apply TraceLine.textsOf_filterMap
  intro draw
  cases draw with
  | operation op => rfl
  | increment graph => rfl
  | kind bit => simp [TraceLine.textsOf, line?, Draw.kind?]
  | componentId kind id => simp [TraceLine.textsOf, line?, Draw.kind?, (h.kinds kind).symm]

theorem textsOf_ids (h : c.Apart) (draws : List Draw) (kind : ComponentKind) :
    TraceLine.textsOf (c.idFile kind).number (draws.filterMap c.line?) =
      (draws.filterMap (Draw.componentId? kind)).map Decimal.ofUInt64 := by
  apply TraceLine.textsOf_filterMap
  intro draw
  cases draw with
  | operation op => rfl
  | increment graph => rfl
  | kind bit => simp [TraceLine.textsOf, line?, Draw.componentId?, h.kinds kind]
  | componentId other id =>
    by_cases heq : other = kind <;> simp [TraceLine.textsOf, line?, Draw.componentId?, h.ids, heq]

end Apart

end ChoiceRecorder

namespace ChoiceReplayer

variable {r : ChoiceReplayer}

/-- What is left of the traces are the kinds and ids of some draws. -/
structure Holds (r : ChoiceReplayer) (draws : List Draw) : Prop where
  kinds : r.kinds = draws.filterMap Draw.kind?
  ids : ∀ kind, r.ids kind = draws.filterMap (Draw.componentId? kind)

/-- A replay finds the recorded components where the recorder has found them, as long as there are recorded draws
left. The counter that it sees does not matter, nor does it whether there is a component. -/
theorem Holds.repeats {c : ChoiceRecorder} {calls again : List ChoiceCall} {behind : List Draw}
    (hsame : again.map (·.resolve) = calls.map (·.resolve))
    (h : r.Holds ((Chooser.recorder c).drawn calls ++ behind)) (hexhausted : r.exhausted = false) :
    (Chooser.replayer r).choices again = (Chooser.recorder c).choices calls ∧
      (∀ i, ((Chooser.replayer r).after (again.take i)).isExhausted = false) ∧
      ∃ r', (Chooser.replayer r).after again = .replayer r' ∧ r'.Holds behind := by
  induction calls generalizing c r again with
  | nil =>
    obtain rfl := List.map_eq_nil_iff.1 hsame
    refine ⟨rfl, fun i => ?_, r, rfl, h⟩
    rw [List.take_nil]
    exact hexhausted
  | cons call rest ih =>
    obtain ⟨call', rest', rfl, hresolve, hrest⟩ := List.map_eq_cons_iff.1 hsame
    obtain ⟨c', hperform, -⟩ := c.perform_recorder call
    rw [Chooser.drawn, hperform, List.append_assoc] at h
    -- the first kind and the first id of this kind are those of the first call
    obtain ⟨r', hchoose, hexhausted', hkinds, hids⟩ := ChoiceReplayer.choose_draws c.ofTraceBit_bit
      ((Chooser.recorder c').drawn rest ++ behind) h.kinds h.ids call'.resolve
    have hperform' : (Chooser.replayer r).perform call' =
        ⟨call.resolve c.kind (c.idDraw call.ids).1, .replayer r', []⟩ := by
      rw [← show call'.resolve = call.resolve from hresolve]
      exact hchoose
    obtain ⟨hchoices, hnone, hend⟩ := ih hrest ⟨hkinds, hids⟩ (hexhausted'.trans hexhausted)
    refine ⟨?_, ?_, ?_⟩
    · rw [Chooser.choices, Chooser.choices, hperform, hperform', hchoices]
    · intro i
      cases i with
      | zero => exact hexhausted
      | succ i =>
        rw [List.take_succ_cons, Chooser.after, hperform']
        exact hnone i
    · rw [Chooser.after, hperform']
      exact hend

/-- Without ids a replay makes no choice any more, and says so. -/
theorem choices_of_ended (hids : ∀ kind, r.ids kind = []) (more : List ChoiceCall) :
    (Chooser.replayer r).choices more = List.replicate more.length none ∧
      (r.exhausted = true ∨ more ≠ [] → ((Chooser.replayer r).after more).isExhausted = true) := by
  induction more generalizing r with
  | nil =>
    refine ⟨rfl, fun h => ?_⟩
    exact h.resolve_right fun hne => hne rfl
  | cons call rest ih =>
    obtain ⟨r', hchoose, hexhausted, hids'⟩ := ChoiceReplayer.choose_none hids call.resolve
    have hperform : (Chooser.replayer r).perform call = ⟨none, .replayer r', []⟩ := hchoose
    obtain ⟨hchoices, hend⟩ := ih hids'
    rw [Chooser.choices, Chooser.after, hperform, hchoices]
    exact ⟨rfl, fun _ => hend (.inl hexhausted)⟩

end ChoiceReplayer

namespace ChoiceRecorder

variable {c : ChoiceRecorder}

/-- A part of the lines of a call, but not all of them, keeps no id. -/
theorem torn_of_prefix {ids : IdCounter} {begun : List TraceLine}
    (h : begun <+: (c.draws ids).filterMap c.line?) (hne : begun ≠ (c.draws ids).filterMap c.line?) :
    ∃ torn : List Draw, begun = torn.filterMap c.line? ∧ ∀ kind, torn.filterMap (Draw.componentId? kind) = [] := by
  have hlines : (c.draws ids).filterMap c.line? = [⟨c.kindFile, Decimal.ofUInt64 c.bit⟩,
      ⟨c.idFile c.kind, Decimal.ofUInt64 (c.idDraw ids).1⟩] := rfl
  rw [hlines] at h hne
  rcases List.prefix_cons_iff.1 h with rfl | ⟨rest, rfl, hrest⟩
  · exact ⟨[], rfl, fun _ => rfl⟩
  · rcases List.prefix_cons_iff.1 hrest with rfl | ⟨last, rfl, hlast⟩
    · exact ⟨[.kind c.bit], rfl, fun _ => rfl⟩
    · -- with the id the call would be whole
      exact absurd (by rw [List.prefix_nil.1 hlast]) hne

/-- A cut leaves the lines of the first calls, and at most a kind without its id. -/
theorem survivors_lines (c : ChoiceRecorder) (calls : List ChoiceCall) (count : Nat) :
    ∃ k ≤ calls.length, ∃ torn : List Draw,
      (∀ i ≤ calls.length, i ≤ k ↔
        (((Chooser.recorder c).lines (calls.take i)).flatMap TraceLine.writes).length ≤ count) ∧
      TraceLine.survivors count ((Chooser.recorder c).lines calls) =
        ((Chooser.recorder c).drawn (calls.take k) ++ torn).filterMap c.line? ∧
      ∀ kind, torn.filterMap (Draw.componentId? kind) = [] := by
  let block (i : Nat) := ((Chooser.recorder c).after (calls.take i)).lines ((calls.drop i).take 1)
  have hsucc (i : Nat) : (Chooser.recorder c).lines (calls.take (i + 1)) =
      (Chooser.recorder c).lines (calls.take i) ++ block i := by
    rw [List.take_add, Chooser.lines_append]
  obtain ⟨k, hk, begun, hsurvive, hwhole, hbegun⟩ := TraceLine.survivors_whole_blocks
    (fun i => (Chooser.recorder c).lines (calls.take i)) block rfl hsucc count calls.length
  simp only [List.take_length] at hsurvive
  -- of one more choice there may be the line of its kind
  obtain ⟨torn, rfl, htorn⟩ : ∃ torn : List Draw, begun = torn.filterMap c.line? ∧
      ∀ kind, torn.filterMap (Draw.componentId? kind) = [] := by
    rcases hbegun with rfl | ⟨hbegins, hne⟩
    · exact ⟨[], rfl, fun _ => rfl⟩
    · obtain ⟨c', hafter, hline⟩ := c.after_recorder (calls.take k)
      rw [← hline]
      simp only [block, hafter] at hbegins hne
      cases hcalls : (calls.drop k).take 1 with
      | nil =>
        rw [hcalls] at hne hbegins
        exact absurd (List.prefix_nil.1 hbegins) hne
      | cons call rest =>
        obtain rfl : rest = [] := by
          have hlength := List.length_take_le 1 (calls.drop k)
          rw [hcalls, List.length_cons] at hlength
          exact List.eq_nil_of_length_eq_zero (by omega)
        obtain ⟨c'', hperform, -⟩ := c'.perform_recorder call
        rw [hcalls, Chooser.lines, Chooser.lines, hperform, List.append_nil] at hbegins hne
        exact torn_of_prefix hbegins hne
  refine ⟨k, hk, torn, hwhole, ?_, htorn⟩
  rw [hsurvive, c.lines_recorder, List.filterMap_append]

end ChoiceRecorder

/-- Recorded choices can be opened again wherever their writing was cut. A chooser that starts without traces makes
some calls, in which it sees any counters and components, and any beginning of the bytes that these append to the
three files is left. A chooser that is opened on this, with whatever stream, makes in its first `k` calls the choices of
the recorder, if it sees the same components; these are the calls whose kinds and ids have both been written whole,
and none of them ends the replay, not even one whose component is not found. All later calls choose nothing and
leave the chooser exhausted. -/
theorem choices_reopen_after_any_cut {disk : Disk} {directory : Path} {folder : Location}
    (h : disk.HasFolder directory folder) (hnone : ∀ name ∈ choiceNames, disk.entryAt? (folder ++ [name]) = none)
    (stream : Generator) :
    ∃ c made, Chooser.openIn directory stream disk = .ok (.recorder c) made ∧
      ∀ (calls : List ChoiceCall) (cut : Nat),
        let recorded := Chooser.recorder c
        let left := made.addBytes (((recorded.lines calls).flatMap TraceLine.writes).take cut)
        ∃ k ≤ calls.length,
          (∀ i ≤ calls.length, i ≤ k ↔
            ((recorded.lines (calls.take i)).flatMap TraceLine.writes).length ≤ cut) ∧
          ∃ r, ChoiceReplayer.ofFiles directory left = .ok r left ∧
            (∀ otherStream, Chooser.openIn directory otherStream left = .ok (.replayer r) left) ∧
            ∀ again : List ChoiceCall, again.map (·.resolve) = (calls.take k).map (·.resolve) →
              let replayed := Chooser.replayer r
              replayed.choices again = recorded.choices (calls.take k) ∧
                (∀ i, (replayed.after (again.take i)).isExhausted = false) ∧
                ∀ more, more ≠ [] →
                  (replayed.after again).choices more = List.replicate more.length none ∧
                    ((replayed.after again).after more).isExhausted = true := by
  obtain ⟨c, made, hopen⟩ := Chooser.openIn_none h hnone stream
  have hfresh := Chooser.openIn_recorder h hopen
  have hapart := hfresh.apart
  refine ⟨c, made, hopen, fun calls cut => ?_⟩
  intro recorded left
  obtain ⟨k, hk, torn, hwhole, hsurvive, htorn⟩ := c.survivors_lines calls cut
  let draws := recorded.drawn (calls.take k) ++ torn
  have hvisible : ∀ line ∈ recorded.lines calls, isVisibleText line.text := by
    rw [c.lines_recorder]
    exact ChoiceRecorder.visible_lines
  have hfolder : left.HasFolder directory folder :=
    h.keep (hfresh.changes.folders.trans (made.keepsFolders_addBytes _))
  have hkinds : left.HasLines folder chosenKindsName c.kindFile.number
      ((draws.filterMap Draw.kind?).map Decimal.ofUInt64) := by
    have hlines := hfresh.kinds.addBytes_cut hvisible cut
    rw [hsurvive, hapart.textsOf_kinds] at hlines
    exact hlines
  have hids (kind : ComponentKind) : left.HasLines folder (chosenIdsName kind) (c.idFile kind).number
      ((draws.filterMap (Draw.componentId? kind)).map Decimal.ofUInt64) := by
    have hlines := (hfresh.ids kind).addBytes_cut hvisible cut
    rw [hsurvive, hapart.textsOf_ids] at hlines
    exact hlines
  obtain ⟨hfiles, hreopen⟩ := Chooser.openIn_lines hfolder ⟨_, hkinds⟩ fun kind => ⟨_, hids kind⟩
  refine ⟨k, hk, hwhole, _, hfiles, hreopen, ?_⟩
  intro again hsame replayed
  have hholds : ChoiceReplayer.Holds ⟨draws.filterMap Draw.kind?, draws.filterMap (Draw.componentId? .node),
      draws.filterMap (Draw.componentId? .edge), false, none⟩ draws := by
    refine ⟨rfl, fun kind => ?_⟩
    cases kind <;> rfl
  obtain ⟨hchoices, hgoing, r', hafter, hbehind⟩ := hholds.repeats hsame rfl
  refine ⟨hchoices, hgoing, fun more hmore => ?_⟩
  -- a torn kind has no id behind it
  obtain ⟨hend, hexhausted⟩ := ChoiceReplayer.choices_of_ended
    (fun kind => (hbehind.ids kind).trans (htorn kind)) more
  rw [hafter]
  exact ⟨hend, hexhausted (.inr hmore)⟩

/-- Of two choices, five bytes are left. -/
theorem choices_reopen_after_any_cut_of_two :
    (Disk.rootedAt []).HasFolder "." [] ∧
      (∀ name ∈ choiceNames, (Disk.rootedAt []).entryAt? ([] ++ [name]) = none) ∧
      ∃ c made, Chooser.openIn "." (.ofSeed 7) (Disk.rootedAt []) = .ok (.recorder c) made ∧
        let calls : List ChoiceCall := [⟨⟨5, 9⟩, fun _ _ => none⟩, ⟨⟨6, 9⟩, fun _ _ => none⟩]
        let left := made.addBytes ((((Chooser.recorder c).lines calls).flatMap TraceLine.writes).take 5)
        ∃ k ≤ 2, ∃ r, Chooser.openIn "." (.ofSeed 8) left = .ok (.replayer r) left ∧
          (Chooser.replayer r).choices (calls.take k) = (Chooser.recorder c).choices (calls.take k) ∧
          ((Chooser.replayer r).after (calls.take k)).isExhausted = false ∧
          ((Chooser.replayer r).after (calls.take k)).choices calls = [none, none] := by
  have hfolder : (Disk.rootedAt []).HasFolder "." [] := Disk.hasFolder_root
  have hnone : ∀ name ∈ choiceNames, (Disk.rootedAt []).entryAt? ([] ++ [name]) = none := by decide
  obtain ⟨c, made, hopen, hcut⟩ := choices_reopen_after_any_cut hfolder hnone (.ofSeed 7)
  refine ⟨hfolder, hnone, c, made, hopen, ?_⟩
  intro calls left
  obtain ⟨k, hk, -, r, -, hreopen, hrepeats⟩ := hcut calls 5
  obtain ⟨hchoices, hgoing, hend⟩ := hrepeats (calls.take k) rfl
  have hall := hgoing k
  rw [List.take_take, Nat.min_self] at hall
  exact ⟨k, hk, r, hreopen (.ofSeed 8), hchoices, hall, (hend calls (List.cons_ne_nil _ _)).1⟩

end GraphBench
