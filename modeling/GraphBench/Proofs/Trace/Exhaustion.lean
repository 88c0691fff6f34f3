import GraphBench.Proofs.Driver.Exhaustion
import GraphBench.Proofs.Source.Issued
import GraphBench.Proofs.Trace.Choices
import GraphBench.Source.Fixed

/-!
The end of a replay of choices. A choice takes a kind, and then an id from the trace of this kind, so that each of the
three traces ends on its own. What a call finds is told by its number alone; a call that finds nothing marks the
replay as exhausted, but it does not keep a later call from a trace that has not ended.
-/

namespace GraphBench

namespace ChoiceReplayer

def kind? (r : ChoiceReplayer) (n : Nat) : Option ComponentKind :=
  r.kinds[n]?.map ComponentKind.ofTraceBit

/-- What is recorded for a choice. Its id stands behind the ids of the earlier choices of the same kind. -/
def recorded? (r : ChoiceReplayer) (n : Nat) : Option (ComponentKind × UInt64) :=
  (r.kind? n).bind fun kind =>
    (r.ids kind)[(r.kinds.take n).countP (ComponentKind.ofTraceBit · = kind)]?.map (kind, ·)

variable {r : ChoiceReplayer}

theorem recorded?_of_kind?_none {n : Nat} (h : r.kind? n = none) : r.recorded? n = none := by
  rw [recorded?, h, Option.bind_none]

theorem kind?_none_of_le {n later : Nat} (hle : n ≤ later) (h : r.kind? n = none) : r.kind? later = none := by
  rw [kind?, Option.map_eq_none_iff, List.getElem?_eq_none_iff] at h ⊢
  omega

/-- A kind that has run out of ids gets none later. -/
theorem recorded?_none_of_le {n later : Nat} (hle : n ≤ later) (hsame : r.kind? later = r.kind? n)
    (h : r.recorded? n = none) : r.recorded? later = none := by
  cases hkind : r.kind? n with
  | none => exact recorded?_of_kind?_none (hsame.trans hkind)
  | some kind =>
    -- more choices of the kind stand before the later one, and so its id would stand no earlier
    let before (m : Nat) := (r.kinds.take m).countP (ComponentKind.ofTraceBit · = kind)
    have hends : (r.ids kind).length ≤ before n := by
      rw [recorded?, hkind, Option.bind_some, Option.map_eq_none_iff] at h
      exact List.getElem?_eq_none_iff.1 h
    have hmore : before n ≤ before later := (List.take_sublist_take_left hle).countP_le
    rw [recorded?, hsame, hkind, Option.bind_some, Option.map_eq_none_iff]
    exact List.getElem?_eq_none_iff.2 (Nat.le_trans hends hmore)

/-- Behind a kind that is used up, together with an id if there is one, the records move up by one. -/
theorem recorded?_of_cons {r' : ChoiceReplayer} {bit : UInt64} (hkinds : r.kinds = bit :: r'.kinds)
    (hids : ∀ kind, r'.ids kind = if ComponentKind.ofTraceBit bit = kind then (r.ids kind).tail else r.ids kind)
    (n : Nat) : r'.recorded? n = r.recorded? (n + 1) := by
  have hkind : r.kind? (n + 1) = r'.kind? n := by rw [kind?, kind?, hkinds, List.getElem?_cons_succ]
  rw [recorded?, recorded?, hkind, hkinds, List.take_succ_cons]
  congr 1
  funext kind
  rw [hids, List.countP_cons]
  by_cases heq : ComponentKind.ofTraceBit bit = kind
  · simp only [heq, ↓reduceIte, decide_true, List.getElem?_tail]
  · simp only [heq, ↓reduceIte, decide_false, Bool.false_eq_true, Nat.add_zero]

/-- Taking a choice leaves the choices that are recorded behind it. -/
theorem take_recorded (r : ChoiceReplayer) :
    ∃ r', r.take = (r.recorded? 0, r') ∧ r'.exhausted = r.exhausted ∧ ∀ n, r'.recorded? n = r.recorded? (n + 1) := by
  cases hkinds : r.kinds with
  | nil =>
    have hnone (n : Nat) : r.recorded? n = none :=
      recorded?_of_kind?_none (by rw [kind?, hkinds, List.getElem?_nil, Option.map_none])
    refine ⟨r, ?_, rfl, fun n => by rw [hnone, hnone]⟩
    rw [take, hkinds, hnone]
  | cons bit kinds =>
    have hfirst : r.recorded? 0 = (r.ids (.ofTraceBit bit)).head?.map (ComponentKind.ofTraceBit bit, ·) := by
      rw [recorded?, kind?, hkinds, List.head?_eq_getElem?]
      rfl
    cases hkind : ComponentKind.ofTraceBit bit with
    | node =>
      refine ⟨{ r with kinds := kinds, nodeIds := r.nodeIds.tail }, ?_, rfl, recorded?_of_cons hkinds fun kind => ?_⟩
      · rw [hfirst, take, hkinds]
        simp only [hkind]
        rfl
      · cases kind <;> simp [ids, hkind]
    | edge =>
      refine ⟨{ r with kinds := kinds, edgeIds := r.edgeIds.tail }, ?_, rfl, recorded?_of_cons hkinds fun kind => ?_⟩
      · rw [hfirst, take, hkinds]
        simp only [hkind]
        rfl
      · cases kind <;> simp [ids, hkind]

/-- One call: it looks up what is recorded first, and marks the end if nothing is. -/
theorem perform_recorded (r : ChoiceReplayer) (call : ChoiceCall) :
    ∃ r', (Chooser.replayer r).perform call =
        ⟨(r.recorded? 0).bind fun choice => call.resolve choice.1 choice.2, .replayer r', []⟩ ∧
      (r'.exhausted = true ↔ r.exhausted = true ∨ r.recorded? 0 = none) ∧
      ∀ n, r'.recorded? n = r.recorded? (n + 1) := by
  obtain ⟨r', htake, hexhausted, hbehind⟩ := r.take_recorded
  cases hfirst : r.recorded? 0 with
  | none =>
    rw [hfirst] at htake
    refine ⟨{ r' with exhausted := true, last := none }, ?_, ?_, hbehind⟩
    · change r.choose call.resolve = _
      rw [choose, htake]
      rfl
    · exact iff_of_true rfl (.inr rfl)
  | some choice =>
    rw [hfirst] at htake
    refine ⟨{ r' with last := call.resolve choice.1 choice.2 }, ?_, ?_, hbehind⟩
    · change r.choose call.resolve = _
      rw [choose, htake]
      rfl
    · change r'.exhausted = true ↔ _
      rw [hexhausted]
      simp only [reduceCtorEq, or_false]

/-- Some calls: what is recorded moves up by their number, and one of them that finds nothing marks the end. -/
theorem after_recorded (r : ChoiceReplayer) (calls : List ChoiceCall) :
    ∃ r', (Chooser.replayer r).after calls = .replayer r' ∧
      (r'.exhausted = true ↔ r.exhausted = true ∨ ∃ n < calls.length, r.recorded? n = none) ∧
      ∀ n, r'.recorded? n = r.recorded? (calls.length + n) := by
  induction calls generalizing r with
  | nil => exact ⟨r, rfl, by simp, fun n => by rw [List.length_nil, Nat.zero_add]⟩
  | cons call rest ih =>
    obtain ⟨r', hperform, hexhausted, hbehind⟩ := r.perform_recorded call
    -- the other calls find the same records, each under a number that is smaller by one
    obtain ⟨r'', hafter, hexhausted', hbehind'⟩ := ih r'
    refine ⟨r'', ?_, ?_, fun n => ?_⟩
    · rw [Chooser.after, hperform]
      exact hafter
    · rw [hexhausted', hexhausted, or_assoc, List.length_cons, Nat.exists_lt_succ_left]
      simp only [hbehind]
    · rw [hbehind', hbehind, List.length_cons]
      congr 1
      omega

/-- The choice of each call is looked up by the number of the call. -/
theorem choices_getElem? (r : ChoiceReplayer) (calls : List ChoiceCall) (n : Nat) :
    ((Chooser.replayer r).choices calls)[n]? =
      calls[n]?.map fun call => (r.recorded? n).bind fun choice => call.resolve choice.1 choice.2 := by
  induction calls generalizing r n with
  | nil => rfl
  | cons call rest ih =>
    obtain ⟨r', hperform, -, hbehind⟩ := r.perform_recorded call
    rw [Chooser.choices, hperform]
    cases n with
    | zero => rfl
    | succ n => rw [List.getElem?_cons_succ, List.getElem?_cons_succ, ih r' n, hbehind]

/-- A replay chooses nothing in any calls if and only if nothing is recorded for it. -/
theorem choices_none_iff :
    (∀ calls, (Chooser.replayer r).choices calls = List.replicate calls.length none) ↔ ∀ n, r.recorded? n = none := by
  constructor
  · intro h n
    -- a source in which every component is found
    let found : ChoiceCall := ⟨⟨0, 0⟩, fun _ _ => some (.node ⟨0, "", []⟩)⟩
    have hlast := r.choices_getElem? (List.replicate (n + 1) found) n
    rw [h, List.length_replicate, List.getElem?_replicate_of_lt (by omega),
      List.getElem?_replicate_of_lt (by omega)] at hlast
    cases hrecorded : r.recorded? n with
    | none => rfl
    | some choice =>
      rw [hrecorded] at hlast
      cases hlast
  · intro h calls
    apply List.ext_getElem?
    intro n
    rw [choices_getElem?, h, List.getElem?_replicate]
    by_cases hn : n < calls.length
    · rw [List.getElem?_eq_getElem hn, if_pos hn]
      rfl
    · rw [List.getElem?_eq_none (by omega), if_neg hn]
      rfl

end ChoiceReplayer

/-- What a replay of choices is at its end. The three traces hold whatever they may. Each call looks up what is
recorded for its number, in whatever source it sees. The replay is exhausted if and only if there was nothing recorded
for one of the calls made so far, and it stays so. From then on it chooses nothing in any source if and only if
nothing is recorded behind a choice for which nothing is. This is so at any rate for later choices of the same kind,
and for all later ones if the kinds have ended. -/
theorem exhausted_choices_resume_iff {directory : Path} {disk disk' : Disk} {r : ChoiceReplayer}
    (h : ChoiceReplayer.ofFiles directory disk = .ok r disk') :
    let replayed := Chooser.replayer r
    (∀ (calls : List ChoiceCall) (n : Nat), (replayed.choices calls)[n]? =
        calls[n]?.map fun call => (r.recorded? n).bind fun choice => call.resolve choice.1 choice.2) ∧
      (∀ calls, (replayed.after calls).isExhausted = true ↔ ∃ n < calls.length, r.recorded? n = none) ∧
      (∀ calls more, (replayed.after calls).isExhausted = true → (replayed.after (calls ++ more)).isExhausted = true) ∧
      ((∀ calls, (replayed.after calls).isExhausted = true →
          ∀ more, (replayed.after calls).choices more = List.replicate more.length none) ↔
        ∀ n later, n ≤ later → r.recorded? n = none → r.recorded? later = none) ∧
      (∀ n later, n ≤ later → r.recorded? n = none → r.kind? later = r.kind? n → r.recorded? later = none) ∧
      ∀ n later, n ≤ later → r.kind? n = none → r.recorded? later = none := by
  -- nothing has been missed before the first call
  have hfresh : r.exhausted = false := by
    rw [ChoiceReplayer.ofFiles] at h
    obtain ⟨kinds, _, -, h⟩ := run_bind_ok h
    obtain ⟨nodeIds, _, -, h⟩ := run_bind_ok h
    obtain ⟨edgeIds, _, -, h⟩ := run_bind_ok h
    cases h
    rfl
  intro replayed
  have hexhausted (calls : List ChoiceCall) :
      (replayed.after calls).isExhausted = true ↔ ∃ n < calls.length, r.recorded? n = none := by
    obtain ⟨r', hafter, hmarked, -⟩ := r.after_recorded calls
    rw [hafter]
    change r'.exhausted = true ↔ _
    rw [hmarked, hfresh]
    simp only [Bool.false_eq_true, false_or]
  have hsilent (calls : List ChoiceCall) :
      (∀ more, (replayed.after calls).choices more = List.replicate more.length none) ↔
        ∀ n, r.recorded? (calls.length + n) = none := by
    obtain ⟨r', hafter, -, hbehind⟩ := r.after_recorded calls
    rw [hafter, ChoiceReplayer.choices_none_iff]
    simp only [hbehind]
  refine ⟨r.choices_getElem?, hexhausted, ?_, ⟨?_, ?_⟩, ?_, ?_⟩
  · intro calls more hcalls
    obtain ⟨n, hn, hnone⟩ := (hexhausted calls).1 hcalls
    refine (hexhausted _).2 ⟨n, ?_, hnone⟩
    rw [List.length_append]
    omega
  · intro hfinal n later hle hnone
    rcases Nat.eq_or_lt_of_le hle with rfl | hlt
    · exact hnone
    · -- the calls up to the one that finds nothing
      let calls := List.replicate (n + 1) (⟨⟨0, 0⟩, fun _ _ => none⟩ : ChoiceCall)
      have hlength : calls.length = n + 1 := List.length_replicate
      have hended := (hexhausted calls).2 ⟨n, by omega, hnone⟩
      have hlater := (hsilent calls).1 (hfinal calls hended) (later - (n + 1))
      rwa [hlength, Nat.add_sub_cancel' hlt] at hlater
  · intro hfinal calls hended
    obtain ⟨n, hn, hnone⟩ := (hexhausted calls).1 hended
    exact (hsilent calls).2 fun m => hfinal n _ (by omega) hnone
  · exact fun n later hle hnone hsame => ChoiceReplayer.recorded?_none_of_le hle hsame hnone
  · exact fun n later hle hnone => ChoiceReplayer.recorded?_of_kind?_none (ChoiceReplayer.kind?_none_of_le hle hnone)

/-- Traces of a node and of an edge, where the id of the node is missing. -/
def unevenChoices : List (String × String) :=
  [(chosenKindsName, "0\n1\n"), (chosenIdsName .node, ""), (chosenIdsName .edge, "0\n")]

theorem ofFiles_unevenChoices :
    let disk := Disk.ofTexts unevenChoices
    ChoiceReplayer.ofFiles "." disk = .ok ⟨[0, 1], [], [0], false, none⟩ disk := by
  let kinds : List UInt64 := [0, 1]
  let ids (kind : ComponentKind) : List UInt64 := if kind = .node then [] else [0]
  have hkinds : (Disk.ofTexts unevenChoices).HasLines [] chosenKindsName 0 (kinds.map Decimal.ofUInt64) :=
    Disk.hasLines_ofTexts rfl rfl (by decide +kernel)
  have hids (kind : ComponentKind) : ∃ number,
      (Disk.ofTexts unevenChoices).HasLines [] (chosenIdsName kind) number ((ids kind).map Decimal.ofUInt64) := by
    cases kind with
    | node => exact ⟨1, Disk.hasLines_ofTexts rfl rfl rfl⟩
    | edge => exact ⟨2, Disk.hasLines_ofTexts rfl rfl (by decide +kernel)⟩
  exact (Chooser.openIn_lines (Disk.hasFolder_ofTexts _) ⟨0, hkinds⟩ hids).1

/-- The edge is chosen after no id has been found for the node. -/
theorem edge_chosen_behind_exhaustion :
    ∃ r, ChoiceReplayer.ofFiles "." (.ofTexts unevenChoices) = .ok r (.ofTexts unevenChoices) ∧
      let edge : Edge := ⟨0, "Edge0", 0, 0⟩
      let source : Source := .fixed (.ofComponents [⟨0, "Node0", []⟩] [edge])
      let ended := (Chooser.replayer r).after [⟨.zero, source.component?⟩]
      ended.isExhausted = true ∧ ended.choices [⟨.zero, source.component?⟩] = [some (.edge edge)] := by
  refine ⟨_, ofFiles_unevenChoices, ?_⟩
  intro edge source ended
  have hedge : source.component? .edge 0 = some (.edge edge) := by
    change ((Lookup.empty.put (.node ⟨0, "Node0", []⟩)).put (.edge edge)).component? .edge 0 = _
    rw [Lookup.component?_put]
    rfl
  exact ⟨rfl, congrArg (fun choice => [choice]) hedge⟩

/-- The same traces: the second call finds its edge, the third one finds no kind, and no later one does. -/
theorem exhausted_choices_resume_iff_of_two :
    ∃ r, ChoiceReplayer.ofFiles "." (.ofTexts unevenChoices) = .ok r (.ofTexts unevenChoices) ∧
      (∀ calls : List ChoiceCall, ((Chooser.replayer r).after calls).isExhausted = true ↔ calls ≠ []) ∧
      (∀ call : ChoiceCall, ((Chooser.replayer r).choices [call, call])[1]? = some (call.resolve .edge 0)) ∧
      ∀ n, 2 ≤ n → r.recorded? n = none := by
  obtain ⟨hchoices, hexhausted, -, -, -, hkinds⟩ := exhausted_choices_resume_iff ofFiles_unevenChoices
  refine ⟨_, ofFiles_unevenChoices, ?_, ?_, fun n hn => hkinds 2 n hn rfl⟩
  · intro calls
    rw [hexhausted]
    constructor
    · rintro ⟨n, hn, -⟩
      exact List.ne_nil_of_length_pos (by omega)
    · exact fun hne => ⟨0, List.length_pos_iff.2 hne, rfl⟩
  · intro call
    exact hchoices [call, call] 1

end GraphBench
