import GraphBench.Proofs.Source.Issued

/-!
Calls of an id counter. The ids of a kind that a counter returns or observes are all below the next one, and the next
one only rises, until the largest id has come up: behind it there is none, and drawing begins at zero again.
-/

namespace GraphBench

inductive CounterCall where
  | next (kind : ComponentKind)
  | observe (kind : ComponentKind) (id : UInt64)
  | issued (kind : ComponentKind)
  deriving DecidableEq

def CounterCall.kind : CounterCall → ComponentKind
  | .next kind => kind
  | .observe kind _ => kind
  | .issued kind => kind

/-- A call of a counter with its answer, which a call that observes an id does not have. -/
structure CounterExchange where
  call : CounterCall
  answer : Option UInt64
  deriving DecidableEq

/-- The id that has come up in a call: the one that was returned as a new id, or the one that was observed. -/
def CounterExchange.id? (exchange : CounterExchange) : Option UInt64 :=
  match exchange.call with
  | .next _ => exchange.answer
  | .observe _ id => some id
  | .issued _ => none

/-- The largest id, which no id comes after. -/
def lastId : UInt64 :=
  UInt64.ofNat (UInt64.size - 1)

theorem toNat_lt_of_ne_lastId {id : UInt64} (h : id ≠ lastId) : id.toNat < 2 ^ 64 - 1 := by
  have hne : id.toNat ≠ 2 ^ 64 - 1 := fun heq => h (UInt64.toNat_inj.1 heq)
  have hlt := id.toNat_lt
  omega

theorem le_lastId (id : UInt64) : id ≤ lastId := by
  have hlast : lastId.toNat = 2 ^ 64 - 1 := rfl
  rw [UInt64.le_iff_toNat_le, hlast]
  have hlt := id.toNat_lt
  omega

namespace IdCounter

def perform (ids : IdCounter) : CounterCall → Option UInt64 × IdCounter
  | .next kind => (some (ids.next kind).1, (ids.next kind).2)
  | .observe kind id => (none, ids.observe kind id)
  | .issued kind => (some (ids.issued kind), ids)

def after (ids : IdCounter) (calls : List CounterCall) : IdCounter :=
  calls.foldl (fun ids call => (ids.perform call).2) ids

def exchanges (ids : IdCounter) : List CounterCall → List CounterExchange
  | [] => []
  | call :: rest => ⟨call, (ids.perform call).1⟩ :: (ids.perform call).2.exchanges rest

def exchangesOf (ids : IdCounter) (kind : ComponentKind) (calls : List CounterCall) : List CounterExchange :=
  (ids.exchanges calls).filter fun exchange => exchange.call.kind = kind

/-- The ids of a kind that come up in some calls. -/
def seen (ids : IdCounter) (kind : ComponentKind) (calls : List CounterCall) : List UInt64 :=
  (ids.exchangesOf kind calls).filterMap CounterExchange.id?

variable {ids other : IdCounter} {call : CounterCall} {calls : List CounterCall} {kind : ComponentKind}

@[simp]
theorem issued_set (ids : IdCounter) (kind other : ComponentKind) (next : UInt64) :
    (ids.set kind next).issued other = if kind = other then next else ids.issued other := by
  cases kind <;> cases other <;> rfl

/-- Having observed an id moves the next one up, if it moves it. -/
theorem le_issued_observe (ids : IdCounter) (kind : ComponentKind) (id : UInt64) :
    ids.issued kind ≤ (ids.observe kind id).issued kind ∧ idAfter id ≤ (ids.observe kind id).issued kind := by
  have hmax : max (ids.issued kind) (idAfter id) =
      if ids.issued kind ≤ idAfter id then idAfter id else ids.issued kind := rfl
  rw [observe, issued_set, if_pos rfl, hmax]
  split
  · rename_i hle
    exact ⟨hle, UInt64.le_rfl⟩
  · rename_i hgt
    exact ⟨UInt64.le_rfl, UInt64.le_of_lt (UInt64.not_le.1 hgt)⟩

/-- A call leaves the other kind alone. -/
theorem issued_perform_of_ne (h : call.kind ≠ kind) : (ids.perform call).2.issued kind = ids.issued kind := by
  cases call with
  | next first => exact (issued_set ids first kind _).trans (if_neg h)
  | observe first id => exact (issued_set ids first kind _).trans (if_neg h)
  | issued first => rfl

/-- What a call answers, and what it makes of the next id of its kind, depends on nothing but that id. -/
theorem perform_congr (h : ids.issued call.kind = other.issued call.kind) :
    (ids.perform call).1 = (other.perform call).1 ∧
      (ids.perform call).2.issued call.kind = (other.perform call).2.issued call.kind := by
  cases call with
  | next kind =>
    have hissued : ids.issued kind = other.issued kind := h
    refine ⟨congrArg some hissued, ?_⟩
    change (ids.set kind _).issued kind = (other.set kind _).issued kind
    simp [hissued]
  | observe kind id =>
    have hissued : ids.issued kind = other.issued kind := h
    refine ⟨rfl, ?_⟩
    change (ids.set kind _).issued kind = (other.set kind _).issued kind
    simp [hissued]
  | issued kind => exact ⟨congrArg some h, h⟩

/-- The calls of a kind are answered as if there were no others. -/
theorem exchangesOf_eq (h : ids.issued kind = other.issued kind) (calls : List CounterCall) :
    ids.exchangesOf kind calls = other.exchanges (calls.filter fun call => call.kind = kind) ∧
      (ids.after calls).issued kind = (other.after (calls.filter fun call => call.kind = kind)).issued kind := by
  induction calls generalizing ids other with
  | nil => exact ⟨rfl, h⟩
  | cons call rest ih =>
    by_cases hkind : call.kind = kind
    · subst hkind
      obtain ⟨hanswer, hissued⟩ := perform_congr h
      obtain ⟨hexchanges, hafter⟩ := ih hissued
      have hexchanges' : ((ids.perform call).2.exchanges rest).filter (fun exchange => exchange.call.kind = call.kind) =
          (other.perform call).2.exchanges (rest.filter fun later => later.kind = call.kind) := hexchanges
      rw [exchangesOf, exchanges, List.filter_cons_of_pos (by simp), List.filter_cons_of_pos (by simp), exchanges,
        hexchanges', hanswer]
      exact ⟨rfl, hafter⟩
    · have hissued : (ids.perform call).2.issued kind = other.issued kind := (issued_perform_of_ne hkind).trans h
      rw [exchangesOf, exchanges, List.filter_cons_of_neg (by simpa using hkind),
        List.filter_cons_of_neg (by simpa using hkind)]
      exact ih hissued

/-- A call moves the next id of its kind up behind the id that comes up in it, unless that is the largest one. -/
theorem perform_ascends {id : UInt64} (h : CounterExchange.id? ⟨call, (ids.perform call).1⟩ = some id)
    (hlast : id ≠ lastId) :
    ids.issued call.kind ≤ (ids.perform call).2.issued call.kind ∧
      id < (ids.perform call).2.issued call.kind := by
  have hbelow := toNat_lt_of_ne_lastId hlast
  cases call with
  | next kind =>
    obtain rfl : ids.issued kind = id := Option.some.inj h
    have hone : (1 : UInt64).toNat = 1 := rfl
    have hlt : ids.issued kind < ids.issued kind + 1 := by
      rw [UInt64.lt_iff_toNat_lt, UInt64.toNat_add, hone]
      omega
    change ids.issued kind ≤ (ids.next kind).2.issued kind ∧ ids.issued kind < (ids.next kind).2.issued kind
    rw [issued_next, if_pos rfl]
    exact ⟨UInt64.le_of_lt hlt, hlt⟩
  | observe kind observed =>
    obtain rfl : observed = id := Option.some.inj h
    obtain ⟨hrise, hbehind⟩ := ids.le_issued_observe kind observed
    exact ⟨hrise, Std.lt_of_lt_of_le (lt_idAfter UInt64.le_rfl hbelow) hbehind⟩
  | issued kind => cases h

/-- The next id of a kind becomes smaller in one case only: when the largest id is drawn. -/
theorem perform_falls_iff :
    (ids.perform call).2.issued kind < ids.issued kind ↔ call = .next kind ∧ ids.issued kind = lastId := by
  constructor
  · intro hlt
    -- calls about the other kind leave the counter alone, and observing never lowers it
    by_cases hkind : call.kind = kind
    · subst hkind
      cases call with
      | next kind =>
        refine ⟨rfl, ?_⟩
        by_contra hlast
        have hid : CounterExchange.id? ⟨.next kind, (ids.perform (.next kind)).1⟩ = some (ids.issued kind) := rfl
        exact absurd hlt (UInt64.not_lt.2 (perform_ascends hid hlast).1)
      | observe kind id =>
        exact absurd hlt (UInt64.not_lt.2 (ids.le_issued_observe kind id).1)
      | issued kind => exact absurd hlt (UInt64.lt_irrefl _)
    · rw [issued_perform_of_ne hkind] at hlt
      exact absurd hlt (UInt64.lt_irrefl _)
  · rintro ⟨rfl, hlast⟩
    change (ids.next kind).2.issued kind < ids.issued kind
    rw [issued_next, if_pos rfl, hlast]
    decide

/-- As long as the largest id does not come up, the next id only rises, and it stays above all that have come up. -/
theorem after_ascends (h : lastId ∉ ids.seen kind calls) :
    ids.issued kind ≤ (ids.after calls).issued kind ∧
      ∀ id ∈ ids.seen kind calls, id < (ids.after calls).issued kind := by
  induction calls generalizing ids with
  | nil => exact ⟨UInt64.le_rfl, fun id hid => absurd hid List.not_mem_nil⟩
  | cons call rest ih =>
    let next := (ids.perform call).2
    by_cases hkind : call.kind = kind
    · subst hkind
      have hcons : ids.seen call.kind (call :: rest) =
          (CounterExchange.id? ⟨call, (ids.perform call).1⟩).toList ++ next.seen call.kind rest := by
        rw [seen, exchangesOf, exchanges, List.filter_cons_of_pos (by simp), List.filterMap_cons]
        cases CounterExchange.id? ⟨call, (ids.perform call).1⟩ <;> rfl
      rw [hcons] at h ⊢
      obtain ⟨hrise, hbelow⟩ := ih fun hmem => h (List.mem_append_right _ hmem)
      cases hid : CounterExchange.id? ⟨call, (ids.perform call).1⟩ with
      | none =>
        -- only a question after the next id leaves no id behind
        cases call with
        | next kind => cases hid
        | observe kind id => cases hid
        | issued kind => exact ⟨hrise, hbelow⟩
      | some id =>
        rw [hid] at h
        have hlast : id ≠ lastId := fun heq => h (heq ▸ List.mem_append_left _ List.mem_cons_self)
        obtain ⟨hstep, hnew⟩ := perform_ascends hid hlast
        refine ⟨UInt64.le_trans hstep hrise, ?_⟩
        intro seen hseen
        rcases List.mem_cons.1 hseen with rfl | hseen
        · exact Std.lt_of_lt_of_le hnew hrise
        · exact hbelow seen hseen
    · have hcons : ids.seen kind (call :: rest) = next.seen kind rest := by
        rw [seen, exchangesOf, exchanges, List.filter_cons_of_neg (by simpa using hkind)]
        rfl
      rw [hcons] at h ⊢
      obtain ⟨hrise, hbelow⟩ := ih h
      rw [issued_perform_of_ne hkind] at hrise
      exact ⟨hrise, hbelow⟩

/-- A counter goes on behind the id that it is set to, unless that is the largest one. -/
theorem lt_next_preset_iff (ids : IdCounter) (kind : ComponentKind) (id : UInt64) :
    id < ((ids.preset kind id).next kind).1 ↔ id ≠ lastId := by
  change id < (ids.preset kind id).issued kind ↔ id ≠ lastId
  rw [preset, issued_set, if_pos rfl]
  constructor
  · rintro hlt rfl
    exact absurd hlt (UInt64.not_lt.2 (le_lastId _))
  · exact fun hlast => lt_idAfter UInt64.le_rfl (toNat_lt_of_ne_lastId hlast)

end IdCounter

/-- The ids of a counter in any state, a new one among others. All ids of a kind that have been returned or observed in
some calls are below the next one exactly if the largest id is not among them, and until then the next one only rises;
it falls in one case only, which is that the largest id is drawn. The calls of a kind are answered, and leave the
counter of the kind, as if there were no others. What comes behind an id that the counter is set to is larger, except
behind the largest id. -/
theorem ids_ascend_below_last (ids : IdCounter) (kind : ComponentKind) (calls : List CounterCall) :
    let after := ids.after calls
    let own := calls.filter fun call => call.kind = kind
    ((∀ id ∈ ids.seen kind calls, id < (after.next kind).1 ∧ id < after.issued kind) ↔
      lastId ∉ ids.seen kind calls) ∧
    (lastId ∉ ids.seen kind calls → ids.issued kind ≤ after.issued kind) ∧
    (∀ call, (after.perform call).2.issued kind < after.issued kind ↔
      call = .next kind ∧ after.issued kind = lastId) ∧
    ids.exchangesOf kind calls = ids.exchanges own ∧ after.issued kind = (ids.after own).issued kind ∧
    ∀ id, id < ((ids.preset kind id).next kind).1 ↔ id ≠ lastId := by
  intro after own
  obtain ⟨hexchanges, hissued⟩ := IdCounter.exchangesOf_eq (rfl : ids.issued kind = ids.issued kind) calls
  refine ⟨⟨?_, ?_⟩, fun hlast => (IdCounter.after_ascends hlast).1, fun call => IdCounter.perform_falls_iff, hexchanges,
    hissued, ids.lt_next_preset_iff kind⟩
  · -- no id is above the largest one
    intro hall hlast
    exact absurd (hall lastId hlast).2 (UInt64.not_lt.2 (le_lastId _))
  · intro hlast id hid
    have hlt := (IdCounter.after_ascends hlast).2 id hid
    exact ⟨hlt, hlt⟩

/-- When the largest id has been observed, it is drawn once more, and then the first id is drawn again. -/
theorem observed_last_id_repeats :
    (IdCounter.zero.exchanges [.next .node, .observe .node lastId, .next .node, .next .node]).map (·.answer) =
        [some 0, none, some lastId, some 0] ∧
      ¬∀ (kind : ComponentKind) (calls : List CounterCall), ∀ id ∈ IdCounter.zero.seen kind calls,
        id < ((IdCounter.zero.after calls).next kind).1 := by
  refine ⟨by decide, ?_⟩
  intro hall
  have hlt := hall .node [.observe .node lastId] lastId (by decide)
  exact absurd hlt (by decide)

/-- Between the two nodes an id is observed, which the counter passes over, and an edge is counted on its own. -/
theorem ids_ascend_below_last_of_four :
    let calls := [.next .node, .observe .node 7, .next .edge, .next .node]
    lastId ∉ IdCounter.zero.seen .node calls ∧ IdCounter.zero.seen .node calls = [0, 7, 8] ∧
      (∀ id ∈ IdCounter.zero.seen .node calls, id < ((IdCounter.zero.after calls).next .node).1) ∧
      IdCounter.zero.issued .node ≤ (IdCounter.zero.after calls).issued .node := by
  intro calls
  have hlast : lastId ∉ IdCounter.zero.seen .node calls := by decide
  obtain ⟨hbelow, hrise, -⟩ := ids_ascend_below_last .zero .node calls
  exact ⟨hlast, by decide, fun id hid => (hbelow.2 hlast id hid).1, hrise hlast⟩

end GraphBench
