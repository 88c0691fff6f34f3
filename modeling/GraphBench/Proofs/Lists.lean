import Mathlib.Algebra.Group.Nat.Defs

/-!
Facts about lists that several parts of the theory share.
-/

namespace GraphBench

theorem lookup_cons_eq {α β : Type} [BEq α] [LawfulBEq α] [DecidableEq α] (entry : α × β)
    (rest : List (α × β)) (key : α) :
    (entry :: rest).lookup key = if key = entry.1 then some entry.2 else rest.lookup key := by
  by_cases h : key = entry.1
  · rw [List.lookup_cons, beq_iff_eq.2 h, if_pos h]
  · rw [List.lookup_cons, beq_false_of_ne h, if_neg h]

/-- Whatever is written can be read back, so that nothing is left out. -/
theorem filterMap_map_of_inverse {α β : Type} {f : α → β} {g : β → Option α} (h : ∀ a, g (f a) = some a)
    (l : List α) : (l.map f).filterMap g = l := by
  have hcomp : g ∘ f = some := funext h
  rw [List.filterMap_map, hcomp, List.filterMap_some]

theorem map_eq_map_range_iff {α β : Type} {l : List α} {f : α → β} {g : Nat → β} :
    l.map f = (List.range l.length).map g ↔ ∀ i a, l[i]? = some a → f a = g i := by
  constructor
  · intro h i a ha
    have hi : i < l.length := (List.getElem?_eq_some_iff.1 ha).1
    have hget := congrArg (·[i]?) h
    simpa only [List.getElem?_map, ha, List.getElem?_range hi, Option.map_some, Option.some.injEq] using hget
  · intro h
    apply List.ext_getElem
    · rw [List.length_map, List.length_map, List.length_range]
    · intro i hi _
      rw [List.length_map] at hi
      rw [List.getElem_map, List.getElem_map, List.getElem_range]
      exact h i l[i] (List.getElem?_eq_getElem hi)

/-- Taking one element after the other from a list that is continued by `a` for ever. -/
theorem take_append_replicate_succ {α : Type} (l : List α) (a : α) (n : Nat) :
    l.take n ++ List.replicate (n - l.length) a ++ [(l.drop n).headD a] =
      l.take (n + 1) ++ List.replicate (n + 1 - l.length) a := by
  by_cases h : n < l.length
  · have hfirst : n - l.length = 0 := by omega
    have hnext : n + 1 - l.length = 0 := by omega
    have hhead : (l.drop n).headD a = l[n] := by rw [List.drop_eq_getElem_cons h, List.headD_cons]
    rw [hfirst, hnext, List.replicate_zero, List.append_nil, List.append_nil, hhead,
      List.take_append_getElem h]
  · have hle : l.length ≤ n := Nat.le_of_not_lt h
    have hnext : n + 1 - l.length = n - l.length + 1 := by omega
    rw [List.drop_eq_nil_of_le hle, List.headD_nil, List.take_of_length_le hle,
      List.take_of_length_le (by omega), hnext, List.replicate_succ', List.append_assoc]

/-- Beginnings of a list without repetitions are equal if they have the same members. -/
theorem prefix_eq_of_mem_iff {α : Type} {all first second : List α} (h : all.Nodup) (hfirst : first <+: all)
    (hsecond : second <+: all) (hmem : ∀ a, a ∈ first ↔ a ∈ second) : first = second := by
  -- what the longer one has behind the shorter one would have to be in the shorter one as well
  have hrest {short rest : List α} (hlong : short ++ rest <+: all) (hsub : ∀ a ∈ short ++ rest, a ∈ short) :
      rest = [] := by
    rw [List.eq_nil_iff_forall_not_mem]
    intro a ha
    have hdisjoint := (List.nodup_append.1 (h.sublist hlong.sublist)).2.2
    exact hdisjoint a (hsub a (List.mem_append_right _ ha)) a ha rfl
  rcases List.prefix_or_prefix_of_prefix hfirst hsecond with ⟨rest, rfl⟩ | ⟨rest, rfl⟩
  · rw [hrest hsecond fun a ha => (hmem a).2 ha, List.append_nil]
  · rw [hrest hfirst fun a ha => (hmem a).1 ha, List.append_nil]

end GraphBench
