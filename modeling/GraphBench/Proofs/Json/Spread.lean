import GraphBench.Proofs.Json.Compact

/-!
JSON text that is spread over lines reads back. Blanks stand between tokens only, so that the text has the same tokens
as the compact one.
-/

namespace GraphBench.Json

theorem Lexes.blank {text : List Char} (h : ∀ c ∈ text, isSpace c = true) : Lexes text [] := by
  intro before
  induction text with
  | nil => rfl
  | cons c text ih =>
    have hspace : isSpace c = true := h c List.mem_cons_self
    have hquote : c ≠ '"' := by
      rintro rfl
      exact absurd hspace (by decide)
    have hstep : Lexer.step ⟨before, .between⟩ (some c) = some ⟨before, .between⟩ := by
      simp only [Lexer.step, Lexer.begin, hquote, hspace, ↓reduceIte]
    rw [List.map_cons, List.foldlM_cons, hstep, Option.bind_eq_bind, Option.bind_some,
      ih fun d hd => h d (List.mem_cons_of_mem _ hd)]

theorem lexes_newLine (depth : Nat) : Lexes (newLine depth) [] := by
  refine .blank fun c hc => ?_
  rcases List.mem_cons.1 hc with rfl | hc
  · rfl
  · rw [List.eq_of_mem_replicate hc]
    rfl

/-- A name, its colon and the value behind them, on a line of their own. -/
theorem readsAs_member (depth : Nat) (name : List Glyph) {text : List Char} {ts : List Token} (h : ReadsAs text ts) :
    ReadsAs (newLine depth ++ stringText name ++ ':' :: ' ' :: text) (.string name :: .colon :: ts) := by
  have hblank : Lexes [' '] [] := .blank (List.forall_mem_singleton.2 rfl)
  have hvalue : ReadsAs (' ' :: text) ts := .behind hblank h
  exact .behind ((lexes_newLine depth).append (lexes_stringText name)) (hvalue.cons (c := ':') rfl)

/-- The end of a container, on a line of its own, ends a word in front of it. -/
theorem ReadsAs.closed {text : List Char} {ts : List Token} (h : ReadsAs text ts) (depth : Nat) {c : Char}
    {token : Token} (hp : punctuation? c = some token) (hc : c ≠ '"' := by decide)
    (hs : isSpace c = false := by decide) : ReadsAs (text ++ newLine depth ++ [c]) (ts ++ [token]) := by
  have hclose : Lexes (newLine depth ++ [c]) [token] := (lexes_newLine depth).append (.punctuation hp hc hs)
  rw [List.append_assoc]
  exact h.append (.of_lexes hclose)

mutual

/-- The text of a value that is spread over lines is read as its tokens. -/
theorem readsAs_spread (depth : Nat) (value : Json) : ReadsAs (value.spread depth) (tokens value) := by
  cases value with
  | null => exact readsAs_compact .null
  | bool b => exact readsAs_compact (.bool b)
  | number n => exact readsAs_compact (.number n)
  | string units => exact readsAs_compact (.string units)
  | array items =>
    cases items with
    | nil => exact readsAs_compact (.array [])
    | cons item rest =>
      rw [spread, tokens]
      exact ((readsAs_spreadItems (depth + 1) (item :: rest) (by simp)).closed depth rfl).cons rfl
  | object members =>
    cases members with
    | nil => exact readsAs_compact (.object [])
    | cons member rest =>
      rw [spread, tokens]
      exact ((readsAs_spreadMembers (depth + 1) (member :: rest) (by simp)).closed depth rfl).cons rfl

theorem readsAs_spreadItems (depth : Nat) (items : List Json) (hne : items ≠ []) :
    ReadsAs (spreadItems depth items) (itemTokens items) := by
  match items with
  | [item] => exact .behind (lexes_newLine depth) (readsAs_spread depth item)
  | item :: next :: rest =>
    have hitem : ReadsAs (newLine depth ++ item.spread depth) (tokens item) :=
      .behind (lexes_newLine depth) (readsAs_spread depth item)
    have hrest := readsAs_spreadItems depth (next :: rest) (by simp)
    exact hitem.append (hrest.cons (c := ',') rfl)

theorem readsAs_spreadMembers (depth : Nat) (members : List (List Glyph × Json)) (hne : members ≠ []) :
    ReadsAs (spreadMembers depth members) (memberTokens members) := by
  match members with
  | [(name, value)] => exact readsAs_member depth name (readsAs_spread depth value)
  | (name, value) :: next :: rest =>
    have hmember := readsAs_member depth name (readsAs_spread depth value)
    have hrest := readsAs_spreadMembers depth (next :: rest) (by simp)
    exact hmember.append (hrest.cons (c := ',') rfl)

end

/-- Every value is read back from the text that spreads it over lines. -/
theorem ofChars?_spread (value : Json) : ofChars? (value.spread 0) = some value :=
  ofChars?_of_readsAs (readsAs_spread 0 value)

end GraphBench.Json
