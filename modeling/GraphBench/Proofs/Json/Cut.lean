import GraphBench.Json.Reader

/-!
Objects that are cut short. The brace at the end of an object is its last token, and as long as it is missing something
is open, so that no strict beginning of the text denotes a value.
-/

namespace GraphBench.Json

namespace Lexer

theorem begin_tokens (tokens : List Token) (c : Char) : tokens <:+ (begin tokens c).tokens := by
  unfold begin
  split
  · exact List.suffix_rfl
  · split
    · exact List.suffix_rfl
    · split
      · exact List.suffix_cons _ _
      · exact List.suffix_rfl

/-- No token is taken back. -/
theorem step_tokens {lexer next : Lexer} {g : Glyph} (h : lexer.step g = some next) :
    lexer.tokens <:+ next.tokens := by
  obtain ⟨tokens, state⟩ := lexer
  cases g with
  | none =>
    cases state <;> simp only [step, Option.some.injEq, reduceCtorEq] at h
    subst h
    exact List.suffix_rfl
  | some c =>
    -- a token is finished by the character behind it, or by its closing quote
    cases state with
    | between =>
      simp only [step, Option.some.injEq] at h
      subst h
      exact begin_tokens tokens c
    | word letters =>
      simp only [step] at h
      split at h
      · obtain ⟨value, -, rfl⟩ := Option.map_eq_some_iff.1 h
        exact (List.suffix_cons _ _).trans (begin_tokens _ c)
      · cases h
        exact List.suffix_rfl
    | string pieces =>
      simp only [step] at h
      split at h
      · cases h
        exact List.suffix_cons _ _
      · split at h
        · cases h
          exact List.suffix_rfl
        · split at h <;> cases h
          exact List.suffix_rfl
    | escape pieces =>
      simp only [step] at h
      split at h
      · cases h
        exact List.suffix_rfl
      · obtain ⟨d, -, rfl⟩ := Option.map_eq_some_iff.1 h
        exact List.suffix_rfl
    | code pieces count value =>
      obtain ⟨d, -, rfl⟩ := Option.map_eq_some_iff.1 h
      split <;> exact List.suffix_rfl

theorem foldlM_tokens {lexer next : Lexer} {text : List Glyph} (h : text.foldlM step lexer = some next) :
    lexer.tokens <:+ next.tokens := by
  induction text generalizing lexer with
  | nil =>
    cases h
    exact List.suffix_rfl
  | cons g text ih =>
    rw [List.foldlM_cons] at h
    obtain ⟨between, hstep, hrest⟩ := Option.bind_eq_some_iff.1 h
    exact (step_tokens hstep).trans (ih hrest)

/-- A brace that ends a text is a token of its own, behind those that were read before. -/
theorem finish?_closeBrace {lexer next : Lexer} {tokens : List Token} (h : lexer.step (some '}') = some next)
    (hfinish : next.finish? = some tokens) : ∃ more, tokens = lexer.tokens.reverse ++ more ++ [.closeBrace] := by
  have hbegin (tokens : List Token) : begin tokens '}' = ⟨.closeBrace :: tokens, .between⟩ := rfl
  obtain ⟨before, state⟩ := lexer
  cases state with
  | between =>
    cases h
    cases hfinish
    exact ⟨[], by simp [hbegin]⟩
  | word letters =>
    obtain ⟨value, -, rfl⟩ := Option.map_eq_some_iff.1 h
    cases hfinish
    exact ⟨[.atom value], by simp [hbegin]⟩
  | string pieces =>
    -- inside a string the brace is a character
    cases h
    cases hfinish
  | escape pieces => cases h
  | code pieces count value =>
    have hdigit : Hex.digit? '}' = none := by decide
    simp only [step, hdigit, Option.map_none, reduceCtorEq] at h

/-- Where a text that a brace ends is cut, some token is still missing. -/
theorem tokens?_cut {cut rest : List Glyph} {tokens : List Token}
    (h : tokens? (cut ++ rest ++ [some '}']) = some tokens) :
    ∃ lexer more, cut.foldlM step ⟨[], .between⟩ = some lexer ∧ more ≠ [] ∧
      tokens = lexer.tokens.reverse ++ more := by
  obtain ⟨last, hlast, hfinish⟩ := Option.bind_eq_some_iff.1 h
  rw [List.foldlM_append] at hlast
  obtain ⟨inner, hinner, hbrace⟩ := Option.bind_eq_some_iff.1 hlast
  rw [List.foldlM_append] at hinner
  obtain ⟨lexer, hcut, hrest⟩ := Option.bind_eq_some_iff.1 hinner
  obtain ⟨between, hsuffix⟩ := foldlM_tokens hrest
  rw [List.foldlM_cons] at hbrace
  obtain ⟨_, hstep, ⟨⟩⟩ := Option.bind_eq_some_iff.1 hbrace
  obtain ⟨more, htokens⟩ := finish?_closeBrace hstep hfinish
  refine ⟨lexer, between.reverse ++ more ++ [.closeBrace], hcut, by simp, ?_⟩
  rw [htokens, ← hsuffix, List.reverse_append]
  simp only [List.append_assoc]

end Lexer

namespace Reader

def IsOpen : Reader → Prop
  | .reading frames _ => frames ≠ []
  | .finished _ => False

theorem step_finished (value : Json) (token : Token) : step (.finished value) token = none := by
  cases token <;> rfl

/-- A value that is delivered leaves a container open or finishes the text. -/
theorem deliver?_open {value : Json} {frames : List Frame} {next : Reader} (h : deliver? value frames = some next) :
    next.IsOpen ∨ ∃ value, next = .finished value := by
  cases frames with
  | nil =>
    cases h
    exact .inr ⟨value, rfl⟩
  | cons frame frames =>
    cases frame with
    | items | entry =>
      cases h
      exact .inl (List.cons_ne_nil _ _)
    | entries => cases h

theorem value?_open {frames : List Frame} {token : Token} {next : Reader} (h : value? frames token = some next) :
    next.IsOpen ∨ ∃ value, next = .finished value := by
  cases token with
  | atom value => exact deliver?_open h
  | string units => exact deliver?_open h
  | openBracket | openBrace =>
    cases h
    exact .inl (List.cons_ne_nil _ _)
  | closeBracket | closeBrace | comma | colon => cases h

theorem name?_open {frames : List Frame} {token : Token} {next : Reader} (h : name? frames token = some next) :
    next.IsOpen := by
  unfold name? at h
  split at h <;> cases h
  exact List.cons_ne_nil _ _

/-- The first token opens a container or is the whole value, and so does any token inside a container. -/
theorem step_open {reader next : Reader} {token : Token} (hreader : reader = .reading [] .value ∨ reader.IsOpen)
    (h : reader.step token = some next) : next.IsOpen ∨ ∃ value, next = .finished value := by
  unfold step at h
  split at h
  case h_1 => exact value?_open h
  case h_2 => exact deliver?_open h
  case h_3 => exact value?_open h
  case h_4 => exact .inl (name?_open h)
  case h_5 => exact deliver?_open h
  case h_6 => exact .inl (name?_open h)
  case h_7 =>
    cases h
    exact .inl (hreader.resolve_left (by simp))
  case h_8 | h_9 =>
    cases h
    exact .inl (List.cons_ne_nil _ _)
  case h_10 => exact deliver?_open h
  case h_11 => exact deliver?_open h
  case h_12 => cases h

/-- Behind the first token something is open, or the value is finished. -/
theorem foldlM_open {reader next : Reader} {tokens : List Token}
    (hreader : reader.IsOpen ∨ ∃ value, reader = .finished value) (h : tokens.foldlM step reader = some next) : next.IsOpen ∨ ∃ value, next = .finished value := by
  induction tokens generalizing reader with
  | nil =>
    cases h
    exact hreader
  | cons token tokens ih =>
    rw [List.foldlM_cons] at h
    obtain ⟨between, hstep, hrest⟩ := Option.bind_eq_some_iff.1 h
    rcases hreader with hopen | ⟨value, rfl⟩
    · exact ih (step_open (.inr hopen) hstep) hrest
    · rw [step_finished] at hstep
      cases hstep

theorem finish?_open {reader : Reader} (h : reader.IsOpen) : reader.finish? = none := by
  cases reader with
  | reading frames due => rfl
  | finished value => exact h.elim

/-- Inside a container, a word does not finish the value. -/
theorem finish?_step_atom {reader : Reader} (h : reader.IsOpen) (value : Json) :
    (reader.step (.atom value)).bind finish? = none := by
  obtain ⟨frames, due⟩ | value := reader
  · obtain _ | ⟨frame, frames⟩ := frames
    · exact absurd rfl h
    · cases due <;> cases frame <;> simp [step, value?, deliver?, name?, finish?]
  · exact h.elim

/-- Inside an object whose tokens go on, the reader is open. -/
theorem foldlM_openBrace {tokens more : List Token} {reader : Reader} (hmore : more ≠ [])
    (h : (.openBrace :: tokens ++ more).foldlM step (.reading [] .value) = some reader) :
    ∃ between, (.openBrace :: tokens).foldlM step (.reading [] .value) = some between ∧ between.IsOpen := by
  rw [List.foldlM_append] at h
  obtain ⟨between, htokens, hrest⟩ := Option.bind_eq_some_iff.1 h
  refine ⟨between, htokens, ?_⟩
  have hbrace : step (.reading [] .value) .openBrace = some (.reading [.entries []] .nameOrClose) := rfl
  rw [List.foldlM_cons, hbrace, Option.bind_eq_bind, Option.bind_some] at htokens
  have hentries : (reading [.entries []] .nameOrClose).IsOpen := List.cons_ne_nil _ _
  rcases foldlM_open (.inl hentries) htokens with hopen | ⟨value, rfl⟩
  · exact hopen
  · -- behind a finished value nothing can follow
    obtain ⟨token, more, rfl⟩ := List.exists_cons_of_ne_nil hmore
    rw [List.foldlM_cons, step_finished] at hrest
    cases hrest

/-- A text that ends inside a container denotes no value. -/
theorem finish?_eq_none {lexer : Lexer} {reader : Reader} (hopen : reader.IsOpen)
    (h : lexer.tokens.reverse.foldlM step (.reading [] .value) = some reader) :
    (lexer.finish?.bind fun tokens => (tokens.foldlM step (.reading [] .value)).bind finish?) = none := by
  obtain ⟨tokens, state⟩ := lexer
  cases state with
  | between =>
    simp only [Lexer.finish?, Option.bind_some, h]
    exact finish?_open hopen
  | word letters =>
    -- the end of the text may end a word
    simp only [Lexer.finish?] at h ⊢
    cases atomOf? letters.reverse with
    | none => rfl
    | some value =>
      have hword : (.atom value :: tokens).reverse.foldlM step (.reading [] .value) = reader.step (.atom value) := by
        rw [List.reverse_cons, List.foldlM_append, h]
        simp
      rw [Option.map_some, Option.bind_some, hword]
      exact finish?_step_atom hopen value
  | string pieces => rfl
  | escape pieces => rfl
  | code pieces count value => rfl

end Reader

/-- A text that denotes a value and is one pair of braces denotes none when it is cut before its last brace. -/
theorem parse?_cut {inner cut : List Glyph} {value : Json} (h : parse? (some '{' :: inner ++ [some '}']) = some value)
    (hcut : cut <+: some '{' :: inner) : parse? cut = none := by
  obtain ⟨rest, hrest⟩ := hcut
  cases cut with
  | nil => rfl
  | cons g cut =>
    obtain ⟨rfl, hinner⟩ := List.cons.inj hrest
    rw [← hrest] at h
    obtain ⟨tokens, htokens, hvalue⟩ := Option.bind_eq_some_iff.1 h
    obtain ⟨last, hlast, -⟩ := Option.bind_eq_some_iff.1 hvalue
    obtain ⟨lexer, more, hlexer, hmore, rfl⟩ := Lexer.tokens?_cut htokens
    -- the brace that the text begins with is the first of the tokens
    let begun : Lexer := ⟨[.openBrace], .between⟩
    obtain ⟨read, hread⟩ : begun.tokens <:+ lexer.tokens := Lexer.foldlM_tokens hlexer
    have htokens' : lexer.tokens.reverse = .openBrace :: read.reverse := by
      rw [← hread, List.reverse_append]
      rfl
    rw [htokens'] at hlast
    obtain ⟨reader, hreader, hopen⟩ := Reader.foldlM_openBrace hmore hlast
    rw [← htokens'] at hreader
    rw [parse?, tokens?, hlexer, Option.bind_some]
    exact Reader.finish?_eq_none hopen hreader

end GraphBench.Json
