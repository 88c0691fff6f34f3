import GraphBench.Json.Reader
import GraphBench.Proofs.Json.Numbers

/-!
Compact JSON text reads back. A value is the reading of its own tokens, whatever stands around it, and the
compact text of a value has exactly these tokens as long as what follows it does not go on with a word.
-/

namespace GraphBench.Json

mutual

/-- The tokens of a value. -/
def tokens : Json → List Token
  | .string units => [.string units]
  | .array items => .openBracket :: (itemTokens items ++ [.closeBracket])
  | .object members => .openBrace :: (memberTokens members ++ [.closeBrace])
  | value => [.atom value]

/-- The tokens of the items of an array, with commas in between. -/
def itemTokens : List Json → List Token
  | [] => []
  | [value] => tokens value
  | value :: rest => tokens value ++ .comma :: itemTokens rest

/-- The tokens of the members of an object, with commas in between. -/
def memberTokens : List (List Glyph × Json) → List Token
  | [] => []
  | [(name, value)] => .string name :: .colon :: tokens value
  | (name, value) :: rest => .string name :: .colon :: (tokens value ++ .comma :: memberTokens rest)

end

theorem tokens_head (value : Json) : ∃ token rest, tokens value = token :: rest ∧ token ≠ .closeBracket := by
  cases value with
  | string units => exact ⟨.string units, [], by rw [tokens], Token.noConfusion⟩
  | array items => exact ⟨.openBracket, _, by rw [tokens], Token.noConfusion⟩
  | object members => exact ⟨.openBrace, _, by rw [tokens], Token.noConfusion⟩
  | null => exact ⟨.atom .null, [], by simp only [tokens], Token.noConfusion⟩
  | bool b => exact ⟨.atom (.bool b), [], by simp only [tokens], Token.noConfusion⟩
  | number n => exact ⟨.atom (.number n), [], by simp only [tokens], Token.noConfusion⟩

/-- In an empty array, an item is read as where a value is due. -/
theorem read_valueOrClose (frames : List Frame) {token : Token} (h : token ≠ .closeBracket)
    (rest : List Token) :
    (token :: rest).foldlM Reader.step (.reading (.items [] :: frames) .valueOrClose) =
      (token :: rest).foldlM Reader.step (.reading (.items [] :: frames) .value) := by
  have hstep : Reader.step (.reading (.items [] :: frames) .valueOrClose) token =
      Reader.step (.reading (.items [] :: frames) .value) token := by
    cases token <;> first | rfl | exact absurd rfl h
  rw [List.foldlM_cons, List.foldlM_cons, hstep]

/-- Reading goes on with a second list of tokens from where the first one led to. -/
theorem read_append {first second : List Token} {start middle : Reader}
    (h : first.foldlM Reader.step start = some middle) :
    (first ++ second).foldlM Reader.step start = second.foldlM Reader.step middle := by
  rw [List.foldlM_append, h, Option.bind_eq_bind, Option.bind_some]

mutual

/-- Where a value is due, its tokens deliver it. -/
theorem read_tokens (value : Json) (frames : List Frame) :
    (tokens value).foldlM Reader.step (.reading frames .value) = Reader.deliver? value frames := by
  cases value with
  | null | bool | number => simp [tokens, Reader.step, Reader.value?]
  | string units => simp [tokens, Reader.step, Reader.value?]
  | array items =>
    cases items with
    | nil => simp [tokens, itemTokens, Reader.step, Reader.value?]
    | cons item rest =>
      obtain ⟨token, more, htokens, htoken⟩ := tokens_head item
      obtain ⟨behind, hitems⟩ : ∃ behind, itemTokens (item :: rest) = token :: behind := by
        cases rest <;> simp [itemTokens, htokens]
      -- behind the bracket either an item or the end is due, and an item does not begin like the end
      have hread := read_items (item :: rest) (by simp) [] frames
      rw [tokens, List.foldlM_cons]
      change (itemTokens (item :: rest) ++ [Token.closeBracket]).foldlM Reader.step
        (.reading (.items [] :: frames) .valueOrClose) = _
      rw [hitems, List.cons_append, read_valueOrClose frames htoken, ← List.cons_append, ← hitems,
        read_append hread]
      simp [Reader.step]
  | object members =>
    cases members with
    | nil => simp [tokens, memberTokens, Reader.step, Reader.value?]
    | cons member rest =>
      have hread := read_members (member :: rest) (by simp) [] frames .nameOrClose (.inr rfl)
      rw [tokens, List.foldlM_cons]
      change (memberTokens (member :: rest) ++ [Token.closeBrace]).foldlM Reader.step
        (.reading (.entries [] :: frames) .nameOrClose) = _
      rw [read_append hread]
      simp [Reader.step]

/-- The tokens of items add these to an open array. -/
theorem read_items (items : List Json) (hne : items ≠ []) (done : List Json) (frames : List Frame) :
    (itemTokens items).foldlM Reader.step (.reading (.items done :: frames) .value) =
      some (.reading (.items (items.reverse ++ done) :: frames) .commaOrClose) := by
  match items with
  | [item] =>
    rw [itemTokens, read_tokens item]
    rfl
  | item :: next :: rest =>
    have hitem : (tokens item).foldlM Reader.step (.reading (.items done :: frames) .value) =
        some (.reading (.items (item :: done) :: frames) .commaOrClose) := read_tokens item _
    -- items are collected in reverse
    have hrest := read_items (next :: rest) (by simp) (item :: done) frames
    rw [itemTokens, read_append hitem, List.foldlM_cons]
    · change (itemTokens (next :: rest)).foldlM Reader.step
        (.reading (.items (item :: done) :: frames) .value) = _
      rw [hrest]
      simp
    · simp

/-- The tokens of members add these to an open object. -/
theorem read_members (members : List (List Glyph × Json)) (hne : members ≠ [])
    (done : List (List Glyph × Json)) (frames : List Frame) (due : Due)
    (hdue : due = .name ∨ due = .nameOrClose) :
    (memberTokens members).foldlM Reader.step (.reading (.entries done :: frames) due) =
      some (.reading (.entries (members.reverse ++ done) :: frames) .commaOrClose) := by
  have hname (name : List Glyph) :
      Reader.step (.reading (.entries done :: frames) due) (.string name) =
        some (.reading (.entry done name :: frames) .colon) := by
    rcases hdue with rfl | rfl
    · rfl
    · cases done <;> rfl
  match members with
  | [(name, value)] =>
    rw [memberTokens, List.foldlM_cons, hname]
    change (tokens value).foldlM Reader.step (.reading (.entry done name :: frames) .value) = _
    rw [read_tokens value]
    rfl
  | (name, value) :: next :: rest =>
    have hvalue : (tokens value).foldlM Reader.step (.reading (.entry done name :: frames) .value) =
        some (.reading (.entries ((name, value) :: done) :: frames) .commaOrClose) := read_tokens value _
    have hrest := read_members (next :: rest) (by simp) ((name, value) :: done) frames .name (.inl rfl)
    rw [memberTokens, List.foldlM_cons, hname]
    · change (tokens value ++ .comma :: memberTokens (next :: rest)).foldlM Reader.step
        (.reading (.entry done name :: frames) .value) = _
      rw [read_append hvalue, List.foldlM_cons]
      change (memberTokens (next :: rest)).foldlM Reader.step
        (.reading (.entries ((name, value) :: done) :: frames) .name) = _
      rw [hrest]
      simp
    · simp

end

/-- Between two tokens, a text is read as the given tokens and leads to between two tokens again. -/
def Lexes (text : List Char) (tokens : List Token) : Prop :=
  ∀ before, (text.map some).foldlM Lexer.step ⟨before, .between⟩ =
    some ⟨tokens.reverse ++ before, .between⟩

namespace Lexes

theorem append {first second : List Char} {ts us : List Token} (h : Lexes first ts)
    (h' : Lexes second us) : Lexes (first ++ second) (ts ++ us) := by
  intro before
  rw [List.map_append, List.foldlM_append, h before, Option.bind_eq_bind, Option.bind_some, h']
  simp only [List.reverse_append, List.append_assoc]

theorem punctuation {c : Char} {token : Token} (h : punctuation? c = some token)
    (hc : c ≠ '"' := by decide) (hs : isSpace c = false := by decide) : Lexes [c] [token] := by
  intro before
  simp [Lexer.step, Lexer.begin, h, hc, hs]

end Lexes

theorem pieceOfCode_control {c : Char} (h : c.toNat < 0x20) :
    pieceOfCode ((Hex.highHalf (UInt8.ofNat c.toNat)).val * 16 +
      (Hex.lowHalf (UInt8.ofNat c.toNat)).val) = .char c := by
  have hbyte : (UInt8.ofNat c.toNat).toNat = c.toNat := by
    rw [UInt8.toNat_ofNat']
    omega
  rw [Hex.halves_eq, hbyte, pieceOfCode, if_neg (by omega), Char.ofNat_toNat]

theorem step_code (before : List Token) (pieces : List Piece) (count value : Nat) (d : Fin 16) :
    Lexer.step ⟨before, .code pieces count value⟩ (some (Hex.digitChar d)) =
      some (if count = 3 then ⟨before, .string (pieceOfCode (value * 16 + d.val) :: pieces)⟩
        else ⟨before, .code pieces (count + 1) (value * 16 + d.val)⟩) := by
  simp [Lexer.step]

/-- The part of a string that is read where a unit was written. What is no character is written as the first half of
a surrogate pair. -/
def pieceOf : Glyph → Piece
  | some c => .char c
  | none => .surrogate 0xD800

/-- The escape of a unit adds this unit to the string that is being read. -/
theorem read_escape (before : List Token) (pieces : List Piece) (unit : Glyph) :
    ((escape unit).map some).foldlM Lexer.step ⟨before, .string pieces⟩ =
      some ⟨before, .string (pieceOf unit :: pieces)⟩ := by
  cases unit with
  | none => rfl
  | some c =>
    unfold escape
    split
    case h_1 h => cases h
    case h_9 hquote hback _ _ _ _ _ heq =>
      cases heq
      split
      · -- a control character is written as four digits, of which the first two are zero
        rename_i hcontrol
        have hzero : ('0' : Char) = Hex.digitChar 0 := by decide
        have hopen : Lexer.step ⟨before, .string pieces⟩ (some '\\') = some ⟨before, .escape pieces⟩ := rfl
        have hcode : Lexer.step ⟨before, .escape pieces⟩ (some 'u') = some ⟨before, .code pieces 0 0⟩ := rfl
        simp only [Hex.encodeByte, List.cons_append, List.nil_append, List.map_cons, List.map_nil,
          List.foldlM_cons, List.foldlM_nil, Option.bind_eq_bind, Option.bind_some, hopen, hcode, hzero,
          step_code]
        simp only [Nat.reduceEqDiff, Nat.reduceAdd, ↓reduceIte, Option.bind_some, step_code,
          Fin.isValue, Fin.val_zero, Nat.zero_mul, Nat.zero_add, pieceOfCode_control hcontrol]
        rfl
      · -- any other character stands for itself
        rename_i hplain
        simp only [List.map_cons, List.map_nil, List.foldlM_cons, List.foldlM_nil, Lexer.step,
          if_neg hquote, if_neg hback, if_neg hplain]
        rfl
    -- the short escapes have a letter each
    all_goals
      rename_i heq
      cases heq
      rfl

/-- First halves of surrogate pairs only make no pair. -/
theorem joinPieces_map_pieceOf (units : List Glyph) : joinPieces (units.map pieceOf) = units := by
  induction units with
  | nil => rfl
  | cons unit units ih =>
    cases unit with
    | some c => rw [List.map_cons, pieceOf, joinPieces, ih]
    | none =>
      cases units with
      | nil => rfl
      | cons next rest =>
        cases next with
        | some c => exact congrArg (none :: ·) ih
        | none =>
          have hpair : ¬(0xD800 < 0xDC00 ∧ 0xDC00 ≤ 0xD800) := by decide
          rw [List.map_cons, List.map_cons, pieceOf, joinPieces, if_neg hpair]
          exact congrArg (none :: ·) ih

theorem read_escapes (before : List Token) (pieces : List Piece) (units : List Glyph) :
    ((units.flatMap escape).map some).foldlM Lexer.step ⟨before, .string pieces⟩ =
      some ⟨before, .string ((units.map pieceOf).reverse ++ pieces)⟩ := by
  induction units generalizing pieces with
  | nil => rfl
  | cons unit units ih =>
    rw [List.flatMap_cons, List.map_append, List.foldlM_append, read_escape, Option.bind_eq_bind,
      Option.bind_some, ih]
    simp only [List.map_cons, List.reverse_cons, List.append_assoc, List.cons_append, List.nil_append]

/-- A string in quotes is one token. -/
theorem lexes_stringText (units : List Glyph) : Lexes (stringText units) [.string units] := by
  intro before
  have hopen : Lexer.step ⟨before, .between⟩ (some '"') = some ⟨before, .string []⟩ := rfl
  have hclose (pieces : List Piece) : Lexer.step ⟨before, .string pieces⟩ (some '"') =
      some ⟨.string (joinPieces pieces.reverse) :: before, .between⟩ := rfl
  rw [stringText, List.cons_append, List.map_cons, List.foldlM_cons, hopen, Option.bind_eq_bind,
    Option.bind_some, List.map_append, List.foldlM_append, read_escapes, Option.bind_eq_bind,
    Option.bind_some, List.map_cons, List.map_nil, List.foldlM_cons, hclose]
  simp only [List.append_nil, List.reverse_reverse, joinPieces_map_pieceOf]
  rfl

/-- The tokens of a text, behind what a lexer has read already. -/
def Lexer.read? (lexer : Lexer) (text : List Char) : Option (List Token) :=
  ((text.map some).foldlM step lexer).bind finish?

theorem Lexer.read?_cons {lexer next : Lexer} {c : Char} (h : lexer.step (some c) = some next) (text : List Char) :
    lexer.read? (c :: text) = next.read? text := by
  rw [read?, List.map_cons, List.foldlM_cons, h, Option.bind_eq_bind, Option.bind_some, read?]

/-- What comes first in a text does not go on with a word. -/
def BreaksWord (text : List Char) : Prop :=
  ∀ c ∈ text.head?, endsWord c = true

theorem breaksWord_nil : BreaksWord [] := by
  rintro _ ⟨⟩

theorem breaksWord_cons {c : Char} (text : List Char) (h : endsWord c = true) : BreaksWord (c :: text) := by
  rintro _ ⟨⟩
  exact h

/-- Between two tokens, a text is read as the given tokens if what comes behind it does not go on with a word. -/
def ReadsAs (text : List Char) (tokens : List Token) : Prop :=
  ∀ before rest, BreaksWord rest →
    Lexer.read? ⟨before, .between⟩ (text ++ rest) = Lexer.read? ⟨tokens.reverse ++ before, .between⟩ rest

theorem Lexes.read? {text : List Char} {ts : List Token} (h : Lexes text ts) (before : List Token)
    (rest : List Char) :
    Lexer.read? ⟨before, .between⟩ (text ++ rest) = Lexer.read? ⟨ts.reverse ++ before, .between⟩ rest := by
  rw [Lexer.read?, List.map_append, List.foldlM_append, h before, Option.bind_eq_bind, Option.bind_some,
    Lexer.read?]

namespace ReadsAs

variable {first second : List Char} {ts us : List Token} {c : Char} {token : Token}

theorem of_lexes (h : Lexes first ts) : ReadsAs first ts :=
  fun before rest _ => h.read? before rest

/-- Text that does not end within a word may stand in front. -/
theorem behind (h : Lexes first ts) (h' : ReadsAs second us) : ReadsAs (first ++ second) (ts ++ us) := by
  intro before rest hrest
  rw [List.append_assoc, h.read?, h' _ rest hrest, List.reverse_append, List.append_assoc]

theorem cons (h : ReadsAs second us) (hp : punctuation? c = some token)
    (hc : c ≠ '"' := by decide) (hs : isSpace c = false := by decide) : ReadsAs (c :: second) (token :: us) :=
  behind (.punctuation hp hc hs) h

/-- Text that begins with the end of a word may stand behind. -/
theorem append (h : ReadsAs first ts) (h' : ReadsAs (c :: second) us) (hc : endsWord c = true := by decide) :
    ReadsAs (first ++ c :: second) (ts ++ us) := by
  intro before rest hrest
  rw [List.append_assoc, List.cons_append, h before _ (breaksWord_cons _ hc), ← List.cons_append, h' _ rest hrest,
    List.reverse_append, List.append_assoc]

end ReadsAs

theorem read?_word (before : List Token) (letters : List Char) {text rest : List Char}
    (h : ∀ c ∈ text, endsWord c = false) :
    Lexer.read? ⟨before, .word letters⟩ (text ++ rest) =
      Lexer.read? ⟨before, .word (text.reverse ++ letters)⟩ rest := by
  induction text generalizing letters with
  | nil => rfl
  | cons c text ih =>
    have hstep : Lexer.step ⟨before, .word letters⟩ (some c) = some ⟨before, .word (c :: letters)⟩ := by
      simp only [Lexer.step, h c List.mem_cons_self, Bool.false_eq_true, ↓reduceIte]
    rw [List.cons_append, Lexer.read?_cons hstep, ih _ fun d hd => h d (List.mem_cons_of_mem _ hd),
      List.reverse_cons, List.append_assoc, List.singleton_append]

theorem begin_of_not_endsWord {c : Char} (h : endsWord c = false) (before : List Token) :
    Lexer.begin before c = ⟨before, .word [c]⟩ := by
  simp only [endsWord, decide_eq_false_iff_not, not_or, Bool.not_eq_true, Option.isSome_eq_false_iff,
    Option.isNone_iff_eq_none] at h
  obtain ⟨hquote, hspace, hpunctuation⟩ := h
  simp only [Lexer.begin, hquote, hspace, hpunctuation, Bool.false_eq_true, ↓reduceIte]

/-- A word is the token of its value, whether the text ends behind it or goes on. -/
theorem readsAs_word {word : List Char} {value : Json} (hne : word ≠ []) (h : ∀ c ∈ word, endsWord c = false)
    (hatom : atomOf? word = some value) : ReadsAs word [.atom value] := by
  intro before rest hrest
  have hword : Lexer.read? ⟨before, .between⟩ (word ++ rest) = Lexer.read? ⟨before, .word word.reverse⟩ rest := by
    obtain ⟨c, text, rfl⟩ := List.exists_cons_of_ne_nil hne
    have hbegin : Lexer.step ⟨before, .between⟩ (some c) = some ⟨before, .word [c]⟩ :=
      congrArg some (begin_of_not_endsWord (h c List.mem_cons_self) before)
    have htext : ∀ d ∈ text, endsWord d = false := fun d hd => h d (List.mem_cons_of_mem _ hd)
    rw [List.cons_append, Lexer.read?_cons hbegin, read?_word _ _ htext, List.reverse_cons]
  rw [hword]
  -- the word ends with the text, or where a character comes that cannot go on with it
  cases rest with
  | nil =>
    simp only [Lexer.read?, List.map_nil, List.foldlM_nil, Option.pure_def, Option.bind_some, Lexer.finish?,
      List.reverse_reverse, hatom, Option.map_some, List.reverse_singleton, List.singleton_append]
  | cons c rest =>
    have hend : Lexer.step ⟨before, .word word.reverse⟩ (some c) = some (Lexer.begin (.atom value :: before) c) := by
      have hc : endsWord c = true := hrest c rfl
      simp only [Lexer.step, hc, ↓reduceIte, List.reverse_reverse, hatom, Option.map_some]
    have hbetween : Lexer.step ⟨.atom value :: before, .between⟩ (some c) =
        some (Lexer.begin (.atom value :: before) c) := rfl
    rw [List.reverse_singleton, List.singleton_append, Lexer.read?_cons hend, Lexer.read?_cons hbetween]

mutual

/-- The compact text of a value is read as its tokens. -/
theorem readsAs_compact (value : Json) : ReadsAs value.compact (tokens value) := by
  cases value with
  | null => exact readsAs_word (by decide) (fun _ => not_endsWord_of_any rfl) rfl
  | bool b => cases b <;> exact readsAs_word (by decide) (fun _ => not_endsWord_of_any rfl) rfl
  | number n => exact readsAs_word n.text_ne_nil (fun _ => JsonNumber.not_endsWord_of_mem_text) n.atomOf?_text
  | string units =>
    rw [compact, tokens]
    exact .of_lexes (lexes_stringText units)
  | array items =>
    have hclose : ReadsAs [']'] [.closeBracket] := .of_lexes (.punctuation rfl)
    rw [compact, tokens]
    cases items with
    | nil => exact hclose.cons rfl
    -- the last item may be a word, which the bracket ends
    | cons item rest => exact ((readsAs_compactItems (item :: rest) (by simp)).append hclose).cons rfl
  | object members =>
    have hclose : ReadsAs ['}'] [.closeBrace] := .of_lexes (.punctuation rfl)
    rw [compact, tokens]
    cases members with
    | nil => exact hclose.cons rfl
    | cons member rest => exact ((readsAs_compactMembers (member :: rest) (by simp)).append hclose).cons rfl

theorem readsAs_compactItems (items : List Json) (hne : items ≠ []) :
    ReadsAs (compactItems items) (itemTokens items) := by
  match items with
  | [item] => exact readsAs_compact item
  | item :: next :: rest =>
    have hrest := readsAs_compactItems (next :: rest) (by simp)
    exact (readsAs_compact item).append (hrest.cons (c := ',') rfl)

theorem readsAs_compactMembers (members : List (List Glyph × Json)) (hne : members ≠ []) :
    ReadsAs (compactMembers members) (memberTokens members) := by
  match members with
  | [(name, value)] => exact .behind (lexes_stringText name) ((readsAs_compact value).cons (c := ':') rfl)
  | (name, value) :: next :: rest =>
    have hrest := readsAs_compactMembers (next :: rest) (by simp)
    have hvalue := (readsAs_compact value).append (hrest.cons (c := ',') rfl)
    rw [compactMembers, memberTokens, List.append_assoc]
    · exact .behind (lexes_stringText name) (hvalue.cons (c := ':') rfl)
    all_goals simp

end

/-- A text that is read as the tokens of a value denotes this value. -/
theorem ofChars?_of_readsAs {text : List Char} {value : Json} (h : ReadsAs text (tokens value)) :
    ofChars? text = some value := by
  have htokens : tokens? (text.map some) = some (tokens value) := by
    have hread := h [] [] breaksWord_nil
    rw [List.append_nil, List.append_nil] at hread
    change Lexer.read? ⟨[], .between⟩ text = _
    rw [hread]
    simp [Lexer.read?, Lexer.finish?]
  rw [ofChars?, parse?, htokens, Option.bind_some, read_tokens]
  rfl

/-- Every value is read back from its compact text. -/
theorem ofChars?_compact (value : Json) : ofChars? value.compact = some value :=
  ofChars?_of_readsAs (readsAs_compact value)

end GraphBench.Json
