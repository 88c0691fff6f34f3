import GraphBench.Json.Basic
import GraphBench.Text.Hex

/-!
JSON text as tokens: punctuation, strings, and words. A word is a longest run of characters outside
strings that are neither punctuation nor blank; it must be a number, `null`, `true` or `false`.
-/

namespace GraphBench.Json

inductive Token where
  | openBracket
  | closeBracket
  | openBrace
  | closeBrace
  | comma
  | colon
  | string (units : List Glyph)
  | atom (value : Json)

/-- The digits at the front of a text, and what follows them. -/
def spanDigits : List Char → List (Fin 10) × List Char
  | [] => ([], [])
  | c :: cs =>
    match Decimal.digit? c with
    | none => ([], c :: cs)
    | some d => (d :: (spanDigits cs).1, (spanDigits cs).2)

/-- The power of ten behind the `e` of a number: an optional sign and at least one digit. -/
def powerOf? (cs : List Char) : Option Int :=
  match cs with
  | '+' :: cs => unsigned? cs
  | '-' :: cs => (unsigned? cs).map (- ·)
  | cs => unsigned? cs
where
  unsigned? (cs : List Char) : Option Int :=
    match spanDigits cs with
    | (d :: ds, []) => some (Decimal.ofDigits 0 (d :: ds))
    | _ => none

/-- The whole part of a number: zero, or digits that do not begin with zero. -/
def wholeOf? : List (Fin 10) → Option Nat
  | [] => none
  | [d] => some d.val
  | d :: ds => if d = Decimal.zeroDigit then none else some (Decimal.ofDigits 0 (d :: ds))

/-- What follows the digits of a number behind its point. -/
def scaledOf? (negative : Bool) (whole : Nat) (fraction : List (Fin 10)) : List Char → Option JsonNumber
  | [] => some ⟨negative, whole, fraction, none⟩
  | c :: cs =>
    if c = 'e' ∨ c = 'E' then (powerOf? cs).map fun power => ⟨negative, whole, fraction, some power⟩
    else none

def unsignedOf? (negative : Bool) (cs : List Char) : Option JsonNumber :=
  match wholeOf? (spanDigits cs).1, (spanDigits cs).2 with
  | none, _ => none
  | some whole, '.' :: cs =>
    if (spanDigits cs).1 = [] then none
    else scaledOf? negative whole (spanDigits cs).1 (spanDigits cs).2
  | some whole, cs => scaledOf? negative whole [] cs

def numberOf? : List Char → Option JsonNumber
  | '-' :: cs => unsignedOf? true cs
  | cs => unsignedOf? false cs

def atomOf? (word : List Char) : Option Json :=
  if word = ['n', 'u', 'l', 'l'] then some .null
  else if word = ['t', 'r', 'u', 'e'] then some (.bool true)
  else if word = ['f', 'a', 'l', 's', 'e'] then some (.bool false)
  else (numberOf? word).map .number

/-- A part of a string: a character, half of a surrogate pair, or a byte outside any character. -/
inductive Piece where
  | char (c : Char)
  | surrogate (code : Nat)
  | stray

/-- Joins the halves of surrogate pairs; a half without its partner is no character. -/
def joinPieces : List Piece → List Glyph
  | [] => []
  | .char c :: rest => some c :: joinPieces rest
  | .stray :: rest => none :: joinPieces rest
  | .surrogate high :: .surrogate low :: rest =>
    if high < 0xDC00 ∧ 0xDC00 ≤ low then
      some (Char.ofNat (0x10000 + (high - 0xD800) * 0x400 + (low - 0xDC00))) :: joinPieces rest
    else none :: joinPieces (.surrogate low :: rest)
  | .surrogate _ :: rest => none :: joinPieces rest

/-- The part of a string that an escape with a four digit code stands for. -/
def pieceOfCode (code : Nat) : Piece :=
  if 0xD800 ≤ code ∧ code < 0xE000 then .surrogate code else .char (Char.ofNat code)

/-- The character that a backslash and a letter stand for. -/
def escaped? : Char → Option Char
  | '"' => some '"'
  | '\\' => some '\\'
  | '/' => some '/'
  | 'b' => some '\x08'
  | 'f' => some '\x0c'
  | 'n' => some '\n'
  | 'r' => some '\r'
  | 't' => some '\t'
  | _ => none

/-- Where in a token the text stands. What has been read of the token is held in reverse; an escape code
is held as the number of its digits read and their value. -/
inductive TokenState where
  | between
  | word (letters : List Char)
  | string (pieces : List Piece)
  | escape (pieces : List Piece)
  | code (pieces : List Piece) (count value : Nat)

/-- Tokens read so far, the last one first, and the state within the next one. -/
structure Lexer where
  tokens : List Token
  state : TokenState

def isSpace (c : Char) : Bool :=
  c = ' ' ∨ c = '\t' ∨ c = '\n' ∨ c = '\r'

def punctuation? : Char → Option Token
  | '[' => some .openBracket
  | ']' => some .closeBracket
  | '{' => some .openBrace
  | '}' => some .closeBrace
  | ',' => some .comma
  | ':' => some .colon
  | _ => none

/-- Reads a character between two tokens. -/
def Lexer.begin (tokens : List Token) (c : Char) : Lexer :=
  if c = '"' then ⟨tokens, .string []⟩
  else if isSpace c then ⟨tokens, .between⟩
  else match punctuation? c with
    | some token => ⟨token :: tokens, .between⟩
    | none => ⟨tokens, .word [c]⟩

def endsWord (c : Char) : Bool :=
  c = '"' ∨ isSpace c ∨ (punctuation? c).isSome

def Lexer.step (lexer : Lexer) (g : Glyph) : Option Lexer :=
  match lexer.state, g with
  | .between, some c => some (Lexer.begin lexer.tokens c)
  | .word letters, some c =>
    if endsWord c then
      (atomOf? letters.reverse).map fun value => Lexer.begin (.atom value :: lexer.tokens) c
    else some ⟨lexer.tokens, .word (c :: letters)⟩
  | .string pieces, some c =>
    if c = '"' then some ⟨.string (joinPieces pieces.reverse) :: lexer.tokens, .between⟩
    else if c = '\\' then some ⟨lexer.tokens, .escape pieces⟩
    else if c.toNat < 0x20 then none
    else some ⟨lexer.tokens, .string (.char c :: pieces)⟩
  | .string pieces, none => some ⟨lexer.tokens, .string (.stray :: pieces)⟩
  | .escape pieces, some c =>
    if c = 'u' then some ⟨lexer.tokens, .code pieces 0 0⟩
    else (escaped? c).map fun c => ⟨lexer.tokens, .string (.char c :: pieces)⟩
  | .code pieces count value, some c =>
    (Hex.digit? c).map fun d =>
      if count = 3 then ⟨lexer.tokens, .string (pieceOfCode (value * 16 + d.val) :: pieces)⟩
      else ⟨lexer.tokens, .code pieces (count + 1) (value * 16 + d.val)⟩
  | _, none => none

/-- The tokens of a text that ends here. -/
def Lexer.finish? (lexer : Lexer) : Option (List Token) :=
  match lexer.state with
  | .between => some lexer.tokens.reverse
  | .word letters => (atomOf? letters.reverse).map fun value => (.atom value :: lexer.tokens).reverse
  | _ => none

def tokens? (text : List Glyph) : Option (List Token) :=
  (text.foldlM Lexer.step ⟨[], .between⟩).bind Lexer.finish?

end GraphBench.Json
