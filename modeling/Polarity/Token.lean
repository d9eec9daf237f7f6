import Polarity.Span
import Polarity.Text.Utf8
import Polarity.Text.Blank

/-!
# Tokens

A source falls into tokens that cover it: longest runs of white space, longest
runs of word characters, and every other character by itself.

* `tokenize`: the tokens of a source;
* `Lexeme.text_ofPieces`: together they are the source.
-/

namespace Polarity

/-- What a token is made of. -/
inductive TokenKind where
  | whitespace
  | identifier
  | punctuation
  /-- Nothing the tokenizer produces. -/
  | invalid
  deriving DecidableEq, Repr

namespace TokenKind

/-- The name of a kind of token. -/
def name : TokenKind → Text
  | .whitespace => "whitespace"
  | .identifier => "identifier"
  | .punctuation => "punctuation"
  | .invalid => "invalid"

/-- Whether neighbouring characters of this kind form one token. -/
def runs : TokenKind → Bool
  | .whitespace | .identifier => true
  | .punctuation | .invalid => false

end TokenKind

/-- A token with its place in the source. -/
structure Token where
  kind : TokenKind
  text : Text
  span : Span
  deriving DecidableEq, Repr

/-- Whether a character may stand in an identifier: an ASCII letter, digit or
underscore. -/
def isWordChar (c : Char) : Bool := c.isAlphanum || c == '_'

/-- The kind of token a piece of the source belongs to. -/
def Piece.kind (p : Piece) : TokenKind :=
  match p.char with
  | some c => if isBlank c then .whitespace else if isWordChar c then .identifier else .punctuation
  | none => .punctuation

/-- A token before it has a place: its kind and its text. -/
abbrev Lexeme := TokenKind × Text

namespace Lexeme

/-- Puts a piece in front of lexemes, joining it to the first one when both
belong to one run. -/
def push (p : Piece) : List Lexeme → List Lexeme
  | [] => [(p.kind, p.bytes)]
  | (kind, text) :: rest =>
    if p.kind = kind && kind.runs then (kind, p.bytes ++ text) :: rest
    else (p.kind, p.bytes) :: (kind, text) :: rest

/-- Groups the pieces of a source into longest runs. -/
def ofPieces (pieces : List Piece) : List Lexeme := pieces.foldr push []

/-- The text of some lexemes. -/
def text (lexemes : List Lexeme) : Text := lexemes.flatMap (·.2)

/-- Gives lexemes their places, the first one at `offset`. -/
def place : (offset : Nat) → List Lexeme → List Token
  | _, [] => []
  | offset, (kind, text) :: rest =>
    ⟨kind, text, .ofOffsets offset (offset + text.length)⟩ :: place (offset + text.length) rest

theorem text_push (p : Piece) (lexemes : List Lexeme) :
    text (push p lexemes) = p.bytes ++ text lexemes := by
  unfold push text
  split
  · simp
  · split <;> simp

/-- Lexemes hold the pieces they are made of. -/
theorem text_ofPieces (pieces : List Piece) : text (ofPieces pieces) = Piece.join pieces := by
  induction pieces with
  | nil => rfl
  | cons p rest ih => rw [ofPieces, List.foldr_cons, text_push, ← ofPieces, ih]; rfl

end Lexeme

/-- The tokens of a source. -/
def tokenize (source : Text) : List Token :=
  Lexeme.place 0 (Lexeme.ofPieces (Piece.split source))

end Polarity
