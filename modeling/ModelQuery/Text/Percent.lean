import ModelQuery.Text.Shown

/-!
# Percent signs in addresses

In an address a character may be written as the bytes of its encoding, each behind a per cent sign
in base sixteen. Reading takes the bytes back. Bytes that encode nothing become the replacement
character, one for each longest piece that begins well; a character that was not written as bytes
ends such a piece.
-/

namespace ModelQuery.Text

/-! ## Bytes -/

/-- The character that stands for bytes without a meaning. -/
def replacement : Char := '\ufffd'

/-- A character in the making: its bits so far, how many bytes are to come, and between what bounds
the next of them lies. -/
structure Begun where
  bits : Nat
  left : Nat
  low : Nat
  high : Nat
deriving DecidableEq, Repr

/-- What a first byte begins. -/
def Begun.ofFirst? (b : Nat) : Option Begun :=
  if 0xc2 ≤ b ∧ b ≤ 0xdf then some ⟨b - 0xc0, 1, 0x80, 0xbf⟩
  else if b = 0xe0 then some ⟨0, 2, 0xa0, 0xbf⟩
  else if b = 0xed then some ⟨0xd, 2, 0x80, 0x9f⟩
  else if 0xe1 ≤ b ∧ b ≤ 0xef then some ⟨b - 0xe0, 2, 0x80, 0xbf⟩
  else if b = 0xf0 then some ⟨0, 3, 0x90, 0xbf⟩
  else if 0xf1 ≤ b ∧ b ≤ 0xf3 then some ⟨b - 0xf0, 3, 0x80, 0xbf⟩
  else if b = 0xf4 then some ⟨4, 3, 0x80, 0x8f⟩
  else none

/-- A byte that begins something: what is finished, and what is in the making. -/
def firstByte (b : Nat) : List Char × Option Begun :=
  if b < 0x80 then ([Char.ofNat b], none)
  else match Begun.ofFirst? b with
    | some p => ([], some p)
    | none => ([replacement], none)

/-- One more byte for a character in the making. -/
def nextByte (p : Begun) (b : Nat) : List Char × Option Begun :=
  if p.low ≤ b ∧ b ≤ p.high then
    let bits := p.bits * 64 + (b - 0x80)
    if p.left ≤ 1 then ([Char.ofNat bits], none) else ([], some ⟨bits, p.left - 1, 0x80, 0xbf⟩)
  else
    let (done, rest) := firstByte b
    (replacement :: done, rest)

/-- One piece of a text: a byte, or a character that stands for itself. -/
inductive Piece where
  | byte (b : Nat)
  | char (c : Char)
deriving DecidableEq, Repr

/-- Pieces as characters, after a character in the making. -/
def charsOf (sofar : Option Begun) : List Piece → List Char
  | [] => if sofar.isSome then [replacement] else []
  | .byte b :: rest =>
    let (done, p) := match sofar with
      | some p => nextByte p b
      | none => firstByte b
    done ++ charsOf p rest
  | .char c :: rest => (if sofar.isSome then [replacement, c] else [c]) ++ charsOf none rest

/-! ## Signs -/

/-- The value of a digit in base sixteen. -/
def hexValue? (c : Char) : Option Nat :=
  if c.isDigit then some (c.toNat - '0'.toNat)
  else if 'a' ≤ c ∧ c ≤ 'f' then some (c.toNat - 'a'.toNat + 10)
  else if 'A' ≤ c ∧ c ≤ 'F' then some (c.toNat - 'A'.toNat + 10)
  else none

/-- A character that is no sign, as a piece. -/
def pieceOf (c : Char) : Piece := if c.toNat < 0x80 then .byte c.toNat else .char c

/-- The byte a text begins with, where it begins with a sign and two digits. -/
def sign? : List Char → Option Nat
  | '%' :: a :: b :: _ => do return 16 * (← hexValue? a) + (← hexValue? b)
  | _ => none

/-- The pieces of a text. A sign without two digits behind it stands for itself. So many characters
at the beginning were read already. -/
def piecesOf (passed : Nat) : List Char → List Piece
  | [] => []
  | c :: rest =>
    match passed, sign? (c :: rest) with
    | n + 1, _ => piecesOf n rest
    | 0, some b => .byte b :: piecesOf 2 rest
    | 0, none => pieceOf c :: piecesOf 0 rest

/-- A text with its signs read. -/
def percentDecoded (s : String) : String := String.ofList (charsOf none (piecesOf 0 s.toList))

/-- A character that always stands for itself. -/
def isUnreserved (c : Char) : Bool :=
  c.isAlphanum || c == '_' || c == '.' || c == '-' || c == '~'

/-- A byte behind its sign. -/
def byteSign (b : UInt8) : List Char :=
  '%' :: (hexDigits 2 b.toNat).map Char.toUpper

/-- A text with signs for all characters but those that stand for themselves. -/
def percentEncoded (safe : List Char) (s : String) : String :=
  String.ofList (s.toList.flatMap fun c =>
    if isUnreserved c || safe.contains c then [c]
    else (String.utf8EncodeChar c).flatMap byteSign)

end ModelQuery.Text
