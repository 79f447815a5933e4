import SourceLens.Text.Basic

/-!
# UTF-8

Syntax trees point into the UTF-8 form of a source. Encoding is per character. Decoding never fails:
where the bytes are not well formed, the longest start of a character that they spell is replaced by
one replacement character, and reading goes on at the byte that broke it.
-/

namespace SourceLens

/-- Text in its UTF-8 form. -/
abbrev Bytes := List UInt8

namespace Utf8

/-- The UTF-8 form of a text. -/
def encode (text : Text) : Bytes := text.flatMap String.utf8EncodeChar

/-- The number of bytes in the UTF-8 form of a text. -/
def size (text : Text) : Nat := (encode text).length

/-- The character that stands for bytes that are not UTF-8. -/
def replacement : Char := '\ufffd'

def isTail (b : UInt8) : Bool := 0x80 ≤ b && b ≤ 0xbf

/-- The second byte of a three-byte character: overlong forms and surrogates are left out. -/
def isSecondOfThree (lead b : UInt8) : Bool :=
  if lead = 0xe0 then 0xa0 ≤ b && b ≤ 0xbf
  else if lead = 0xed then 0x80 ≤ b && b ≤ 0x9f
  else isTail b

/-- The second byte of a four-byte character: overlong forms and numbers past the last character are
left out. -/
def isSecondOfFour (lead b : UInt8) : Bool :=
  if lead = 0xf0 then 0x90 ≤ b && b ≤ 0xbf
  else if lead = 0xf4 then 0x80 ≤ b && b ≤ 0x8f
  else isTail b

/-- The six payload bits of a byte that continues a character. -/
def payload (b : UInt8) : Nat := b.toNat % 64

/-- The text that bytes spell, with the replacement character where they spell none. -/
def decode : Bytes → Text
  | [] => []
  | a :: r =>
    if a < 0x80 then Char.ofNat a.toNat :: decode r
    else if 0xc2 ≤ a && a ≤ 0xdf then
      match r with
      | [] => [replacement]
      | b :: r =>
        if isTail b then Char.ofNat (a.toNat % 32 * 64 + payload b) :: decode r
        else replacement :: decode (b :: r)
    else if 0xe0 ≤ a && a ≤ 0xef then
      match r with
      | [] => [replacement]
      | b :: r =>
        if isSecondOfThree a b then
          match r with
          | [] => [replacement]
          | c :: r =>
            if isTail c then
              Char.ofNat ((a.toNat % 16 * 64 + payload b) * 64 + payload c) :: decode r
            else replacement :: decode (c :: r)
        else replacement :: decode (b :: r)
    else if 0xf0 ≤ a && a ≤ 0xf4 then
      match r with
      | [] => [replacement]
      | b :: r =>
        if isSecondOfFour a b then
          match r with
          | [] => [replacement]
          | c :: r =>
            if isTail c then
              match r with
              | [] => [replacement]
              | d :: r =>
                if isTail d then
                  Char.ofNat (((a.toNat % 8 * 64 + payload b) * 64 + payload c) * 64 + payload d)
                    :: decode r
                else replacement :: decode (d :: r)
            else replacement :: decode (c :: r)
        else replacement :: decode (b :: r)
    else replacement :: decode r

end Utf8

namespace Bytes

/-- The bytes from offset `start` up to offset `stop`. -/
def slice (start stop : Nat) (bytes : Bytes) : Bytes := (bytes.drop start).take (stop - start)

/-- The line feed. -/
def lineFeed : UInt8 := 10

/-- A place in a source: line feeds before it, and bytes since the last of them. -/
structure Point where
  row : Nat
  column : Nat
  deriving DecidableEq, Repr

def pointAt (offset : Nat) (bytes : Bytes) : Point :=
  let before := bytes.take offset
  let sinceFeed := before.reverse.takeWhile (· ≠ lineFeed)
  { row := before.count lineFeed, column := offset - (before.length - sinceFeed.length) }

end Bytes

end SourceLens
