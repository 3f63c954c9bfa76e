import Colloquy.Chars.Quoted

/-!
# Reading UTF-8

Strict decoding of bytes. The first byte that cannot be part of a text is refused, with its place
and the reason: a byte that starts no character, a character broken off by a foreign byte, or one
broken off by the end of the data.
-/

namespace Colloquy.Utf8

/-- Why bytes are no text. -/
inductive Cause where
  | start
  | continuation
  | endOfData
  deriving DecidableEq, Repr

/-- The place and the reason of a failed reading. The bytes `first`, … from position `at` on,
`length` of them, begin a character and cannot complete it. -/
structure Failure where
  position : Nat
  length : Nat
  first : UInt8
  cause : Cause
  deriving DecidableEq, Repr

/-- A byte that can follow the first byte of a character. -/
def isContinuation (b : UInt8) : Bool :=
  0x80 ≤ b && b < 0xC0

/-- Whether `b` can be the second byte of a character that starts with `first`: among the
continuation bytes, those that make neither an overlong form, nor a surrogate, nor a value past
the last plane. -/
def isSecond (first b : UInt8) : Bool :=
  isContinuation b &&
    (if first == 0xE0 then 0xA0 ≤ b
     else if first == 0xED then b < 0xA0
     else if first == 0xF0 then 0x90 ≤ b
     else if first == 0xF4 then b < 0x90
     else true)

/-- The low six bits of a continuation byte. -/
def low (b : UInt8) : Nat :=
  b.toNat % 64

/-- The first character of the bytes `b :: bs`, with the number of bytes it takes, or the reason why
there is none, with the number of bytes that were fit to begin one. -/
def step (b : UInt8) (bs : List UInt8) : Except (Nat × Cause) (Nat × Char) :=
  if b < 0x80 then .ok (1, Char.ofNat b.toNat)
  else if b < 0xC2 || 0xF5 ≤ b then .error (1, .start)
  else
    match bs with
    | [] => .error (1, .endOfData)
    | b₂ :: bs =>
      if ! isSecond b b₂ then .error (1, .continuation)
      else if b < 0xE0 then .ok (2, Char.ofNat ((b.toNat - 0xC0) * 64 + low b₂))
      else
        match bs with
        | [] => .error (2, .endOfData)
        | b₃ :: bs =>
          if ! isContinuation b₃ then .error (2, .continuation)
          else if b < 0xF0 then
            .ok (3, Char.ofNat ((b.toNat - 0xE0) * 4096 + low b₂ * 64 + low b₃))
          else
            match bs with
            | [] => .error (3, .endOfData)
            | b₄ :: _ =>
              if ! isContinuation b₄ then .error (3, .continuation)
              else
                .ok (4, Char.ofNat
                  ((b.toNat - 0xF0) * 262144 + low b₂ * 4096 + low b₃ * 64 + low b₄))

/-- Decodes the bytes from `position` on. `skip` counts the bytes that belong to the character read
last; `done` holds the characters read so far, the last one first. -/
def decodeFrom : Nat → Nat → List Char → List UInt8 → Except Failure (List Char)
  | _, _, done, [] => .ok done.reverse
  | position, skip + 1, done, _ :: bs => decodeFrom (position + 1) skip done bs
  | position, 0, done, b :: bs =>
    match step b bs with
    | .ok (length, c) => decodeFrom (position + 1) (length - 1) (c :: done) bs
    | .error (length, cause) => .error ⟨position, length, b, cause⟩

/-- The text that bytes hold, if they hold one. -/
def decode (bytes : List UInt8) : Except Failure (List Char) :=
  decodeFrom 0 0 [] bytes

/-- The bytes of a text. -/
def encode (s : String) : List UInt8 :=
  s.toUTF8.toList

/-- The reason in words. -/
def Cause.message : Cause → String
  | .start => "invalid start byte"
  | .continuation => "invalid continuation byte"
  | .endOfData => "unexpected end of data"

/-- The failure in words. One byte is named by its value, several by their positions. -/
def Failure.message (failure : Failure) : String :=
  let subject :=
    if failure.length == 1 then
      s!"byte 0x{String.ofList (Chars.hexDigits 2 failure.first.toNat)} in position " ++
        toString failure.position
    else
      s!"bytes in position {failure.position}-{failure.position + failure.length - 1}"
  s!"'utf-8' codec can't decode {subject}: {failure.cause.message}"

end Colloquy.Utf8
