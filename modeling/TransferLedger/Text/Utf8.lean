/-!
# UTF-8

Bytes read as text, with the place and the extent of the first fault.

* `encode`: the bytes of a text;
* `Fault`: where decoding stopped, and how many bytes no continuation can repair;
* `decode`: the text of the bytes, or the first fault;
* `decodeLossy`: the text of the bytes with a replacement character for each faulty sequence.

A fault without a length means that the bytes end inside a character which more bytes could
complete. A fault with a length counts the bytes that agree with some character, at least one.
-/

namespace TransferLedger.Text.Utf8

/-- The bytes of a text. -/
def encode (s : List Char) : List UInt8 :=
  s.flatMap String.utf8EncodeChar

/-- The first fault of some bytes: the length of the sound part before it, and the length of the
faulty sequence, absent when the bytes end too early. -/
structure Fault where
  validUpTo : Nat
  length : Option Nat
  deriving DecidableEq, Repr

/-- The wording of a fault. -/
def Fault.message (f : Fault) : String :=
  match f.length with
  | some n => s!"invalid utf-8 sequence of {n} bytes from index {f.validUpTo}"
  | none => s!"incomplete utf-8 byte sequence from index {f.validUpTo}"

/-- Whether a byte continues a character. -/
def isTail (b : UInt8) : Bool := 0x80 ≤ b && b ≤ 0xbf

/-- The six payload bits of a continuation byte. -/
def tailBits (b : UInt8) : Nat := b.toNat - 0x80

/-- Whether `b` may follow the lead byte `a` of a character of three bytes: overlong forms and
surrogates are left out. -/
def isSecondOfThree (a b : UInt8) : Bool :=
  isTail b && (a != 0xe0 || 0xa0 ≤ b) && (a != 0xed || b ≤ 0x9f)

/-- Whether `b` may follow the lead byte `a` of a character of four bytes: overlong forms and
numbers above `0x10ffff` are left out. -/
def isSecondOfFour (a b : UInt8) : Bool :=
  isTail b && (a != 0xf0 || 0x90 ≤ b) && (a != 0xf4 || b ≤ 0x8f)

/-- The character at the front of `a :: r` and what follows it; otherwise the length of the
faulty sequence, absent when the bytes end inside a character. -/
def decodeChar (a : UInt8) (r : List UInt8) : Except (Option Nat) (Char × List UInt8) :=
  if a < 0x80 then .ok (Char.ofNat a.toNat, r)
  else if 0xc2 ≤ a && a ≤ 0xdf then
    match r with
    | [] => .error none
    | b :: r =>
      if isTail b then .ok (Char.ofNat ((a.toNat - 0xc0) * 0x40 + tailBits b), r)
      else .error (some 1)
  else if 0xe0 ≤ a && a ≤ 0xef then
    match r with
    | [] => .error none
    | b :: r =>
      if isSecondOfThree a b then
        match r with
        | [] => .error none
        | c :: r =>
          if isTail c then
            .ok (Char.ofNat ((a.toNat - 0xe0) * 0x1000 + tailBits b * 0x40 + tailBits c), r)
          else .error (some 2)
      else .error (some 1)
  else if 0xf0 ≤ a && a ≤ 0xf4 then
    match r with
    | [] => .error none
    | b :: r =>
      if isSecondOfFour a b then
        match r with
        | [] => .error none
        | c :: r =>
          if isTail c then
            match r with
            | [] => .error none
            | d :: r =>
              if isTail d then
                .ok (Char.ofNat ((a.toNat - 0xf0) * 0x40000 + tailBits b * 0x1000 +
                  tailBits c * 0x40 + tailBits d), r)
              else .error (some 3)
          else .error (some 2)
      else .error (some 1)
  else .error (some 1)

/-- Decoding from the position `i`, with the characters before it in reverse. Each character
takes a byte at least, so as many turns as there are bytes are enough. -/
def decodeFrom : Nat → Nat → List Char → List UInt8 → Except Fault (List Char)
  | _, _, done, [] => .ok done.reverse
  | 0, i, _, _ :: _ => .error ⟨i, none⟩
  | turns + 1, i, done, a :: r =>
    match decodeChar a r with
    | .error n => .error ⟨i, n⟩
    | .ok (c, s) => decodeFrom turns (i + c.utf8Size) (c :: done) s

/-- The text of the bytes, or their first fault. -/
def decode (bytes : List UInt8) : Except Fault (List Char) :=
  decodeFrom bytes.length 0 [] bytes

/-- The character that stands for a faulty sequence. -/
def replacement : Char := '\uFFFD'

/-- Decoding with replacements for a number of turns. -/
def decodeLossyFrom : Nat → List UInt8 → List Char
  | _, [] => []
  | 0, _ :: _ => []
  | turns + 1, a :: r =>
    match decodeChar a r with
    | .ok (c, s) => c :: decodeLossyFrom turns s
    | .error none => [replacement]
    | .error (some n) => replacement :: decodeLossyFrom turns (r.drop (n - 1))

/-- The text of the bytes, a replacement character standing for each faulty sequence. -/
def decodeLossy (bytes : List UInt8) : List Char := decodeLossyFrom bytes.length bytes

end TransferLedger.Text.Utf8
