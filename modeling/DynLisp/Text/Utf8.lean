/-! # Decoding UTF-8

A byte below `0x80` is a character.  Any other character is a leading byte and one to three
continuation bytes; the leading byte fixes their number and the range of the first of them, so that
each character has one form and surrogates have none.  Decoding is strict: at a byte that does not
fit it fails, naming the bytes of the unfinished character. -/

namespace DynLisp.Text.Utf8

/-- What is wrong with a byte sequence. -/
inductive Fault where
  | invalidStart
  | invalidContinuation
  | unexpectedEnd
deriving DecidableEq, Repr

/-- The place of a fault: positions of the first and the last byte concerned, and the first byte. -/
structure DecodeError where
  fault : Fault
  first : Nat
  last : Nat
  byte : Nat
deriving DecidableEq, Repr

/-- A character that is not complete. -/
structure Partial where
  /-- The position of its first byte. -/
  start : Nat
  lead : Nat
  /-- The bits read so far. -/
  bits : Nat
  /-- The continuation bytes still to come. -/
  missing : Nat
  /-- The range of the next of them. -/
  low : Nat
  high : Nat

/-- What a leading byte begins. -/
def begin? (position byte : Nat) : Option Partial :=
  if 0xc2 ≤ byte && byte ≤ 0xdf then some ⟨position, byte, byte - 0xc0, 1, 0x80, 0xbf⟩
  else if byte = 0xe0 then some ⟨position, byte, 0, 2, 0xa0, 0xbf⟩
  else if byte = 0xed then some ⟨position, byte, 0xd, 2, 0x80, 0x9f⟩
  else if 0xe1 ≤ byte && byte ≤ 0xef then some ⟨position, byte, byte - 0xe0, 2, 0x80, 0xbf⟩
  else if byte = 0xf0 then some ⟨position, byte, 0, 3, 0x90, 0xbf⟩
  else if byte = 0xf4 then some ⟨position, byte, 4, 3, 0x80, 0x8f⟩
  else if 0xf1 ≤ byte && byte ≤ 0xf3 then some ⟨position, byte, byte - 0xf0, 3, 0x80, 0xbf⟩
  else none

/-- The fault of a character that stops before `position`. -/
def Partial.faultAt (p : Partial) (fault : Fault) (position : Nat) : DecodeError :=
  ⟨fault, p.start, position - 1, p.lead⟩

/-- Decodes the bytes from `position` on, where the characters in `done` have been met, in reverse,
and perhaps a part of another. -/
def decodeFrom (position : Nat) (done : List Char) :
    Option Partial → List UInt8 → Except DecodeError (List Char)
  | none, [] => .ok done.reverse
  | some p, [] => .error (p.faultAt .unexpectedEnd position)
  | none, byte :: rest =>
    if byte.toNat < 0x80 then
      decodeFrom (position + 1) (Char.ofNat byte.toNat :: done) none rest
    else
      match begin? position byte.toNat with
      | some p => decodeFrom (position + 1) done (some p) rest
      | none => .error ⟨.invalidStart, position, position, byte.toNat⟩
  | some p, byte :: rest =>
    if p.low ≤ byte.toNat && byte.toNat ≤ p.high then
      let bits := p.bits * 64 + byte.toNat % 64
      if p.missing ≤ 1 then decodeFrom (position + 1) (Char.ofNat bits :: done) none rest
      else
        let p := ⟨p.start, p.lead, bits, p.missing - 1, 0x80, 0xbf⟩
        decodeFrom (position + 1) done (some p) rest
    else .error (p.faultAt .invalidContinuation position)

/-- The characters of a byte sequence. -/
def decode (bytes : List UInt8) : Except DecodeError (List Char) :=
  decodeFrom 0 [] none bytes

def Fault.message : Fault → String
  | invalidStart => "invalid start byte"
  | invalidContinuation => "invalid continuation byte"
  | unexpectedEnd => "unexpected end of data"

def DecodeError.message (e : DecodeError) : String :=
  let place :=
    if e.first = e.last then
      "byte 0x" ++ .ofList (Nat.toDigits 16 e.byte) ++ " in position " ++ toString e.first
    else "bytes in position " ++ toString e.first ++ "-" ++ toString e.last
  "'utf-8' codec can't decode " ++ place ++ ": " ++ e.fault.message

end DynLisp.Text.Utf8
