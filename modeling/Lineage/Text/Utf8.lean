/-!
# Decoding UTF-8

A byte string is read as UTF-8 from the left. The first ill-formed place decides the answer:
`Fault.index` is where the sequence starts that cannot be completed, and `Fault.length` tells a
sequence cut short by the end of the input from one that is wrong, with the number of bytes that
still agreed with some character.

The second byte of a sequence is where the table of well-formed sequences is not uniform: after the
lead bytes `E0`, `ED`, `F0` and `F4` only a part of the continuation bytes may follow (the bounds in
`Lead`), which keeps out overlong forms, surrogates and numbers past the last code point.
-/

namespace Lineage.Text.Utf8

/-- Where a byte string stops being UTF-8. -/
structure Fault where
  /-- The number of bytes before the ill-formed sequence. -/
  index : Nat
  /-- The length of the ill-formed sequence; nothing if the input ends inside a sequence that was
  sound so far. -/
  length : Option Nat
deriving DecidableEq, Repr

/-- The text that tells of a fault. -/
def Fault.message (fault : Fault) : String :=
  match fault.length with
  | none => s!"incomplete utf-8 byte sequence from index {fault.index}"
  | some n => s!"invalid utf-8 sequence of {n} bytes from index {fault.index}"

/-- Bytes that go on a sequence. -/
def isContinuation (b : UInt8) : Bool :=
  0x80 ≤ b && b ≤ 0xBF

/-- What the first byte of a sequence announces: its length, and which second bytes may follow. -/
inductive Lead
  | one
  | two
  /-- A sequence of three bytes, the second between the bounds. -/
  | three (low high : UInt8)
  /-- A sequence of four bytes, the second between the bounds. -/
  | four (low high : UInt8)
  | invalid
deriving DecidableEq, Repr

def Lead.ofByte (b : UInt8) : Lead :=
  if b < 0x80 then .one
  else if b < 0xC2 then .invalid
  else if b < 0xE0 then .two
  else if b == 0xE0 then .three 0xA0 0xBF
  else if b == 0xED then .three 0x80 0x9F
  else if b < 0xF0 then .three 0x80 0xBF
  else if b == 0xF0 then .four 0x90 0xBF
  else if b < 0xF4 then .four 0x80 0xBF
  else if b == 0xF4 then .four 0x80 0x8F
  else .invalid

/-- The payload bits of a continuation byte. -/
def low6 (b : UInt8) : Nat :=
  b.toNat % 64

/-- Reads the rest of a byte string whose first `index` bytes gave the characters `done`,
last one first. -/
def decodeFrom (index : Nat) (done : List Char) : List UInt8 → Except Fault (List Char)
  | [] => .ok done.reverse
  | a :: rest =>
    -- Every byte is asked for before it is judged, which tells a sequence cut short from a wrong
    -- one.
    match Lead.ofByte a with
    | .one => decodeFrom (index + 1) (Char.ofNat a.toNat :: done) rest
    | .two =>
      match rest with
      | [] => .error ⟨index, none⟩
      | b :: rest =>
        if isContinuation b then
          decodeFrom (index + 2) (Char.ofNat (a.toNat % 32 * 64 + low6 b) :: done) rest
        else .error ⟨index, some 1⟩
    | .three low high =>
      match rest with
      | [] => .error ⟨index, none⟩
      | b :: rest =>
        if low ≤ b && b ≤ high then
          match rest with
          | [] => .error ⟨index, none⟩
          | c :: rest =>
            if isContinuation c then
              decodeFrom (index + 3) (Char.ofNat ((a.toNat % 16 * 64 + low6 b) * 64 + low6 c) ::
                done) rest
            else .error ⟨index, some 2⟩
        else .error ⟨index, some 1⟩
    | .four low high =>
      match rest with
      | [] => .error ⟨index, none⟩
      | b :: rest =>
        if low ≤ b && b ≤ high then
          match rest with
          | [] => .error ⟨index, none⟩
          | c :: rest =>
            if isContinuation c then
              match rest with
              | [] => .error ⟨index, none⟩
              | d :: rest =>
                if isContinuation d then
                  decodeFrom (index + 4)
                    (Char.ofNat (((a.toNat % 8 * 64 + low6 b) * 64 + low6 c) * 64 + low6 d) ::
                      done) rest
                -- The bytes that agreed make up the ill-formed sequence; the one that did not
                -- starts the next.
                else .error ⟨index, some 3⟩
            else .error ⟨index, some 2⟩
        else .error ⟨index, some 1⟩
    | .invalid => .error ⟨index, some 1⟩

/-- The text that a byte string encodes, or where it stops being UTF-8. -/
def decode (bytes : List UInt8) : Except Fault String :=
  match decodeFrom 0 [] bytes with
  | .ok chars => .ok (String.ofList chars)
  | .error fault => .error fault

def encode (text : String) : List UInt8 :=
  text.toList.flatMap String.utf8EncodeChar

end Lineage.Text.Utf8
