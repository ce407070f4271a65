import Reqx.Library.Text

/-!
# Lossy decoding of UTF-8

A decoder that reads one byte at a time. Every maximal prefix of a sequence
that cannot be continued to a scalar value gives one replacement character.
-/

namespace Utf8

/-- Between two scalar values, or inside one: how many bytes are missing, the
range of the next byte, and the bits read so far. -/
inductive State where
  | ready
  | pending (missing low high bits : ℕ)
  deriving DecidableEq, Repr

def replacement : Char := Char.ofNat 0xFFFD

def lead (b : ℕ) : Text × State :=
  if b < 0x80 then ([Char.ofNat b], .ready)
  else if 0xC2 ≤ b ∧ b ≤ 0xDF then ([], .pending 1 0x80 0xBF (b % 32))
  else if b = 0xE0 then ([], .pending 2 0xA0 0xBF 0)
  else if b = 0xED then ([], .pending 2 0x80 0x9F 0xD)
  else if 0xE1 ≤ b ∧ b ≤ 0xEF then ([], .pending 2 0x80 0xBF (b % 16))
  else if b = 0xF0 then ([], .pending 3 0x90 0xBF 0)
  else if b = 0xF4 then ([], .pending 3 0x80 0x8F 4)
  else if 0xF1 ≤ b ∧ b ≤ 0xF3 then ([], .pending 3 0x80 0xBF (b % 8))
  else ([replacement], .ready)

def feed (s : State) (b : ℕ) : Text × State :=
  match s with
  | .ready => lead b
  | .pending missing low high bits =>
    if low ≤ b ∧ b ≤ high then
      if missing ≤ 1 then ([Char.ofNat (bits * 64 + b % 64)], .ready)
      else ([], .pending (missing - 1) 0x80 0xBF (bits * 64 + b % 64))
    else (replacement :: (lead b).1, (lead b).2)

def decodeFrom : State → List UInt8 → Text
  | .ready, [] => []
  | .pending .., [] => [replacement]
  | s, b :: bs => (feed s b.toNat).1 ++ decodeFrom (feed s b.toNat).2 bs

def fromUtf8Lossy (bytes : List UInt8) : Text := decodeFrom .ready bytes

example : fromUtf8Lossy [0x61, 0xC3, 0xA9, 0xF0, 0x9F, 0x62] = ['a', 'é', replacement, 'b'] := by
  decide

end Utf8
