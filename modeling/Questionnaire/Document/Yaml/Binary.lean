/-
# Bytes in YAML texts

Bytes are written to base sixty-four: a character gives six bits, and padding
fills the last group of four characters. Characters that are no digits do not
count, but all are ASCII.

Key definition: `sixtyFour?`.
-/

namespace Questionnaire.Yaml

/-- The value of a digit to base sixty-four. -/
def sextet? (c : Char) : Option Nat :=
  if 'A' ≤ c ∧ c ≤ 'Z' then some (c.toNat - 'A'.toNat)
  else if 'a' ≤ c ∧ c ≤ 'z' then some (c.toNat - 'a'.toNat + 26)
  else if '0' ≤ c ∧ c ≤ '9' then some (c.toNat - '0'.toNat + 52)
  else if c = '+' then some 62
  else if c = '/' then some 63
  else none

/-- The bytes of the digits that follow `place` others in their group, of which `kept` are the
bits not yet given away, and `pads` the padding characters right before. Enough padding ends
the bytes. -/
def sextetBytes (place kept pads : Nat) : List Char → Option (List UInt8)
  | [] => if place = 0 then some [] else none
  | c :: cs =>
    if c = '=' then
      if 2 ≤ place then
        if 4 ≤ place + pads + 1 then some [] else sextetBytes place kept (pads + 1) cs
      else sextetBytes place kept pads cs
    else match sextet? c with
      | none => sextetBytes place kept pads cs
      | some v =>
        let sum := 64 * kept + v
        match place with
        | 0 => sextetBytes 1 sum 0 cs
        | 1 => (sextetBytes 2 (sum % 16) 0 cs).map (UInt8.ofNat (sum / 16) :: ·)
        | 2 => (sextetBytes 3 (sum % 4) 0 cs).map (UInt8.ofNat (sum / 4) :: ·)
        | _ => (sextetBytes 0 0 0 cs).map (UInt8.ofNat sum :: ·)

/-- The bytes that characters write to base sixty-four. -/
def sixtyFour? (cs : List Char) : Option (List UInt8) :=
  if cs.all (·.toNat < 0x80) then sextetBytes 0 0 0 cs else none

example : sixtyFour? "aGVsbG8=".toList = some [104, 101, 108, 108, 111] := by decide
example : sixtyFour? "a".toList = none := by decide

end Questionnaire.Yaml
