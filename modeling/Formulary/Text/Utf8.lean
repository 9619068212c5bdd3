/-!
# UTF-8 with replacement

Text is written as UTF-8. Reading never fails: the longest start of a sequence that no byte can
continue becomes one replacement character, and the byte that broke it is read afresh.

## Main results

* `decodeUtf8_ascii`: bytes below 128 are read as the characters of the same number.
-/

namespace Formulary.Text

/-- The character that stands for unreadable bytes. -/
def replacement : Char := '\uFFFD'

/-- The UTF-8 bytes of a text. -/
def encodeUtf8 (s : String) : List UInt8 :=
  s.toList.flatMap String.utf8EncodeChar

/-- A **decoder** between two bytes: how many continuation bytes are owed, the bounds of the next
one, the value collected so far, and the characters read, the latest first. -/
structure Decoder where
  owed : Nat := 0
  low : Nat := 0x80
  high : Nat := 0xBF
  value : Nat := 0
  read : List Char := []

namespace Decoder

/-- The decoder after a byte that starts a character. -/
def start (read : List Char) (b : Nat) : Decoder :=
  if b < 0x80 then { read := Char.ofNat b :: read }
  else if 0xC2 ≤ b ∧ b ≤ 0xDF then { owed := 1, value := b - 0xC0, read }
  else if b = 0xE0 then { owed := 2, low := 0xA0, value := 0, read }
  else if b = 0xED then { owed := 2, high := 0x9F, value := 0xD, read }
  else if 0xE1 ≤ b ∧ b ≤ 0xEF then { owed := 2, value := b - 0xE0, read }
  else if b = 0xF0 then { owed := 3, low := 0x90, value := 0, read }
  else if 0xF1 ≤ b ∧ b ≤ 0xF3 then { owed := 3, value := b - 0xF0, read }
  else if b = 0xF4 then { owed := 3, high := 0x8F, value := 4, read }
  else { read := replacement :: read }

/-- The decoder after one more byte. -/
def step (d : Decoder) (byte : UInt8) : Decoder :=
  let b := byte.toNat
  match d.owed with
  | 0 => start d.read b
  | owed + 1 =>
    if d.low ≤ b ∧ b ≤ d.high then
      let value := d.value * 64 + (b - 0x80)
      match owed with
      | 0 => { read := Char.ofNat value :: d.read }
      | owed + 1 => { owed := owed + 1, value, read := d.read }
    else start (replacement :: d.read) b

/-- The characters read, with one replacement for a sequence that the end cuts off. -/
def finish (d : Decoder) : List Char :=
  (if d.owed = 0 then d.read else replacement :: d.read).reverse

end Decoder

/-- The text of a byte sequence, with replacements for what is not UTF-8. -/
def decodeUtf8 (bytes : List UInt8) : List Char :=
  (bytes.foldl Decoder.step {}).finish

/-! ### Plain ASCII -/

/-- A byte below 128 is a character of its own. -/
theorem Decoder.step_ascii (read : List Char) {b : UInt8} (h : b.toNat < 0x80) :
    Decoder.step { read := read } b = { read := Char.ofNat b.toNat :: read } := by
  simp [Decoder.step, Decoder.start, h]

/-- Bytes below 128 are added to what was read. -/
theorem Decoder.foldl_step_ascii (bytes : List UInt8) (read : List Char)
    (h : ∀ b ∈ bytes, b.toNat < 0x80) :
    bytes.foldl Decoder.step { read := read } =
      { read := (bytes.map fun b => Char.ofNat b.toNat).reverse ++ read } := by
  induction bytes generalizing read with
  | nil => rfl
  | cons b rest ih =>
    rw [List.foldl_cons, Decoder.step_ascii read (h b (by simp)),
      ih _ fun x hx => h x (by simp [hx])]
    simp

/-- Bytes below 128 are read as the characters of the same number. -/
theorem decodeUtf8_ascii (bytes : List UInt8) (h : ∀ b ∈ bytes, b.toNat < 0x80) :
    decodeUtf8 bytes = bytes.map fun b => Char.ofNat b.toNat := by
  simp [decodeUtf8, Decoder.foldl_step_ascii bytes [] h, Decoder.finish]

end Formulary.Text
