import KpiReport.Text.Quoted

/-!
# Fingerprints

A query is recognised by the 64-bit CityHash of its text, written as sixteen hexadecimal digits.
The hash reads a text of more than 64 bytes in blocks of 64. Shorter texts would be hashed in other
ways, which are left out: the text of every report is longer than that, as
`Service.fingerprint_of_report` shows. A byte outside the text counts as zero.
-/

namespace KpiReport.Fingerprint

/-- The byte at a place. -/
def byteAt (b : ByteArray) (i : Nat) : UInt64 :=
  if h : i < b.size then b[i].toUInt64 else 0

/-- The eight bytes from a place on as a word, the lowest one first. -/
def wordAt (b : ByteArray) (i : Nat) : UInt64 :=
  (List.range 8).foldr (fun k w => w <<< 8 ||| byteAt b (i + k)) 0

/-- Rotates a word to the right. -/
def rotate (v : UInt64) (n : UInt64) : UInt64 :=
  v >>> n ||| v <<< (64 - n)

/-- Folds the high bits of a word onto its low ones. -/
def mix (v : UInt64) : UInt64 :=
  v ^^^ (v >>> 47)

/-- A large odd constant, used as a multiplier and as a seed. -/
def k0 : UInt64 := 0xc3a5c85c97cb3127

/-- Another such constant. -/
def k1 : UInt64 := 0xb492b66fbe98f273

/-- The multiplier of `combine`. -/
def k2 : UInt64 := 0x9ddfea08eb382d69

/-- Hashes two words into one. -/
def combine (lo hi : UInt64) : UInt64 :=
  let a := mix ((lo ^^^ hi) * k2)
  mix ((hi ^^^ a) * k2) * k2

/-- Hashes the 32 bytes from a place on into two seeds. -/
def weak (text : ByteArray) (i : Nat) (a b : UInt64) : UInt64 × UInt64 :=
  let w := wordAt text i
  let x := wordAt text (i + 8)
  let y := wordAt text (i + 16)
  let z := wordAt text (i + 24)
  let a := a + w
  let b := rotate (b + a + z) 21
  let c := a
  let a := a + x + y
  let b := b + rotate a 44
  (a + z, b + c)

/-- What the hash remembers between two blocks. -/
structure State where
  x : UInt64
  y : UInt64
  z : UInt64
  v : UInt64 × UInt64
  w : UInt64 × UInt64

/-- The state before the first block, made from the end of the text. -/
def start (text : ByteArray) : State :=
  let n := text.size
  let len := n.toUInt64
  let x := wordAt text 0
  let y := wordAt text (n - 16) ^^^ k1
  let z := wordAt text (n - 56) ^^^ k0
  let v := weak text (n - 64) len y
  let w := weak text (n - 32) (len * k1) k0
  let z := z + mix v.2 * k1
  ⟨rotate (z + x) 39 * k1, rotate y 33 * k1, z, v, w⟩

/-- Takes in the block at a place. -/
def State.block (text : ByteArray) (s : State) (i : Nat) : State :=
  let x := rotate (s.x + s.y + s.v.1 + wordAt text (i + 16)) 37 * k1
  let y := rotate (s.y + s.v.2 + wordAt text (i + 48)) 42 * k1
  let x := x ^^^ s.w.2
  let y := y ^^^ s.v.1
  let z := rotate (s.z ^^^ s.w.1) 33
  let v := weak text i (s.v.2 * k1) (x + s.w.1)
  let w := weak text (i + 32) (z + s.w.2) y
  ⟨z, y, x, v, w⟩

/-- The hash of a text of more than 64 bytes. -/
def hash (text : ByteArray) : UInt64 :=
  let s := (List.range ((text.size - 1) / 64)).foldl (fun s k => s.block text (64 * k)) (start text)
  combine (combine s.v.1 s.w.1 + mix s.y * k1 + s.z) (combine s.v.2 s.w.2 + s.x)

/-- The fingerprint of a text. -/
def ofText (s : String) : String :=
  String.ofList (Text.hexDigits 16 (hash s.toUTF8).toNat)

/-- A fingerprint has sixteen digits. -/
theorem length_ofText (s : String) : (ofText s).length = 16 := by
  simp [ofText, Text.length_hexDigits, ← String.length_toList]

end KpiReport.Fingerprint
