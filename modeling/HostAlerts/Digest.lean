/-!
# Digests

The SHA-1 digest of a text, from which rule ids are taken. A message is padded to whole blocks of sixteen
32-bit words; every block is stretched to eighty words and mixed into five words of state.
-/

namespace HostAlerts.Digest

/-- The five words of state. -/
structure State where
  /-- First word. -/
  a : UInt32
  /-- Second word. -/
  b : UInt32
  /-- Third word. -/
  c : UInt32
  /-- Fourth word. -/
  d : UInt32
  /-- Fifth word. -/
  e : UInt32
deriving Repr, Inhabited

/-- The state before the first block. -/
def start : State := ⟨0x67452301, 0xEFCDAB89, 0x98BADCFE, 0x10325476, 0xC3D2E1F0⟩

/-- Turns a word to the left. -/
def rotate (n : UInt32) (w : UInt32) : UInt32 :=
  (w <<< n) ||| (w >>> (32 - n))

/-- The bytes of a message, a one bit, zeros up to eight bytes before a whole block, and the length in bits. -/
def pad (bytes : List UInt8) : List UInt8 :=
  let length := bytes.length
  let zeros := (119 - length % 64) % 64
  bytes ++ 0x80 :: List.replicate zeros 0 ++
    ((List.range 8).reverse.map fun i ↦ UInt8.ofNat (length * 8 / Nat.pow 256 i))

/-- The 32-bit words of the bytes, the highest byte first. -/
def words : List UInt8 → List UInt32
  | p :: q :: r :: s :: rest =>
    UInt32.ofNat (((p.toNat * 256 + q.toNat) * 256 + r.toNat) * 256 + s.toNat) :: words rest
  | _ => []

/-- Stretches a block by `n` words; the list holds the last word first. -/
def stretch : Nat → List UInt32 → List UInt32
  | 0, ws => ws
  | n + 1, ws =>
    let word (i : Nat) : UInt32 := ws[i]?.getD 0
    stretch n (rotate 1 (word 2 ^^^ word 7 ^^^ word 13 ^^^ word 15) :: ws)

/-- The function of the given round on three words, and its constant. -/
def mixing (round : Nat) (b c d : UInt32) : UInt32 × UInt32 :=
  if round < 20 then ((b &&& c) ||| (~~~b &&& d), 0x5A827999)
  else if round < 40 then (b ^^^ c ^^^ d, 0x6ED9EBA1)
  else if round < 60 then ((b &&& c) ||| (b &&& d) ||| (c &&& d), 0x8F1BBCDC)
  else (b ^^^ c ^^^ d, 0xCA62C1D6)

/-- Mixes the words of a stretched block into the state, from the given round on. -/
def rounds : Nat → State → List UInt32 → State
  | _, s, [] => s
  | round, s, w :: rest =>
    let (f, k) := mixing round s.b s.c s.d
    rounds (round + 1) ⟨rotate 5 s.a + f + s.e + k + w, s.a, rotate 30 s.b, s.c, s.d⟩ rest

/-- Mixes one block into the state. -/
def block (s : State) (ws : List UInt32) : State :=
  let t := rounds 0 s (stretch 64 ws.reverse).reverse
  ⟨s.a + t.a, s.b + t.b, s.c + t.c, s.d + t.d, s.e + t.e⟩

/-- Mixes the words into the state block by block; `fuel` bounds the number of blocks. -/
def blocks (fuel : Nat) (s : State) (ws : List UInt32) : State :=
  match fuel with
  | 0 => s
  | fuel + 1 => if ws.isEmpty then s else blocks fuel (block s (ws.take 16)) (ws.drop 16)

/-- The digest of a message. -/
def digest (bytes : List UInt8) : State :=
  let ws := words (pad bytes)
  blocks (ws.length / 16) start ws

/-- The first sixty bits of the digest of a text. -/
def sixtyBits (s : String) : Nat :=
  let d := digest s.toUTF8.toList
  (d.a.toNat * 0x100000000 + d.b.toNat) / 16

end HostAlerts.Digest
