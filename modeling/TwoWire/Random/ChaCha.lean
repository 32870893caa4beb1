/-! The ChaCha block function with twelve rounds, a 64-bit block counter and a zero nonce. -/

namespace TwoWire.ChaCha

/-- Four words that a round treats alike. -/
structure Row where
  w0 : UInt32
  w1 : UInt32
  w2 : UInt32
  w3 : UInt32

namespace Row

def map₂ (f : UInt32 → UInt32 → UInt32) (x y : Row) : Row :=
  ⟨f x.w0 y.w0, f x.w1 y.w1, f x.w2 y.w2, f x.w3 y.w3⟩

def rotate (row : Row) : Row := ⟨row.w1, row.w2, row.w3, row.w0⟩

def words (row : Row) : List UInt32 := [row.w0, row.w1, row.w2, row.w3]

end Row

structure Key where
  low : Row
  high : Row

structure Block where
  a : Row
  b : Row
  c : Row
  d : Row

def rotateLeft (count word : UInt32) : UInt32 := (word <<< count) ||| (word >>> (32 - count))

def mix (count : UInt32) : Row → Row → Row := Row.map₂ fun x y => rotateLeft count (x ^^^ y)

namespace Block

def map₂ (f : UInt32 → UInt32 → UInt32) (x y : Block) : Block :=
  ⟨x.a.map₂ f y.a, x.b.map₂ f y.b, x.c.map₂ f y.c, x.d.map₂ f y.d⟩

def words (block : Block) : List UInt32 :=
  block.a.words ++ block.b.words ++ block.c.words ++ block.d.words

def halfRound (block : Block) (count count' : UInt32) : Block :=
  let a := block.a.map₂ (· + ·) block.b
  let d := mix count block.d a
  let c := block.c.map₂ (· + ·) d
  ⟨a, mix count' block.b c, c, d⟩

def round (block : Block) : Block := (block.halfRound 16 12).halfRound 8 7

/-- A round on the columns and one on the diagonals. -/
def doubleRound (block : Block) : Block :=
  let columns := block.round
  let diagonals := round ⟨columns.a, columns.b.rotate, columns.c.rotate.rotate,
    columns.d.rotate.rotate.rotate⟩
  ⟨diagonals.a, diagonals.b.rotate.rotate.rotate, diagonals.c.rotate.rotate, diagonals.d.rotate⟩

end Block

def constants : Row := ⟨0x61707865, 0x3320646e, 0x79622d32, 0x6b206574⟩

def initial (key : Key) (counter : UInt64) : Block :=
  ⟨constants, key.low, key.high, ⟨counter.toUInt32, (counter >>> 32).toUInt32, 0, 0⟩⟩

def block (key : Key) (counter : UInt64) : Block :=
  let start := initial key counter
  (Nat.repeat Block.doubleRound 6 start).map₂ (· + ·) start

end TwoWire.ChaCha
