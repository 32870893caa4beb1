import TwoWire.Random.ChaCha
import TwoWire.Random.Source

/-! Reproducible random numbers: the words of the blocks of a key, so two streams of one seed agree
for ever. -/

namespace TwoWire

structure RandomStream where
  key : ChaCha.Key
  /-- The block after those that words have been taken from. -/
  counter : UInt64 := 0
  /-- What is left of the last block. -/
  words : List UInt32 := []

namespace RandomStream

/-- One round of the congruential generator that spreads a seed over a key. -/
def seedStep (state : UInt64) : UInt64 := state * 6364136223846793005 + 11634580027462260723

def seedWord (state : UInt64) : UInt32 :=
  let word := (((state >>> 18) ^^^ state) >>> 27).toUInt32
  let count := (state >>> 59).toUInt32
  (word >>> count) ||| (word <<< (32 - count))

def keyWord (seed : UInt64) (n : Nat) : UInt32 := seedWord (Nat.repeat seedStep (n + 1) seed)

def ofSeed (seed : UInt64) : RandomStream where
  key := {
    low := ⟨keyWord seed 0, keyWord seed 1, keyWord seed 2, keyWord seed 3⟩
    high := ⟨keyWord seed 4, keyWord seed 5, keyWord seed 6, keyWord seed 7⟩ }

def word (stream : RandomStream) : UInt32 × RandomStream :=
  match stream.words with
  | word :: rest => (word, { stream with words := rest })
  | [] =>
    let block := ChaCha.block stream.key stream.counter
    (block.a.w0, { stream with counter := stream.counter + 1, words := block.words.tail })

/-- A number below `2 ^ 64`, of two words with the lower one first. -/
def next (stream : RandomStream) : Nat × RandomStream :=
  let (low, stream) := stream.word
  let (high, stream) := stream.word
  (low.toNat + high.toNat * UInt32.size, stream)

/-- Scale draws to numbers below `range` until one falls into the part of the draws that covers all
of them equally often. A draw is refused with a chance below one half, so `tries` of them are as good
as any number. -/
def nextBelow (range zone : Nat) : Nat → RandomStream → Nat × RandomStream
  | 0, stream => (0, stream)
  | tries + 1, stream =>
    let (drawn, rest) := stream.next
    let product := drawn * range
    if product % UInt64.size ≤ zone then (product / UInt64.size, rest)
    else nextBelow range zone tries rest

def upTo (stream : RandomStream) (most : Nat) : Nat × RandomStream :=
  if most + 1 < UInt64.size then
    let range := most + 1
    nextBelow range (range <<< (63 - range.log2) - 1) 256 stream
  else stream.next

theorem next_lt (stream : RandomStream) : stream.next.1 < UInt64.size := by
  have low := stream.word.1.toNat_lt
  have high := stream.word.2.word.1.toNat_lt
  simp only [next, UInt32.size, UInt64.size]
  omega

theorem nextBelow_lt (range zone : Nat) (positive : 0 < range) (tries : Nat)
    (stream : RandomStream) : (nextBelow range zone tries stream).1 < range := by
  induction tries generalizing stream with
  | zero => exact positive
  | succ tries ih =>
    simp only [nextBelow]
    split
    case isTrue =>
      refine Nat.div_lt_of_lt_mul ?_
      rw [Nat.mul_comm UInt64.size]
      exact Nat.mul_comm range _ ▸ Nat.mul_lt_mul_of_pos_left (next_lt stream) positive
    case isFalse => exact ih _

theorem upTo_le (stream : RandomStream) {most : Nat} (h : most < UInt64.size) :
    (stream.upTo most).1 ≤ most := by
  unfold upTo
  split
  case isTrue => exact Nat.le_of_lt_succ (nextBelow_lt _ _ (Nat.succ_pos most) _ _)
  case isFalse =>
    have := next_lt stream
    omega

/-- The source that programs run with. -/
instance chaCha : RandomSource where
  Stream := RandomStream
  ofSeed := ofSeed
  upTo stream most :=
    let (drawn, rest) := stream.upTo most.toNat
    (UInt64.ofNat drawn, rest)
  upTo_le stream most := by
    rw [UInt64.le_iff_toNat_le, UInt64.toNat_ofNat']
    exact Nat.le_trans (Nat.mod_le _ _) (upTo_le stream most.toNat_lt)

end RandomStream
end TwoWire
