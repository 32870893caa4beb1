/-! Sources of reproducible random numbers, of which nothing is known but the range of what they
draw. -/

namespace TwoWire

class RandomSource where
  Stream : Type
  ofSeed : UInt64 → Stream
  /-- Draw a number from zero to the given one. -/
  upTo : Stream → UInt64 → UInt64 × Stream
  upTo_le (stream : Stream) (most : UInt64) : (upTo stream most).1 ≤ most

end TwoWire
