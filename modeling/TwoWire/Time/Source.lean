import TwoWire.Time

/-! Shared clocks. A handle reads a counter that other handles may share; a counter only moves
forward. -/

namespace TwoWire

structure TimeSources where
  counters : List Nat
  /-- The counter that each handle reads. -/
  handles : List Nat

namespace TimeSources

def fresh (n : Nat) : TimeSources where
  counters := List.replicate n 0
  handles := List.range n

def counterOf (sources : TimeSources) (handle : Nat) : Nat :=
  sources.handles.getD handle 0

def now (sources : TimeSources) (handle : Nat) : Nat :=
  sources.counters.getD (sources.counterOf handle) 0

def share (sources : TimeSources) (handle : Nat) : TimeSources :=
  { sources with handles := sources.handles ++ [sources.counterOf handle] }

/-- Move the counter of `handle` forward to `time`; an earlier `time` changes nothing. -/
def advance (sources : TimeSources) (handle : Nat) (time : Nat) : TimeSources :=
  { sources with counters := sources.counters.modify (sources.counterOf handle) (max time) }

def readings (sources : TimeSources) : List Nat :=
  (List.range sources.handles.length).map sources.now

end TimeSources
end TwoWire
