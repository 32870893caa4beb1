import TwoWire.Bus.Basic

/-! Our side of the two lines: what we drive is remembered here, and a line that the peer has left
reads so. -/

namespace TwoWire

inductive Driver
  | peer
  | ours
  deriving DecidableEq, Repr

structure Reading where
  level : Bool
  driver : Driver
  deriving DecidableEq, Repr

structure Lines where
  clock : LineId
  data : LineId
  weakClock : Bool := true
  weakData : Bool := true
  deriving DecidableEq, Repr

/-- What a look at the bus shows: the time and the peer's two drives. -/
structure Sight where
  now : Nat
  clockPeer : Option Bool
  dataPeer : Option Bool
  deriving DecidableEq, Repr

def Sight.peer (sight : Sight) : Line → Option Bool
  | .clock => sight.clockPeer
  | .data => sight.dataPeer

namespace Lines

def id (lines : Lines) : Line → LineId
  | .clock => lines.clock
  | .data => lines.data

def weak (lines : Lines) : Line → Bool
  | .clock => lines.weakClock
  | .data => lines.weakData

def setWeak (lines : Lines) (line : Line) (level : Bool) : Lines :=
  match line with
  | .clock => { lines with weakClock := level }
  | .data => { lines with weakData := level }

def reading (lines : Lines) (line : Line) (peer : Option Bool) : Reading :=
  match peer with
  | some level => ⟨level, .peer⟩
  | none => ⟨lines.weak line, .ours⟩

def level (lines : Lines) (sight : Sight) (line : Line) : Bool :=
  (lines.reading line (sight.peer line)).level

def driver (lines : Lines) (sight : Sight) (line : Line) : Driver :=
  (lines.reading line (sight.peer line)).driver

variable {β : Type} [LineBus β]

def read (lines : Lines) (bus : β) (line : Line) : Except BusError Reading :=
  match LineBus.peer? bus (lines.id line) with
  | none => .error (.unknownLine (lines.id line))
  | some peer => .ok (lines.reading line peer)

/-- Both lines at once; the clock is looked for first. -/
def look (lines : Lines) (bus : β) : Except BusError Sight :=
  match LineBus.peer? bus (lines.id .clock), LineBus.peer? bus (lines.id .data) with
  | none, _ => .error (.unknownLine (lines.id .clock))
  | some _, none => .error (.unknownLine (lines.id .data))
  | some clock, some data => .ok ⟨LineBus.now bus, clock, data⟩

end Lines
end TwoWire
