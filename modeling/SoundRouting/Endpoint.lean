/-!
Stream types, and the hardware endpoint that a stream declares.
-/
namespace SoundRouting

/-- What a stream carries and in which direction. Hardware links carry no samples through the
processor; the stream named `global` has no direction. -/
inductive StreamType where
  | pcmOut
  | pcmIn
  | compressOut
  | compressIn
  | hardwareOut
  | hardwareIn
  | global
  deriving DecidableEq, Repr, Inhabited

namespace StreamType

def forRequest (input pcm : Bool) : StreamType :=
  match input, pcm with
  | true, true => .pcmIn
  | true, false => .compressIn
  | false, true => .pcmOut
  | false, false => .compressOut

def isInput : StreamType → Bool
  | .pcmIn | .compressIn | .hardwareIn => true
  | _ => false

def isPcm : StreamType → Bool
  | .pcmOut | .pcmIn => true
  | _ => false

def isCompressed : StreamType → Bool
  | .compressOut | .compressIn => true
  | _ => false

def isHardware : StreamType → Bool
  | .hardwareOut | .hardwareIn => true
  | _ => false

def describe : StreamType → String
  | .pcmOut => "pcm out"
  | .pcmIn => "pcm in"
  | .compressOut => "compress out"
  | .compressIn => "compress in"
  | .hardwareOut => "hw out"
  | .hardwareIn => "hw in"
  | .global => "global"

@[simp] theorem isInput_forRequest (input pcm : Bool) : (forRequest input pcm).isInput = input := by
  cases input <;> cases pcm <;> rfl

end StreamType

/-- The hardware end of a stream. Rate and periods are 0 where they are not declared. -/
structure Endpoint where
  type : StreamType
  card : Nat
  device : Option Nat
  rate : Nat
  periodSize : Nat
  periodCount : Nat
  deriving DecidableEq, Repr, Inhabited

namespace Endpoint

def ofCard (type : StreamType) (card : Nat) : Endpoint :=
  ⟨type, card, none, 0, 0, 0⟩

/-- The device that a declared number stands for: the largest 32-bit number stands for none. -/
def deviceOfNumber (n : Nat) : Option Nat :=
  if n = 0xFFFFFFFF then none else some n

end Endpoint

end SoundRouting
