/-!
Sample formats as the audio framework encodes them: the top byte is the main format, and zero
there means linear PCM of any width.
-/
namespace SoundRouting

structure AudioFormat where
  word : BitVec 32
  deriving DecidableEq, Repr

namespace AudioFormat

def pcm16 : AudioFormat := ⟨0x1#32⟩

def mp3 : AudioFormat := ⟨0x1000000#32⟩

def aac : AudioFormat := ⟨0x4000000#32⟩

/-- The format without its details. -/
def mainFormat (f : AudioFormat) : BitVec 32 :=
  f.word &&& 0xFF000000#32

def isLinearPcm (f : AudioFormat) : Bool :=
  f.mainFormat == 0#32

end AudioFormat

end SoundRouting
