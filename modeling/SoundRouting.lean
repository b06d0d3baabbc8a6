import SoundRouting.Card.Catalogue
import SoundRouting.Main
import SoundRouting.Proofs.Blocks
import SoundRouting.Proofs.Capacity
import SoundRouting.Proofs.Denied
import SoundRouting.Proofs.Directions
import SoundRouting.Proofs.Lifecycle
import SoundRouting.Proofs.Literals
import SoundRouting.Proofs.Load.Checked
import SoundRouting.Proofs.Load.Coherent
import SoundRouting.Proofs.Load.Culprits
import SoundRouting.Proofs.Load.Enclosing
import SoundRouting.Proofs.Load.Writes
import SoundRouting.Proofs.Log
import SoundRouting.Proofs.OnePath
import SoundRouting.Proofs.Repeat
import SoundRouting.Proofs.Replay
import SoundRouting.Proofs.Script.DeviceLists
import SoundRouting.Proofs.Script.Lines
import SoundRouting.Proofs.Selection
import SoundRouting.Proofs.Sessions
import SoundRouting.Proofs.Switches
import SoundRouting.Proofs.Unbound
import SoundRouting.Proofs.Volumes
