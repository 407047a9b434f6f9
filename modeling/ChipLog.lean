import ChipLog.Describe
import ChipLog.Main
import ChipLog.Proofs.Board.Activation
import ChipLog.Proofs.Header.Extent
import ChipLog.Proofs.Machine.Reads
import ChipLog.Proofs.Machine.Sessions
import ChipLog.Proofs.Psg.Ranges
import ChipLog.Proofs.Psg.Registers
import ChipLog.Proofs.Psg.Waves
import ChipLog.Proofs.Session.Converter
import ChipLog.Proofs.Session.Deliveries
import ChipLog.Proofs.Session.Drift
import ChipLog.Proofs.Session.FmKind
import ChipLog.Proofs.Session.Independence
import ChipLog.Proofs.Session.Muting
import ChipLog.Proofs.Session.OldestClock
import ChipLog.Proofs.Session.Replay
import ChipLog.Proofs.Session.Settings
import ChipLog.Proofs.Tag.Chunk
import ChipLog.Proofs.Tag.Memory
import ChipLog.Proofs.Tool.Rendering
