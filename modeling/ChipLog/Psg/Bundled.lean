/-
# The engines that come with the player

There is one real engine, for the SN76489.  Every other chip is silent, but it keeps time,
so that a log which uses it plays to its end.
-/
import ChipLog.Psg.Basic

namespace ChipLog

/-- An engine of the player's own. -/
inductive Bundled
  | psg (chip : Psg)
  | silent (chip : SilentChip)
  deriving DecidableEq

namespace Bundled

/-- The engine for a kind of chip. -/
def ofKind : ChipKind → Bundled
  | .sn76489 => psg Psg.new
  | kind => silent (SilentChip.ofKind kind)

/-- Every chip gets the engine for its kind. -/
def factory : Factory Bundled := fun site => ofKind site.kind

instance : ChipEngine Bundled where
  sampleRate
    | psg chip, hz => ChipEngine.sampleRate chip hz
    | silent chip, hz => ChipEngine.sampleRate chip hz
  start hz
    | psg chip => psg (ChipEngine.start hz chip)
    | silent chip => silent (ChipEngine.start hz chip)
  configure flags
    | psg chip => psg (ChipEngine.configure flags chip)
    | silent chip => silent (ChipEngine.configure flags chip)
  writeBus address data
    | psg chip => psg (ChipEngine.writeBus address data chip)
    | silent chip => silent (ChipEngine.writeBus address data chip)
  clock
    | psg chip => psg (ChipEngine.clock chip)
    | silent chip => silent (ChipEngine.clock chip)
  sample
    | psg chip => ChipEngine.sample chip
    | silent chip => ChipEngine.sample chip
  writeRom kind size offset data
    | psg chip => psg (ChipEngine.writeRom kind size offset data chip)
    | silent chip => silent (ChipEngine.writeRom kind size offset data chip)
  writeRam offset data
    | psg chip => psg (ChipEngine.writeRam offset data chip)
    | silent chip => silent (ChipEngine.writeRam offset data chip)

end Bundled

end ChipLog
