import RayzWeapon.Firmware.Defs
import RayzWeapon.Tasks.Confirmations
import RayzWeapon.Tasks.Presses

universe u v

namespace RayzWeapon

open RayzWeapon.Lib RayzWeapon.Tasks RayzWeapon.Display

variable {R : Type u} {W : Type v} {c : RespawnRecord R} (p : Protocol) (size : Nat)

def FirmwareLabel.begins (c : RespawnRecord R) : FirmwareLabel R W → Bool
  | .setRecord record => c.isRespawning record
  | _ => false

end RayzWeapon
