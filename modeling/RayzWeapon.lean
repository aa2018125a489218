import RayzWeapon.Lib.Fifo
import RayzWeapon.Display.ClosedForm
import RayzWeapon.Display.Errors
import RayzWeapon.Display.Overlays
import RayzWeapon.Tasks.Trigger
import RayzWeapon.Tasks.Weapon
import RayzWeapon.Tasks.Credit
import RayzWeapon.Tasks.Shots
import RayzWeapon.Tasks.Respawn
import RayzWeapon.Display.Redraws
import RayzWeapon.Lib.Bits
import RayzWeapon.Tasks.Laser
import RayzWeapon.Display.System
import RayzWeapon.Display.Screen
import RayzWeapon.Tasks.Presses
import RayzWeapon.Tasks.Gates
import RayzWeapon.Firmware.Defs
import RayzWeapon.Firmware.Respawning
import RayzWeapon.Lib.Spaced
import RayzWeapon.Tasks.Drain
import RayzWeapon.Tasks.Timing
import RayzWeapon.Tasks.Waveform
import RayzWeapon.Lib.Sampling
import RayzWeapon.Tasks.TriggerTime
import RayzWeapon.Tasks.Confirmations
import RayzWeapon.Tasks.Stats
import RayzWeapon.Firmware.Runs
import RayzWeapon.Display.Blink
import RayzWeapon.Tasks.RespawnTime
import RayzWeapon.Display.PostTime
import RayzWeapon.Display.NoticeTime
import RayzWeapon.Tasks.Bounce
