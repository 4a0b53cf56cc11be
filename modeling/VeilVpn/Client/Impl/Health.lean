import VeilVpn.Lines

/-!
This module contains how the desktop client tells whether the tunnel works.
-/

namespace Client

structure Output where
  success : Bool
  stdout : List Char

/--
The age of the last handshake. `output` is what `wg show` has printed and `now` is the UNIX time in
seconds, unless the clock stands before 1970.
-/
def getHandshakeAge (output : Option Output) (now : Option Nat) : Option Nat :=
  match output with
  | none => none
  | some output =>
    if !output.success then
      none
    else
      -- Format: "<pubkey>\t<unix_timestamp>\n"
      match (Lines.splitWhitespace output.stdout)[1]? with
      | none => none
      | some tsStr =>
        match Decimal.parseBelow (2 ^ 64) tsStr with
        | none => none
        | some ts =>
          if ts = 0 then
            -- No handshake yet
            none
          else
            now.map fun now => now - ts

structure HealthEvent where
  connected : Bool
  processAlive : Bool
  handshakeAgeSecs : Option Nat

/--
The event that `start_health_check` emits, and that `check_health` returns while there is a
connection.
-/
def healthEvent (processAlive : Bool) (handshakeAge : Option Nat) : HealthEvent where
  connected := processAlive && (handshakeAge.map fun age => decide (age < 300)).getD false
  processAlive := processAlive
  handshakeAgeSecs := handshakeAge

end Client
