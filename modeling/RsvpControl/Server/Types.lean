import RsvpControl.Core.Bytes

/-! # Shared declarations of the server

The constants, the command and response records and the command types of
`server.h`. A command type is read from the wire as an integer and cast, so a
value outside the enumerators is a legal value of the type.
-/

namespace RsvpControl

namespace Server

open RsvpControl.Core

def MAX_QUEUE_SIZE : Nat := 100
def BUFFER_SIZE : Nat := 1024
def WEB_SERVER_PORT : Nat := 8000

inductive CommandType where
  | ledOn
  | ledOff
  | setBrightness
  | buzzerOn
  | buzzerOff
  | sensorOn
  | sensorOff
  | segmentDisplay
  | segmentStop
  | exit
  /-- Any other integer the cast lets through. -/
  | other (pattern : Int)
deriving DecidableEq, Repr

/-- The cast `(CommandType)type`. -/
def CommandType.ofInt (type : Int) : CommandType :=
  if type = 1 then .ledOn
  else if type = 2 then .ledOff
  else if type = 3 then .setBrightness
  else if type = 4 then .buzzerOn
  else if type = 5 then .buzzerOff
  else if type = 6 then .sensorOn
  else if type = 7 then .sensorOff
  else if type = 8 then .segmentDisplay
  else if type = 9 then .segmentStop
  else if type = 0 then .exit
  else .other type

structure Command where
  type : CommandType
  param1 : Int
  param2 : Int
deriving DecidableEq, Repr

structure CommandResponse where
  status : Int
  message : Bytes
  value : Int
deriving DecidableEq, Repr

/-- The initializer `{0}`, and the response slot after the `memset` of
`server_init`. -/
def CommandResponse.zero : CommandResponse := ⟨0, [], 0⟩

end Server

end RsvpControl
