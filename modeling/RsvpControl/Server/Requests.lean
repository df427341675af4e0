import Mathlib.Algebra.Group.Int.Defs
import RsvpControl.Core.Decimal
import RsvpControl.Server.Types

/-! # What the communication thread sends and reads

The texts of `communication.c` and what its two `recv` calls make of the bytes
they get. `sscanf` and `atoi` convert through `long` and narrow to `int`; both
read the buffer up to its first NUL.
-/

namespace RsvpControl.Server

open RsvpControl.Core

/-! ## Texts -/

def menu : Bytes :=
  text "\n[ Device Control Menu ]\n" ++
  text "1. LED ON\n" ++
  text "2. LED OFF\n" ++
  text "3. Set Brightness\n" ++
  text "4. BUZZER ON (play melody)\n" ++
  text "5. BUZZER OFF (stop)\n" ++
  text "6. SENSOR ON (감시 시작)\n" ++
  text "7. SENSOR OFF (감시 종료)\n" ++
  text "8. SEGMENT DISPLAY (숫자 표시 후 카운트다운)\n" ++
  text "9. SEGMENT STOP (카운트다운 중단)\n" ++
  text "0. Exit\n" ++
  text "Select: "

/-- Left-justified in at least `width` bytes. -/
def padRight (width : Nat) (s : Bytes) : Bytes := s ++ List.replicate (width - s.length) 32

/-- `snprintf` keeps one byte of the buffer for the terminator. -/
def truncated (size : Nat) (s : Bytes) : Bytes := s.take (size - 1)

def welcomeUrl (server_ip : Bytes) : Bytes :=
  truncated 128 (text "http://" ++ server_ip ++ text ":" ++ Decimal.printNat WEB_SERVER_PORT)

def welcome (server_ip : Bytes) : Bytes :=
  truncated 2048
    (text "\n" ++
      text "╔════════════════════════════════════════════════════════╗\n" ++
      text "║                                                        ║\n" ++
      text "║     Connected to IoT Device Control Server            ║\n" ++
      text "║                                                        ║\n" ++
      text "╠════════════════════════════════════════════════════════╣\n" ++
      text "║                                                        ║\n" ++
      text "║  📺 Camera Monitor:                                   ║\n" ++
      text "║     " ++ padRight 48 (welcomeUrl server_ip) ++ text " ║\n" ++
      text "║                                                        ║\n" ++
      text "╚════════════════════════════════════════════════════════╝\n" ++
      text "\n")

def invalidFormat : Bytes := text "[ERROR] Invalid command format\n"
def disconnecting : Bytes := text "Disconnecting...\n"
def queueFull : Bytes := text "[ERROR] Command queue full\n"
def commandTimeout : Bytes := text "[ERROR] Command timeout\n"
def serverBusy : Bytes := text "Server busy - another client is connected\n"

/-- The line `send_response` writes. -/
def responseLine (response : CommandResponse) : Bytes :=
  truncated 512
    ((if response.status = 0 then text "[SUCCESS] " else text "[ERROR] ") ++ response.message ++
      text "\n")

def parameterPrompt : CommandType → Option Bytes
  | .setBrightness => some (text "Enter brightness level (1-3): ")
  | .buzzerOn =>
      some (text "Enter music number (1:School Bell, 2:Twinkle Star, " ++
        text "3:Happy Birthday, 4:Butterfly): ")
  | .segmentDisplay => some (text "Enter countdown seconds (1-9): ")
  | _ => none

/-! ## The address in the welcome -/

/-- One entry of the list of `getifaddrs`. -/
structure Interface where
  ifa_name : Bytes
  /-- `none` for a null address, inside it `none` for one that is not `AF_INET`. -/
  ifa_addr : Option (Option (UInt8 × UInt8 × UInt8 × UInt8))
deriving DecidableEq, Repr

def inetNtoa : UInt8 × UInt8 × UInt8 × UInt8 → Bytes
  | (a, b, c, d) =>
      Decimal.printNat a.toNat ++ text "." ++ Decimal.printNat b.toNat ++ text "." ++
        Decimal.printNat c.toNat ++ text "." ++ Decimal.printNat d.toNat

/-- The address `get_server_ip` stops at. -/
def Interface.address (buffer_size : Nat) (ifa : Interface) : Option Bytes :=
  match ifa.ifa_addr with
  | some (some addr) =>
      if ifa.ifa_name ≠ text "lo" ∧ (inetNtoa addr).length < buffer_size then
        some (inetNtoa addr)
      else none
  | _ => none

/-- `none` is a failed `getifaddrs`, and then -1. -/
def getServerIp (ifaddr : Option (List Interface)) (buffer_size : Nat) : Option Bytes :=
  ifaddr.map fun interfaces =>
    match interfaces.findSome? (Interface.address buffer_size) with
    | some ip => ip.take (buffer_size - 1)
    | none => (text "127.0.0.1").take (buffer_size - 1)

/-- `server_ip` after `server_init`. -/
def serverIp (ifaddr : Option (List Interface)) : Bytes :=
  match getServerIp ifaddr 64 with
  | some ip => ip
  | none => text "localhost"

/-- A dotted address or `localhost`. -/
theorem serverIp_cases (ifaddr : Option (List Interface)) :
    (serverIp ifaddr ≠ [] ∧ ∀ b ∈ serverIp ifaddr, Decimal.isDigit b = true ∨ b = 46) ∨
      serverIp ifaddr = text "localhost" := by
  cases ifaddr with
  | none => exact Or.inr rfl
  | some interfaces =>
      refine Or.inl ?_
      cases hfound : interfaces.findSome? (Interface.address 64) with
      | none =>
          have hip : serverIp (some interfaces) = text "127.0.0.1" := by
            simp only [serverIp, getServerIp, Option.map_some, hfound]
            decide +kernel
          rw [hip]
          exact ⟨by decide +kernel, by decide +kernel⟩
      | some ip =>
          have hip : serverIp (some interfaces) = ip.take 63 := by
            simp [serverIp, getServerIp, hfound]
          rw [hip]
          obtain ⟨ifa, -, haddress⟩ := List.exists_of_findSome?_eq_some hfound
          unfold Interface.address at haddress
          split at haddress
          · next addr haddr =>
              split at haddress <;> cases haddress
              obtain ⟨a, b, c, d⟩ := addr
              have hdot : text "." = [46] := by decide +kernel
              constructor
              · intro hnil
                have hempty := List.take_eq_nil_iff.mp hnil
                simp [inetNtoa, hdot] at hempty
              · intro byte hbyte
                have hmem := List.mem_of_mem_take hbyte
                simp only [inetNtoa, hdot, List.mem_append, List.mem_singleton] at hmem
                have hdigit : ∀ n : Nat, byte ∈ Decimal.printNat n →
                    Decimal.isDigit byte = true ∨ byte = 46 :=
                  fun n hn => Or.inl (Decimal.isDigit_of_mem_printAux hn)
                rcases hmem with (((((h | h) | h) | h) | h) | h) | h
                all_goals first
                  | exact hdigit _ h
                  | exact Or.inr h
          · cases haddress

/-! ## Scanning -/

def LONG_MAX : Int := 2 ^ 63 - 1
def LONG_MIN : Int := -2 ^ 63

/-- The conversion of `%d`: saturate to `long`, then keep the low 32 bits. -/
def narrow (z : Int) : Int := (max LONG_MIN (min LONG_MAX z)).bmod (2 ^ 32)

def IsInt (z : Int) : Prop := -2 ^ 31 ≤ z ∧ z < 2 ^ 31

instance (z : Int) : Decidable (IsInt z) := inferInstanceAs (Decidable (_ ∧ _))

theorem narrow_isInt (z : Int) : IsInt (narrow z) := by
  have hlow := Int.le_bmod (x := max LONG_MIN (min LONG_MAX z)) (m := 2 ^ 32) (by decide)
  have hhigh := Int.bmod_lt (x := max LONG_MIN (min LONG_MAX z)) (m := 2 ^ 32) (by decide)
  unfold IsInt narrow
  omega

theorem narrow_of_isInt {z : Int} (h : IsInt z) : narrow z = z := by
  unfold IsInt at h
  have hclamp : max LONG_MIN (min LONG_MAX z) = z := by
    simp only [LONG_MIN, LONG_MAX]
    omega
  rw [narrow, hclamp]
  apply Int.bmod_eq_of_le <;> omega

def scanD (input : Bytes) : Option (Int × Bytes) :=
  (Decimal.scanInt input).map fun (z, rest) => (narrow z, rest)

/-- A buffer read as a C string. -/
def cString (buffer : Bytes) : Bytes := buffer.takeWhile fun b => b != 0

def atoi (buffer : Bytes) : Int :=
  match scanD (cString buffer) with
  | none => 0
  | some (z, _) => z

/-- The two cuts at the first newline and the first carriage return. -/
def stripNewline (buffer : Bytes) : Bytes :=
  ((cString buffer).takeWhile fun b => b != 10).takeWhile fun b => b != 13

/-- Fields that `sscanf` does not reach keep their initial zero. -/
def parseCommand (buffer : Bytes) : Option Command :=
  match scanD buffer with
  | none => none
  | some (type, rest) =>
      match scanD rest with
      | none => some ⟨.ofInt type, 0, 0⟩
      | some (param1, rest) =>
          match scanD rest with
          | none => some ⟨.ofInt type, param1, 0⟩
          | some (param2, _) => some ⟨.ofInt type, param1, param2⟩

/-! ## The two receives -/

inductive Request where
  | invalid
  | exit
  /-- Ask for the parameter, then receive again. -/
  | askParameter (cmd : Command) (prompt : Bytes)
  | push (cmd : Command)
deriving DecidableEq, Repr

def commandReceived (buffer : Bytes) : Request :=
  match parseCommand (stripNewline buffer) with
  | none => .invalid
  | some cmd =>
      if cmd.type = .exit then .exit
      else
        match parameterPrompt cmd.type with
        | none => .push cmd
        | some prompt => if cmd.param1 = 0 then .askParameter cmd prompt else .push cmd

/-- The reply to a prompt is not stripped. -/
def replyReceived (cmd : Command) (buffer : Bytes) : Command :=
  { cmd with param1 := atoi buffer }

end RsvpControl.Server
