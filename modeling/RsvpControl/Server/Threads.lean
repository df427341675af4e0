import RsvpControl.Core.Machine
import RsvpControl.Device.Control
import RsvpControl.Server.CommandQueue
import RsvpControl.Server.Requests

/-! # The threads of the server

`main` from its accept loop to the end of `server_cleanup`, the communication
thread of the current session and the device thread, over the state they share.
`queue_mutex` is explicit: a thread takes it in one step and runs the critical
section, up to the unlock or the condition wait, in the next. A wait set is a
program point; a signal moves its member on, and a member may also time out or
wake without a signal. The critical sections of `state_mutex` are single steps.
-/

namespace RsvpControl.Server

open RsvpControl.Core Device

/-! ## Program points -/

inductive MainPc where
  | loopTest
  | accept
  /-- Connection accepted, about to take `state_mutex`. -/
  | register (socket : Nat)
  | busy (socket : Nat)
  | create (socket : Nat)
  | joinComm
  /-- `server_cleanup` from its start. -/
  | cleanup
  | cleanupTest
  | wakeDevice
  | wakeComm
  | cleanupJoinComm
  | wakeIdleDevice
  | joinDevice
  | stopWebServer
  | closeSockets
  | cleanQueue
  | cleanDevices
  | destroy
  | finished
deriving DecidableEq, Repr

inductive CommPc where
  /-- No communication thread, or the last one joined. -/
  | absent
  | start
  | loopTest
  | sendMenu
  | recvCommand
  | sendInvalid
  | sendBye
  | sendPrompt (cmd : Command) (prompt : Bytes)
  | recvReply (cmd : Command)
  | lock (cmd : Command)
  /-- Holding `queue_mutex`, up to the condition wait. -/
  | push (cmd : Command)
  | sendFull
  /-- In the wait set of `response_ready`, not signalled. -/
  | waiting (block : Nat)
  /-- Out of the wait set with this result, about to take `queue_mutex` again. -/
  | woken (block : Nat) (inTime : Bool)
  /-- Holding `queue_mutex` after the wait. -/
  | collect (block : Nat) (inTime : Bool)
  | sendResponse (response : CommandResponse)
  | sendTimeout
  | teardown
  /-- Returned, not yet joined. -/
  | returned
deriving DecidableEq, Repr

inductive DevicePc where
  | loopTest
  | lock
  /-- Holding `queue_mutex` at the test of the inner loop. -/
  | head
  /-- In the wait set of `queue_not_empty`, not signalled. -/
  | waiting
  | woken
  /-- Holding `queue_mutex` after the wait, about to read `sensor_monitoring`. -/
  | sensorTest
  | sensorInWait
  /-- A command popped, not yet dispatched. -/
  | dispatch (block : Nat)
  | publishLock (block : Nat) (response : CommandResponse)
  /-- Holding `queue_mutex` to publish. -/
  | publish (block : Nat) (response : CommandResponse)
  | freeCmd (block : Nat)
  /-- The `free` before the `continue` that skips the response. -/
  | freeSkipped (block : Nat)
  | sensorAfter
  | sensorAfterHandle
  | returned
deriving DecidableEq, Repr

inductive Holder where
  | comm
  | device
deriving DecidableEq, Repr

/-! ## State -/

structure Socket where
  /-- Results of the coming `recv` calls. -/
  inbox : List Bytes
  /-- The peer has closed or reset the connection. -/
  hungUp : Bool
  sent : List Bytes
  closes : Nat
deriving DecidableEq, Repr

/-- A response handed to `send_response`: the block pushed in the same iteration
and the one whose dispatch computed the response. -/
structure Answer where
  pushed : Nat
  computedFor : Option Nat
  response : CommandResponse
deriving DecidableEq, Repr

structure System where
  cmd_queue : CommandQueue
  heap : CommandHeap
  queue_mutex : Option Holder
  response : CommandResponse
  /-- The block whose dispatch computed `response`. -/
  responseFor : Option Nat
  devices : DeviceState
  server_running : Bool
  g_running : Bool
  server_ip : Bytes
  serverSocketOpen : Bool
  /-- `none` is -1. -/
  client_socket : Option Nat
  client_connected : Bool
  sockets : List Socket
  main : MainPc
  comm : CommPc
  /-- The local copy of `client_socket` in the communication thread. -/
  commSocket : Nat
  device : DevicePc
  /-- Commands pushed with success, each with its block, oldest first. -/
  pushed : List (Nat × Command)
  /-- Commands dispatched, with the contents the dispatch read. -/
  dispatched : List (Nat × Command)
  answered : List Answer
  /-- Blocks still queued when their wait ended in the timeout branch. -/
  abandoned : List Nat
  /-- Blocks read after their release. -/
  misused : List Nat
deriving DecidableEq, Repr

/-- After a successful `server_init`, with the device thread created. -/
def System.init (server_ip : Bytes) : System where
  cmd_queue := queueInit
  heap := []
  queue_mutex := none
  response := CommandResponse.zero
  responseFor := none
  devices := serverInitDevices
  server_running := true
  g_running := true
  server_ip := server_ip
  serverSocketOpen := true
  client_socket := none
  client_connected := false
  sockets := []
  main := .loopTest
  comm := .absent
  commSocket := 0
  device := .loopTest
  pushed := []
  dispatched := []
  answered := []
  abandoned := []
  misused := []

inductive Accepted where
  | connection
  /-- No connection pending: `EAGAIN`, then a sleep. -/
  | again
  | interrupted
  | failed
deriving DecidableEq, Repr

inductive Wake where
  | timeout
  | spurious
deriving DecidableEq, Repr

inductive Action where
  /-- The next step of `main`, with the outcome of its `accept` and of its `send`
  or `pthread_create`. -/
  | main (accepted : Accepted) (ok : Bool)
  /-- The next step of the communication thread, with the outcome of its `send`
  or allocation. -/
  | comm (ok : Bool)
  | commWake (wake : Wake)
  /-- The next step of the device thread, with the outcomes inside the device
  libraries and the level of the light sensor. -/
  | device (mallocOk createOk : Bool) (level : Int)
  | deviceWake (wake : Wake)
  /-- SIGINT. -/
  | interrupt
  /-- Bytes arrive that one `recv` will return. -/
  | arrive (socket : Nat) (chunk : Bytes)
  | hangUp (socket : Nat)
  /-- The libraries' own threads change the device state between the steps of the
  device thread. -/
  | libraries (devices : DeviceState)
deriving DecidableEq, Repr

/-! ## Sockets and signals -/

/-- The return of a `send`; that the call waits for a client that does not read is in
`RsvpControl.Server.Backpressure`. -/
def System.send (s : System) (socket : Nat) (message : Bytes) (ok : Bool) : System :=
  { s with
    sockets :=
      if ok then s.sockets.modify socket fun k => { k with sent := k.sent ++ [message] }
      else s.sockets }

def System.close (s : System) (socket : Nat) : System :=
  { s with sockets := s.sockets.modify socket fun k => { k with closes := k.closes + 1 } }

def DevicePc.signalled : DevicePc → DevicePc
  | .waiting => .woken
  | pc => pc

def CommPc.signalled : CommPc → CommPc
  | .waiting block => .woken block true
  | pc => pc

/-- `pthread_cond_signal(&queue_not_empty)`. -/
def System.signalNotEmpty (s : System) : System := { s with device := s.device.signalled }

/-- `pthread_cond_signal(&response_ready)`. -/
def System.signalResponse (s : System) : System := { s with comm := s.comm.signalled }

/-! ## `main` -/

def System.stepMain (s : System) (accepted : Accepted) (ok : Bool) : Option System :=
  match s.main with
  | .loopTest =>
      if s.g_running && s.server_running then some { s with main := .accept }
      else some { s with main := .cleanup }
  | .accept =>
      match accepted with
      | .connection =>
          some { s with
            sockets := s.sockets ++ [⟨[], false, [], 0⟩]
            main := .register s.sockets.length }
      | .again | .interrupted => some { s with main := .loopTest }
      | .failed => some { s with main := .cleanup }
  | .register socket =>
      if s.client_connected then some { s with main := .busy socket }
      else
        some { s with
          client_socket := some socket
          client_connected := true
          main := .create socket }
  | .busy socket =>
      some { (s.send socket serverBusy ok).close socket with main := .loopTest }
  | .create socket =>
      if ok then some { s with comm := .start, main := .joinComm }
      else
        some { s.close socket with
          client_socket := none
          client_connected := false
          main := .loopTest }
  | .joinComm =>
      if s.comm = .returned then some { s with comm := .absent, main := .loopTest } else none
  | .cleanup => some { s with server_running := false, main := .cleanupTest }
  | .cleanupTest =>
      if s.client_connected then some { s with main := .wakeDevice }
      else some { s with main := .wakeIdleDevice }
  | .wakeDevice => some { s.signalNotEmpty with main := .wakeComm }
  | .wakeComm => some { s.signalResponse with main := .cleanupJoinComm }
  | .cleanupJoinComm =>
      if s.comm = .returned then some { s with comm := .absent, main := .wakeIdleDevice } else none
  | .wakeIdleDevice => some { s.signalNotEmpty with main := .joinDevice }
  | .joinDevice => if s.device = .returned then some { s with main := .stopWebServer } else none
  | .stopWebServer => some { s with main := .closeSockets }
  | .closeSockets =>
      match s.client_socket with
      | some socket => some { s.close socket with serverSocketOpen := false, main := .cleanQueue }
      | none => some { s with serverSocketOpen := false, main := .cleanQueue }
  | .cleanQueue =>
      let (heap, cmd_queue) := queueCleanup s.heap s.cmd_queue
      some { s with heap := heap, cmd_queue := cmd_queue, main := .cleanDevices }
  | .cleanDevices =>
      some { s with devices := serverCleanupDevices s.devices, main := .destroy }
  | .destroy => some { s with main := .finished }
  | .finished => none

/-! ## The communication thread -/

def System.inbox (s : System) : List Bytes :=
  match s.sockets[s.commSocket]? with
  | some socket => socket.inbox
  | none => []

def System.hungUp (s : System) : Bool :=
  match s.sockets[s.commSocket]? with
  | some socket => socket.hungUp
  | none => true

/-- A `recv` on the session's socket: the sockets after it and the next chunk, or
`none` for a result that is not positive. Without either the call blocks. -/
def System.recv (s : System) : Option (List Socket × Option Bytes) :=
  match s.inbox with
  | chunk :: rest =>
      some (s.sockets.modify s.commSocket fun k => { k with inbox := rest }, some chunk)
  | [] => if s.hungUp then some (s.sockets, none) else none

def System.stepComm (s : System) (ok : Bool) : Option System :=
  match s.comm with
  | .absent => none
  | .start =>
      match s.client_socket with
      | some socket =>
          some { s.send socket (welcome s.server_ip) ok with
            commSocket := socket
            comm := .loopTest }
      | none => none
  | .loopTest =>
      if s.server_running then some { s with comm := .sendMenu }
      else some { s with comm := .teardown }
  | .sendMenu => some { s.send s.commSocket menu ok with comm := .recvCommand }
  | .recvCommand =>
      match s.recv with
      | none => none
      | some (sockets, none) => some { s with sockets := sockets, comm := .teardown }
      | some (sockets, some buffer) =>
          match commandReceived buffer with
          | .invalid => some { s with sockets := sockets, comm := .sendInvalid }
          | .exit => some { s with sockets := sockets, comm := .sendBye }
          | .askParameter cmd prompt =>
              some { s with sockets := sockets, comm := .sendPrompt cmd prompt }
          | .push cmd => some { s with sockets := sockets, comm := .lock cmd }
  | .sendInvalid => some { s.send s.commSocket invalidFormat ok with comm := .loopTest }
  | .sendBye => some { s.send s.commSocket disconnecting ok with comm := .teardown }
  | .sendPrompt cmd prompt =>
      some { s.send s.commSocket prompt ok with comm := .recvReply cmd }
  | .recvReply cmd =>
      match s.recv with
      | none => none
      | some (sockets, none) => some { s with sockets := sockets, comm := .teardown }
      | some (sockets, some buffer) =>
          some { s with sockets := sockets, comm := .lock (replyReceived cmd buffer) }
  | .lock cmd =>
      if s.queue_mutex = none then some { s with queue_mutex := some .comm, comm := .push cmd }
      else none
  | .push cmd =>
      match queuePush s.heap s.cmd_queue cmd ok with
      | (heap, cmd_queue, true) =>
          some { s.signalNotEmpty with
            heap := heap
            cmd_queue := cmd_queue
            pushed := s.pushed ++ [(s.heap.length, cmd)]
            queue_mutex := none
            comm := .waiting s.heap.length }
      | (_, _, false) => some { s with queue_mutex := none, comm := .sendFull }
  | .sendFull => some { s.send s.commSocket queueFull ok with comm := .loopTest }
  | .waiting _ => none
  | .woken block inTime =>
      if s.queue_mutex = none then
        some { s with queue_mutex := some .comm, comm := .collect block inTime }
      else none
  | .collect block inTime =>
      if inTime then
        some { s with
          answered := s.answered ++ [⟨block, s.responseFor, s.response⟩]
          queue_mutex := none
          comm := .sendResponse s.response }
      else
        some { s with
          abandoned :=
            if some block ∈ s.cmd_queue.commands then s.abandoned ++ [block] else s.abandoned
          queue_mutex := none
          comm := .sendTimeout }
  | .sendResponse response =>
      if ok then
        some { s.send s.commSocket (responseLine response) true with comm := .loopTest }
      else some { s with comm := .teardown }
  | .sendTimeout => some { s.send s.commSocket commandTimeout ok with comm := .loopTest }
  | .teardown =>
      some { s.close s.commSocket with
        client_connected := false
        client_socket := none
        comm := .returned }
  | .returned => none

/-- The wait ends without a signal. -/
def System.wakeComm (s : System) (wake : Wake) : Option System :=
  match s.comm with
  | .waiting block => some { s with comm := .woken block (wake == .spurious) }
  | _ => none

/-! ## The device thread -/

/-- A status of -2 stands for a response the handler has already sent. -/
def afterDispatch (block : Nat) (cmd : Command) (response : CommandResponse) : DevicePc :=
  if response.status = -2 then
    if cmd.type = .buzzerOn then .freeSkipped block else .freeCmd block
  else .publishLock block response

def System.stepDevice (s : System) (mallocOk createOk : Bool) (level : Int) : Option System :=
  match s.device with
  | .loopTest =>
      if s.server_running then some { s with device := .lock } else some { s with device := .returned }
  | .lock =>
      if s.queue_mutex = none then some { s with queue_mutex := some .device, device := .head }
      else none
  | .head =>
      if queueIsEmpty s.cmd_queue && s.server_running then
        some { s with queue_mutex := none, device := .waiting }
      else if s.server_running = false then
        some { s with queue_mutex := none, device := .returned }
      else
        match queuePop s.cmd_queue with
        | (cmd_queue, some block) =>
            some { s with cmd_queue := cmd_queue, queue_mutex := none, device := .dispatch block }
        | (cmd_queue, none) =>
            some { s with cmd_queue := cmd_queue, queue_mutex := none, device := .loopTest }
  | .waiting => none
  | .woken =>
      if s.queue_mutex = none then
        some { s with queue_mutex := some .device, device := .sensorTest }
      else none
  | .sensorTest =>
      if s.devices.sensor_monitoring then
        some { s with queue_mutex := none, device := .sensorInWait }
      else some { s with device := .head }
  | .sensorInWait =>
      some { s with devices := handleSensorMonitoring level s.devices, device := .lock }
  | .dispatch block =>
      match s.heap[block]? with
      | none => none
      | some { value := cmd, frees := frees } =>
          -- the whole handler; with library threads inside it, see `RsvpControl.Rig`
          let (devices, response) := dispatch cmd mallocOk createOk s.devices
          some { s with
            devices := devices
            dispatched := s.dispatched ++ [(block, cmd)]
            misused := if frees = 0 then s.misused else s.misused ++ [block]
            device := afterDispatch block cmd response }
  | .publishLock block response =>
      if s.queue_mutex = none then
        some { s with queue_mutex := some .device, device := .publish block response }
      else none
  | .publish block response =>
      some { s.signalResponse with
        response := response
        responseFor := some block
        queue_mutex := none
        device := .freeCmd block }
  | .freeCmd block => some { s with heap := s.heap.free block, device := .sensorAfter }
  | .freeSkipped block => some { s with heap := s.heap.free block, device := .loopTest }
  | .sensorAfter =>
      if s.devices.sensor_monitoring then some { s with device := .sensorAfterHandle }
      else some { s with device := .loopTest }
  | .sensorAfterHandle =>
      some { s with devices := handleSensorMonitoring level s.devices, device := .loopTest }
  | .returned => none

/-- Timed out or woken without a signal; the result of the wait is not read. -/
def System.wakeDevice (s : System) : Option System :=
  match s.device with
  | .waiting => some { s with device := .woken }
  | _ => none

/-! ## The machine -/

def System.step (s : System) : Action → Option System
  | .main accepted ok => s.stepMain accepted ok
  | .comm ok => s.stepComm ok
  | .commWake wake => s.wakeComm wake
  | .device mallocOk createOk level => s.stepDevice mallocOk createOk level
  | .deviceWake _ => s.wakeDevice
  | .interrupt => some { s with g_running := false, server_running := false }
  | .arrive socket chunk =>
      match s.sockets[socket]? with
      | none => none
      | some k =>
          if k.hungUp = false ∧ 0 < chunk.length ∧ chunk.length < BUFFER_SIZE then
            some { s with
              sockets := s.sockets.modify socket fun k => { k with inbox := k.inbox ++ [chunk] } }
          else none
  | .hangUp socket =>
      some { s with sockets := s.sockets.modify socket fun k => { k with hungUp := true } }
  | .libraries devices => some { s with devices := devices }

def serverMachine (server_ip : Bytes) : Machine System Action := ⟨System.init server_ip, System.step⟩

/-! ## Scripts -/

def mainSteps (n : Nat) : List Action := List.replicate n (.main .connection true)
def commSteps (n : Nat) : List Action := List.replicate n (.comm true)
def deviceSteps (n : Nat) : List Action := List.replicate n (.device true true 0)

def connect : List Action := mainSteps 4 ++ commSteps 3

def pushLine (line : Bytes) : List Action := .arrive 0 line :: commSteps 3

end RsvpControl.Server
