import RsvpControl.Server.Sessions

/-! # Who holds `queue_mutex`

The holder is one of the two threads that lock it and is inside a critical
section; each of these ends with the thread's next step, so a held mutex is
never what a run is stuck on.
-/

namespace RsvpControl.Server

open RsvpControl.Core

def CommPc.holding : CommPc → Bool
  | .push _ => true
  | .collect _ _ => true
  | _ => false

def DevicePc.holding : DevicePc → Bool
  | .head => true
  | .sensorTest => true
  | .publish _ _ => true
  | _ => false

theorem holding_commSignalled (pc : CommPc) : pc.signalled.holding = pc.holding := by
  cases pc <;> rfl

theorem holding_deviceSignalled (pc : DevicePc) : pc.signalled.holding = pc.holding := by
  cases pc <;> rfl

structure MutexInv (s : System) : Prop where
  comm : s.queue_mutex = some .comm ↔ s.comm.holding = true
  device : s.queue_mutex = some .device ↔ s.device.holding = true
  running : s.device = .returned → s.server_running = false

theorem mutexInv_init (server_ip : Bytes) : MutexInv (System.init server_ip) where
  comm := by simp [System.init, CommPc.holding]
  device := by simp [System.init, DevicePc.holding]
  running h := by cases h

theorem MutexInv.stepMain {s s' : System} {accepted : Accepted} {ok : Bool} (h : MutexInv s)
    (hsession : SessionInv s) (hs : s.stepMain accepted ok = some s') : MutexInv s' := by
  obtain ⟨_, _, _, _, _, hmutex, hrunning, hdevice, hcomm⟩ := stepMain_control hs
  refine ⟨?_, ?_, ?_⟩
  · rw [hmutex, h.comm]
    rcases hcomm with heq | heq | ⟨heq, k, hcreate⟩ | ⟨heq, hreturned⟩
    · rw [heq]
    · rw [heq, holding_commSignalled]
    · have habsent : s.comm = .absent := by
        by_contra hne
        rw [hsession.joining.mp hne] at hcreate
        cases hcreate
      rw [heq, habsent]
      rfl
    · rw [heq, hreturned]
      rfl
  · rw [hmutex, h.device]
    rcases hdevice with heq | heq
    · rw [heq]
    · rw [heq, holding_deviceSignalled]
  · intro hreturned
    apply hrunning
    apply h.running
    rcases hdevice with heq | heq
    · exact heq ▸ hreturned
    · exact signalled_eq_returned.mp (heq ▸ hreturned)

theorem MutexInv.stepComm {s s' : System} {ok : Bool} (h : MutexInv s)
    (hs : s.stepComm ok = some s') : MutexInv s' := by
  obtain ⟨hcomm, hdevice, hrunning⟩ := h
  revert hs
  fun_cases System.stepComm s ok
  all_goals intro hs
  all_goals cases hs
  all_goals refine ⟨?_, ?_, ?_⟩
  all_goals
    simp_all [System.send, System.close, System.signalNotEmpty, holding_deviceSignalled,
      signalled_eq_returned, CommPc.holding]

theorem afterDispatch_resumes (block : Nat) (cmd : Command) (response : CommandResponse) :
    (afterDispatch block cmd response).holding = false ∧
      afterDispatch block cmd response ≠ .returned := by
  unfold afterDispatch
  split
  · split <;> simp [DevicePc.holding]
  · simp [DevicePc.holding]

theorem MutexInv.stepDevice {s s' : System} {mallocOk createOk : Bool} {level : Int}
    (h : MutexInv s) (hs : s.stepDevice mallocOk createOk level = some s') : MutexInv s' := by
  unfold System.stepDevice at hs
  cases hpc : s.device with
  | dispatch block =>
      have hfree : s.queue_mutex ≠ some .device := by
        rw [Ne, h.device, hpc]
        simp [DevicePc.holding]
      simp only [hpc] at hs
      split at hs
      · cases hs
      · cases hs
        refine ⟨h.comm, ?_, ?_⟩
        · simp [hfree, afterDispatch_resumes]
        · intro hreturned
          exact absurd hreturned (afterDispatch_resumes _ _ _).2
  | _ =>
      obtain ⟨hcomm, hdevice, hrunning⟩ := h
      simp only [hpc] at hs
      repeat' split at hs
      all_goals cases hs
      all_goals refine ⟨?_, ?_, ?_⟩
      all_goals
        simp_all [System.signalResponse, holding_commSignalled, DevicePc.holding]

theorem MutexInv.step {s s' : System} {a : Action} (h : MutexInv s) (hsession : SessionInv s)
    (hs : s.step a = some s') : MutexInv s' := by
  cases a with
  | main accepted ok => exact h.stepMain hsession hs
  | comm ok => exact h.stepComm hs
  | commWake wake =>
      obtain ⟨block, hcomm, rfl⟩ := wakeComm_eq hs
      refine ⟨?_, h.device, h.running⟩
      rw [h.comm, hcomm]
      rfl
  | device mallocOk createOk level => exact h.stepDevice hs
  | deviceWake wake =>
      obtain ⟨hdevice, rfl⟩ := wakeDevice_eq hs
      refine ⟨h.comm, ?_, fun hreturned => by cases hreturned⟩
      rw [h.device, hdevice]
      rfl
  | interrupt =>
      cases hs
      exact ⟨h.comm, h.device, fun _ => rfl⟩
  | hangUp socket | libraries devices =>
      cases hs
      exact ⟨h.comm, h.device, h.running⟩
  | arrive socket chunk =>
      simp only [System.step] at hs
      split at hs
      · cases hs
      · split at hs <;> cases hs
        exact ⟨h.comm, h.device, h.running⟩

theorem mutexInv_of_reachable {server_ip : Bytes} {s : System}
    (h : (serverMachine server_ip).Reachable s) : MutexInv s := by
  refine Machine.ReachableUnder.invariant (mutexInv_init server_ip) ?_ h
  intro t a t' ht hinv _ hs
  exact hinv.step (sessionInv_of_reachable ht) hs

end RsvpControl.Server
