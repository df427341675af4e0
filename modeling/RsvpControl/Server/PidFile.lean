import RsvpControl.Core.Files
import RsvpControl.Core.Machine
import RsvpControl.Core.Population
import RsvpControl.Server.Requests

/-! # The PID file

A daemon starts by reading `/var/run/iot_server.pid`. When that names a running process
it gives up, else it empties the file and writes its own PID there. Nothing locks the
file in between, so two starts that overlap may both go on. The runs are those of any
number of processes, one call on the file or one `kill` at a time.
-/

namespace RsvpControl.Server

open RsvpControl.Core

/-! ## Processes -/

inductive DaemonPc where
  /-- In `write_pid_file`, from the `fopen` for reading to the `kill`. -/
  | openRead
  | read (inode : Nat)
  | kill (pid : Int)
  /-- Past the check, from the `fopen` for writing to the `fclose`. -/
  | openWrite
  | write (inode : Nat)
  /-- `write_pid_file` has returned 0. -/
  | serving
  /-- `remove_pid_file` has been called. -/
  | unlink
  /-- With nothing left to do but exit. -/
  | returned
  | exited
deriving DecidableEq, Repr

def DaemonPc.writing : DaemonPc → Bool
  | .write _ => true
  | _ => false

/-- Past the check, with the PID not yet in the file. -/
def DaemonPc.deciding (pc : DaemonPc) : Bool := pc = .openWrite || pc.writing

/-- With the PID in the file, to be removed again. -/
def DaemonPc.named : DaemonPc → Bool
  | .serving | .unlink => true
  | _ => false

def DaemonPc.claims (pc : DaemonPc) : Bool := pc.deciding || pc.named

structure Daemon where
  pid : Int
  pc : DaemonPc
deriving DecidableEq, Repr

def Daemon.live (p : Daemon) : Bool := p.pc != .exited

structure Host where
  files : Files UInt8
  processes : List Daemon
  /-- Each process that has overwritten or removed the file while another served. -/
  clashes : List Nat
deriving DecidableEq, Repr

/-- What `fscanf` reads with `%d`. -/
def Host.scanned (h : Host) (inode : Nat) : Option Int :=
  (scanD (h.files.read inode)).map Prod.fst

def Host.recorded (h : Host) : Option Int := h.files.name.bind h.scanned

def Host.running (h : Host) (pid : Int) : Bool :=
  h.processes.any fun q => q.live && q.pid = pid

def Host.others (h : Host) (p : Nat) : List Daemon := h.processes.eraseIdx p

def Host.goto (h : Host) (p : Nat) (pc : DaemonPc) : Host :=
  { h with processes := h.processes.modify p fun q => { q with pc := pc } }

/-- Noted when the file is there and another process serves. -/
def Host.clash (h : Host) (p : Nat) (there : Bool) : List Nat :=
  if there && (h.others p).any fun q => q.pc = .serving then h.clashes ++ [p] else h.clashes

/-! ## Steps -/

/-- Where the check of `write_pid_file` goes next. `ok` is whether the call succeeds, as
far as it can; `other` is whether a process that is not one of these has the PID. -/
def Host.check (h : Host) (ok other : Bool) : DaemonPc → Option DaemonPc
  | .openRead =>
      match h.files.name with
      | some inode => some (if ok then .read inode else .openWrite)
      | none => some .openWrite
  | .read inode =>
      match h.scanned inode with
      | some pid => some (if ok then .kill pid else .openWrite)
      | none => some .openWrite
  | .kill pid => some (if ok && (h.running pid || other) then .returned else .openWrite)
  | _ => none

def pidText (pid : Int) : Bytes := Decimal.printInt pid ++ [10]

/-- The calls that change the file. The outcome of the write is not looked at. -/
def Host.change (h : Host) (p : Nat) (pid : Int) (ok : Bool) : DaemonPc → Option Host
  | .openWrite =>
      if ok then
        some { h.goto p (.write h.files.openWrite.2) with
          files := h.files.openWrite.1
          clashes := h.clash p h.files.name.isSome }
      else some (h.goto p .returned)
  | .write inode =>
      if ok then
        some { h.goto p .serving with
          files := h.files.write inode (pidText pid)
          clashes := h.clash p (h.files.name = some inode) }
      else some (h.goto p .serving)
  | .unlink =>
      if ok then
        some { h.goto p .returned with
          files := h.files.unlink
          clashes := h.clash p h.files.name.isSome }
      else some (h.goto p .returned)
  | _ => none

inductive PidAction where
  /-- A new process comes to `write_pid_file`. -/
  | start (pid : Int)
  | call (p : Nat) (ok other : Bool)
  /-- `server_init` or the thread creation has failed, or the server has stopped. -/
  | remove (p : Nat)
  | exit (p : Nat)
deriving DecidableEq, Repr

def Host.step (h : Host) : PidAction → Option Host
  | .start pid =>
      if 0 < pid ∧ IsInt pid ∧ h.running pid = false then
        some { h with processes := h.processes ++ [⟨pid, .openRead⟩] }
      else none
  | .call p ok other =>
      match h.processes[p]? with
      | none => none
      | some q =>
          match h.check ok other q.pc with
          | some pc => some (h.goto p pc)
          | none => h.change p q.pid ok q.pc
  | .remove p =>
      match h.processes[p]? with
      | none => none
      | some q => if q.pc = .serving then some (h.goto p .unlink) else none
  | .exit p =>
      match h.processes[p]? with
      | none => none
      | some q => if q.live then some (h.goto p .exited) else none

def pidMachine (leftover : Option Bytes) : Machine Host PidAction :=
  ⟨⟨Files.leaving leftover, [], []⟩, Host.step⟩

/-- At most one process serves, and nobody else has touched the file of one. -/
structure SingleInstance (h : Host) : Prop where
  single : ∀ (i j : Nat) (p q : Daemon), h.processes[i]? = some p → h.processes[j]? = some q →
    p.pc = .serving → q.pc = .serving → i = j
  untouched : h.clashes = []

/-- No other process has got past the check without its PID in the file yet, and none
that is past it has its PID in the file. -/
def Host.Clear (h : Host) (p : Nat) : Prop :=
  ∀ q ∈ h.others p,
    q.pc.deciding = false ∧ (q.pc.named = true → h.recorded ≠ some q.pid)

/-- A write of a PID succeeds, and a check is passed only when that is clear. -/
def Timely (h : Host) : PidAction → Prop
  | .call p ok other =>
      ∀ q ∈ h.processes[p]?,
        (q.pc.writing = true → ok = true) ∧
          (h.check ok other q.pc = some .openWrite → h.Clear p)
  | _ => True

instance (h : Host) (p : Nat) : Decidable (h.Clear p) :=
  inferInstanceAs (Decidable (∀ q ∈ h.others p, _ ∧ _))

instance (h : Host) : (a : PidAction) → Decidable (Timely h a)
  | .call p ok other =>
      inferInstanceAs (Decidable (∀ q ∈ h.processes[p]?, (q.pc.writing = true → ok = true) ∧
        (h.check ok other q.pc = some .openWrite → h.Clear p)))
  | .start _ | .remove _ | .exit _ => isTrue trivial

/-! ## Moves -/

section Moves

variable {h : Host} {p : Nat} {q : Daemon} {pc : DaemonPc}

theorem goto_self (hq : h.processes[p]? = some q) :
    (h.goto p pc).processes[p]? = some ⟨q.pid, pc⟩ := by
  simp [Host.goto, hq]

theorem goto_other {i : Nat} (hi : i ≠ p) :
    (h.goto p pc).processes[i]? = h.processes[i]? := by
  simp [Host.goto, hi.symm]

theorem goto_cases (hq : h.processes[p]? = some q) {i : Nat} {r : Daemon}
    (hr : (h.goto p pc).processes[i]? = some r) :
    (i = p ∧ r = ⟨q.pid, pc⟩) ∨ (i ≠ p ∧ h.processes[i]? = some r) := by
  by_cases hi : i = p
  · subst hi
    rw [goto_self hq] at hr
    cases hr
    exact Or.inl ⟨rfl, rfl⟩
  · rw [goto_other hi] at hr
    exact Or.inr ⟨hi, hr⟩

theorem mem_others {r : Daemon} : r ∈ h.others p ↔ ∃ i, i ≠ p ∧ h.processes[i]? = some r := by
  simp [Host.others, List.mem_eraseIdx_iff_getElem?]

theorem mem_of_mem_others {r : Daemon} (hr : r ∈ h.others p) : r ∈ h.processes := by
  obtain ⟨i, -, hri⟩ := mem_others.mp hr
  exact List.mem_of_getElem? hri

theorem mem_goto_cases (hq : h.processes[p]? = some q) {r : Daemon}
    (hr : r ∈ (h.goto p pc).processes) : r = ⟨q.pid, pc⟩ ∨ r ∈ h.others p := by
  obtain ⟨i, hri⟩ := List.getElem?_of_mem hr
  rcases goto_cases hq hri with ⟨-, heq⟩ | ⟨hi, hold⟩
  · exact Or.inl heq
  · exact Or.inr (mem_others.mpr ⟨i, hi, hold⟩)

theorem clash_of_none {there : Bool} (hnone : ∀ r ∈ h.others p, r.pc ≠ .serving) :
    h.clash p there = h.clashes := by
  unfold Host.clash
  rw [if_neg]
  simpa using fun _ r hr => hnone r hr

theorem clash_of_serving {there : Bool} (hthere : there = true) {r : Daemon}
    (hr : r ∈ h.others p) (hserving : r.pc = .serving) : h.clash p there ≠ [] := by
  have hany : (h.others p).any (fun q => q.pc = .serving) = true :=
    List.any_eq_true.mpr ⟨r, hr, by simpa using hserving⟩
  simp [Host.clash, hthere, hany]

end Moves

theorem scanD_pidText {pid : Int} (hpid : IsInt pid) : scanD (pidText pid) = some (pid, [10]) := by
  have hstops : Decimal.Stops [10] := by
    intro b hb
    cases hb
    decide
  rw [scanD, pidText, Decimal.scanInt_printInt pid hstops, Option.map_some]
  simp only [narrow_of_isInt hpid]

theorem recorded_of_name {h : Host} {inode : Nat} (hname : h.files.name = some inode) :
    h.recorded = h.scanned inode := by
  rw [Host.recorded, hname, Option.bind_some]

/-! ## One server -/

theorem claims_of_named {pc : DaemonPc} (h : pc.named = true) : pc.claims = true := by
  simp [DaemonPc.claims, h]

/-- One process at most is past the check; when it has written its PID the file has it,
and while it has the file open for that the file is empty. -/
structure Guarded (h : Host) : Prop where
  sole : ∀ (i j : Nat) (p q : Daemon), h.processes[i]? = some p → h.processes[j]? = some q →
    p.pc.claims = true → q.pc.claims = true → i = j
  recorded : ∀ q ∈ h.processes, q.pc.named = true → h.recorded = some q.pid
  emptied : ∀ q ∈ h.processes, ∀ inode, q.pc = .write inode →
    h.files.name = some inode ∧ h.files.read inode = []
  ints : ∀ q ∈ h.processes, IsInt q.pid
  untouched : h.clashes = []

theorem Guarded.singleInstance {h : Host} (g : Guarded h) : SingleInstance h where
  single i j p q hp hq hpserving hqserving :=
    g.sole i j p q hp hq (by rw [hpserving]; rfl) (by rw [hqserving]; rfl)
  untouched := g.untouched

theorem Guarded.others {h : Host} (g : Guarded h) {p : Nat} {q : Daemon}
    (hq : h.processes[p]? = some q) (hclaims : q.pc.claims = true) :
    ∀ r ∈ h.others p, r.pc.claims = false := by
  intro r hr
  obtain ⟨i, hi, hri⟩ := mem_others.mp hr
  by_contra hother
  exact hi (g.sole i p r q hri hq (by simpa using hother) hclaims)

theorem Guarded.ints_goto {h : Host} (g : Guarded h) {p : Nat} {q : Daemon}
    (hq : h.processes[p]? = some q) {pc : DaemonPc} :
    ∀ r ∈ (h.goto p pc).processes, IsInt r.pid := by
  intro r hr
  rcases mem_goto_cases hq hr with rfl | hold
  · exact g.ints q (List.mem_of_getElem? hq)
  · exact g.ints r (mem_of_mem_others hold)

theorem Guarded.goto {h : Host} (g : Guarded h) {p : Nat} {q : Daemon}
    (hq : h.processes[p]? = some q) {pc : DaemonPc}
    (hclaims : pc.claims = true → q.pc.claims = true)
    (hnamed : pc.named = true → q.pc.named = true) (hwriting : pc.writing = false) :
    Guarded (h.goto p pc) where
  sole i j a b ha hb haclaims hbclaims := by
    rcases goto_cases hq ha with ⟨rfl, rfl⟩ | ⟨-, haold⟩
    · rcases goto_cases hq hb with ⟨rfl, -⟩ | ⟨-, hbold⟩
      · rfl
      · exact g.sole _ _ q b hq hbold (hclaims haclaims) hbclaims
    · rcases goto_cases hq hb with ⟨rfl, rfl⟩ | ⟨-, hbold⟩
      · exact g.sole _ _ a q haold hq haclaims (hclaims hbclaims)
      · exact g.sole _ _ a b haold hbold haclaims hbclaims
  recorded r hr hrnamed := by
    rcases mem_goto_cases hq hr with rfl | hold
    · exact g.recorded q (List.mem_of_getElem? hq) (hnamed hrnamed)
    · exact g.recorded r (mem_of_mem_others hold) hrnamed
  emptied r hr inode hpc := by
    rcases mem_goto_cases hq hr with rfl | hold
    · rw [show pc = .write inode from hpc] at hwriting
      cases hwriting
    · exact g.emptied r (mem_of_mem_others hold) inode hpc
  ints := g.ints_goto hq
  untouched := g.untouched

theorem Guarded.of_others {h : Host} (g : Guarded h) {p : Nat} {q : Daemon}
    (hq : h.processes[p]? = some q) (hothers : ∀ r ∈ h.others p, r.pc.claims = false)
    {pc : DaemonPc} {files : Files UInt8} {clashes : List Nat} (hclashes : clashes = [])
    (hnamed : pc.named = true →
      Host.recorded { h.goto p pc with files := files, clashes := clashes } = some q.pid)
    (hemptied : ∀ inode, pc = .write inode → files.name = some inode ∧ files.read inode = []) :
    Guarded { h.goto p pc with files := files, clashes := clashes } where
  sole i j a b ha hb haclaims hbclaims := by
    have hidle : ∀ k r, k ≠ p → h.processes[k]? = some r → r.pc.claims = false :=
      fun k r hk hr => hothers r (mem_others.mpr ⟨k, hk, hr⟩)
    rcases goto_cases hq ha with ⟨rfl, -⟩ | ⟨hi, haold⟩
    · rcases goto_cases hq hb with ⟨rfl, -⟩ | ⟨hj, hbold⟩
      · rfl
      · rw [hidle j b hj hbold] at hbclaims
        cases hbclaims
    · rw [hidle i a hi haold] at haclaims
      cases haclaims
  recorded r hr hrnamed := by
    rcases mem_goto_cases hq hr with rfl | hold
    · exact hnamed hrnamed
    · have hnone := hothers r hold
      rw [claims_of_named hrnamed] at hnone
      cases hnone
  emptied r hr inode hpc := by
    rcases mem_goto_cases hq hr with rfl | hold
    · exact hemptied inode hpc
    · have hnone := hothers r hold
      rw [hpc] at hnone
      cases hnone
  ints := g.ints_goto hq
  untouched := hclashes

theorem not_serving_of_not_claims {h : Host} {p : Nat}
    (hothers : ∀ r ∈ h.others p, r.pc.claims = false) : ∀ r ∈ h.others p, r.pc ≠ .serving := by
  intro r hr hserving
  have hnone := hothers r hr
  rw [hserving] at hnone
  cases hnone

theorem Guarded.start {h : Host} (g : Guarded h) {pid : Int} (hpid : IsInt pid) :
    Guarded { h with processes := h.processes ++ [⟨pid, .openRead⟩] } := by
  have hcases : ∀ {i : Nat} {r : Daemon},
      (h.processes ++ [⟨pid, .openRead⟩])[i]? = some r → r.pc.claims = true →
        h.processes[i]? = some r := by
    intro i r hr hclaims
    rcases Nat.lt_or_ge i h.processes.length with hlt | hge
    · rwa [List.getElem?_append_left hlt] at hr
    · rw [List.getElem?_append_right hge, List.getElem?_singleton] at hr
      split at hr
      · cases hr
        cases hclaims
      · cases hr
  have hmem : ∀ r ∈ h.processes ++ [⟨pid, .openRead⟩], r.pc.claims = true → r ∈ h.processes := by
    intro r hr hclaims
    obtain ⟨i, hri⟩ := List.getElem?_of_mem hr
    exact List.mem_of_getElem? (hcases hri hclaims)
  refine ⟨?_, ?_, ?_, ?_, g.untouched⟩
  · intro i j a b ha hb haclaims hbclaims
    exact g.sole i j a b (hcases ha haclaims) (hcases hb hbclaims) haclaims hbclaims
  · intro r hr hnamed
    exact g.recorded r (hmem r hr (claims_of_named hnamed)) hnamed
  · intro r hr inode hpc
    exact g.emptied r (hmem r hr (by rw [hpc]; rfl)) inode hpc
  · intro r hr
    rcases List.mem_append.mp hr with hold | hnew
    · exact g.ints r hold
    · rw [List.mem_singleton.mp hnew]
      exact hpid

/-- The check ends in front of the `fopen` for writing or claims nothing. -/
theorem check_cases {h : Host} {ok other : Bool} {pc pc' : DaemonPc}
    (hcheck : h.check ok other pc = some pc') : pc' = .openWrite ∨ pc'.claims = false := by
  unfold Host.check at hcheck
  repeat' split at hcheck
  all_goals cases hcheck
  all_goals first
    | exact Or.inl rfl
    | exact Or.inr rfl

theorem writing_of_claims {pc : DaemonPc} (h : pc.claims = false) : pc.writing = false := by
  cases pc <;> first | rfl | cases h

/-- When the file names no other process past the check, there is none. -/
theorem Guarded.not_claims {h : Host} (g : Guarded h) {p : Nat} (hclear : h.Clear p) :
    ∀ r ∈ h.others p, r.pc.claims = false := by
  intro r hr
  obtain ⟨hdeciding, hname⟩ := hclear r hr
  have hnamed : r.pc.named = false := by
    by_contra hother
    have htrue : r.pc.named = true := by simpa using hother
    exact hname htrue (g.recorded r (mem_of_mem_others hr) htrue)
  simp [DaemonPc.claims, hdeciding, hnamed]

theorem Guarded.check {h : Host} (g : Guarded h) {p : Nat} {q : Daemon} {ok other : Bool}
    (hq : h.processes[p]? = some q) {pc : DaemonPc} (hcheck : h.check ok other q.pc = some pc)
    (hclear : pc = .openWrite → h.Clear p) : Guarded (h.goto p pc) := by
  rcases check_cases hcheck with rfl | hidle
  · exact g.of_others hq (g.not_claims (hclear rfl)) g.untouched (fun h => nomatch h)
      (fun _ h => nomatch h)
  · refine g.goto hq ?_ ?_ (writing_of_claims hidle)
    · intro hclaims
      rw [hclaims] at hidle
      cases hidle
    · intro hnamed
      rw [claims_of_named hnamed] at hidle
      cases hidle

/-- What the one write of the PID leaves in the file. -/
theorem Guarded.recorded_write {h : Host} (g : Guarded h) {q : Daemon} (hq : q ∈ h.processes)
    {inode : Nat} (hpc : q.pc = .write inode) {h' : Host}
    (hfiles : h'.files = h.files.write inode (pidText q.pid)) : h'.recorded = some q.pid := by
  obtain ⟨hname, hempty⟩ := g.emptied q hq inode hpc
  have hread : h'.files.read inode = pidText q.pid := by
    rw [hfiles, Files.write_read hname, hempty, List.drop_nil, List.append_nil]
  have hname' : h'.files.name = some inode := by rw [hfiles, Files.write_name, hname]
  rw [recorded_of_name hname', Host.scanned, hread, scanD_pidText (g.ints q hq), Option.map_some]

theorem Guarded.change {h h' : Host} (g : Guarded h) {p : Nat} {q : Daemon} {ok : Bool}
    (hq : h.processes[p]? = some q) (hwrites : q.pc.writing = true → ok = true)
    (hs : h.change p q.pid ok q.pc = some h') : Guarded h' := by
  unfold Host.change at hs
  split at hs
  · next hpc =>
      have hothers := g.others hq (by rw [hpc]; rfl)
      split at hs <;> cases hs
      · refine g.of_others hq hothers ?_ (fun h => nomatch h) ?_
        · rw [clash_of_none (not_serving_of_not_claims hothers), g.untouched]
        · intro inode hinode
          cases hinode
          exact ⟨Files.openWrite_name h.files, Files.openWrite_read h.files⟩
      · exact g.goto hq (fun h => nomatch h) (fun h => nomatch h) rfl
  · next inode hpc =>
      have hothers := g.others hq (by rw [hpc]; rfl)
      rw [if_pos (hwrites (by rw [hpc]; rfl))] at hs
      cases hs
      refine g.of_others hq hothers ?_ ?_ (fun _ h => nomatch h)
      · rw [clash_of_none (not_serving_of_not_claims hothers), g.untouched]
      · intro _
        exact g.recorded_write (List.mem_of_getElem? hq) hpc rfl
  · next hpc =>
      have hothers := g.others hq (by rw [hpc]; rfl)
      split at hs <;> cases hs
      · refine g.of_others hq hothers ?_ (fun h => nomatch h) (fun _ h => nomatch h)
        rw [clash_of_none (not_serving_of_not_claims hothers), g.untouched]
      · exact g.goto hq (fun h => nomatch h) (fun h => nomatch h) rfl
  · cases hs

theorem Guarded.step {h h' : Host} (g : Guarded h) {a : PidAction} (ha : Timely h a)
    (hs : h.step a = some h') : Guarded h' := by
  cases a with
  | start pid =>
      simp only [Host.step] at hs
      split at hs <;> cases hs
      next hpid => exact g.start hpid.2.1
  | call p ok other =>
      simp only [Host.step] at hs
      split at hs
      · cases hs
      · next q hq =>
          obtain ⟨hwrites, hclear⟩ := ha q (by rw [hq]; rfl)
          split at hs
          · next pc hcheck =>
              cases hs
              refine g.check hq hcheck ?_
              rintro rfl
              exact hclear hcheck
          · exact g.change hq hwrites hs
  | remove p =>
      simp only [Host.step] at hs
      repeat' split at hs
      all_goals cases hs
      next q hq hserving =>
        exact g.goto hq (fun _ => by rw [hserving]; rfl) (fun _ => by rw [hserving]; rfl) rfl
  | exit p =>
      simp only [Host.step] at hs
      repeat' split at hs
      all_goals cases hs
      next q hq _ => exact g.goto hq (fun h => nomatch h) (fun h => nomatch h) rfl

theorem guarded_of_reachable {leftover : Option Bytes} {h : Host}
    (hreach : (pidMachine leftover).ReachableUnder Timely h) : Guarded h := by
  refine Machine.ReachableUnder.invariant ?_ (fun _ _ _ _ g ha hs => g.step ha hs) hreach
  refine ⟨?_, ?_, ?_, ?_, rfl⟩
  · intro i j p q hp
    cases hp
  all_goals
    intro q hq
    cases hq

/-! ## What the other steps lead to -/

/-- Timely steps can still lead to two servers, or to a change of the file of one. -/
def Doomed (leftover : Option Bytes) (h : Host) : Prop :=
  ∃ t, (pidMachine leftover).ReachesUnder Timely h t ∧ ¬ SingleInstance t

section Doomed

variable {leftover : Option Bytes} {h t : Host} {p : Nat} {q r : Daemon}

theorem Doomed.of_reaches (hrun : (pidMachine leftover).ReachesUnder Timely h t)
    (hdoomed : Doomed leftover t) : Doomed leftover h := by
  obtain ⟨u, hu, hbad⟩ := hdoomed
  exact ⟨u, Relation.ReflTransGen.trans hrun hu, hbad⟩

theorem timely_call (hq : h.processes[p]? = some q) {other : Bool}
    (hcheck : h.check true other q.pc ≠ some .openWrite) : Timely h (.call p true other) := by
  intro q' hq'
  rw [hq] at hq'
  cases hq'
  exact ⟨fun _ => rfl, fun hpass => absurd hpass hcheck⟩

theorem reaches_serving_of_write (leftover : Option Bytes) {pid : Int} {inode : Nat}
    (hq : h.processes[p]? = some ⟨pid, .write inode⟩) :
    ∃ t, (pidMachine leftover).ReachesUnder Timely h t ∧
      t.processes = (h.goto p .serving).processes ∧ t.files.name = h.files.name := by
  have hs : h.step (.call p true false) = some
      { h.goto p .serving with
        files := h.files.write inode (pidText pid)
        clashes := h.clash p (h.files.name = some inode) } := by
    simp [Host.step, hq, Host.check, Host.change]
  exact ⟨_, Machine.ReachesUnder.of_step (timely_call hq (fun h => nomatch h)) hs, rfl, rfl⟩

theorem goto_goto (h : Host) (p : Nat) (pc pc' : DaemonPc) :
    ((h.goto p pc).goto p pc').processes = (h.goto p pc').processes := by
  simp [Host.goto, List.modify_modify_eq, Function.comp_def]

theorem reaches_serving_of_openWrite (leftover : Option Bytes) {pid : Int}
    (hq : h.processes[p]? = some ⟨pid, .openWrite⟩) :
    ∃ t, (pidMachine leftover).ReachesUnder Timely h t ∧
      t.processes = (h.goto p .serving).processes ∧ t.files.name.isSome = true := by
  have hs : h.step (.call p true false) = some
      { h.goto p (.write h.files.openWrite.2) with
        files := h.files.openWrite.1
        clashes := h.clash p h.files.name.isSome } := by
    simp [Host.step, hq, Host.check, Host.change]
  have hwrite : (h.goto p (.write h.files.openWrite.2)).processes[p]? =
      some ⟨pid, .write h.files.openWrite.2⟩ := goto_self hq
  obtain ⟨t, hrun, hprocesses, hname⟩ := reaches_serving_of_write leftover (h := {
    h.goto p (.write h.files.openWrite.2) with
    files := h.files.openWrite.1
    clashes := h.clash p h.files.name.isSome }) hwrite
  refine ⟨t, Relation.ReflTransGen.head ⟨_, timely_call hq (fun h => nomatch h), hs⟩ hrun, ?_, ?_⟩
  · rw [hprocesses]
    exact goto_goto h p _ _
  · rw [hname, Files.openWrite_name]
    rfl

theorem reaches_serving (leftover : Option Bytes) (hq : h.processes[p]? = some q)
    (hdeciding : q.pc.deciding = true) :
    ∃ t, (pidMachine leftover).ReachesUnder Timely h t ∧
      t.processes = (h.goto p .serving).processes := by
  obtain ⟨pid, pc⟩ := q
  cases pc with
  | openWrite =>
      obtain ⟨t, hrun, hprocesses, -⟩ := reaches_serving_of_openWrite leftover hq
      exact ⟨t, hrun, hprocesses⟩
  | write inode =>
      obtain ⟨t, hrun, hprocesses, -⟩ := reaches_serving_of_write leftover hq
      exact ⟨t, hrun, hprocesses⟩
  | _ => cases hdeciding

theorem doomed_of_serving {i j : Nat} {a b : Daemon} (hi : h.processes[i]? = some a)
    (hj : h.processes[j]? = some b) (ha : a.pc = .serving) (hb : b.pc = .serving)
    (hij : i ≠ j) : Doomed leftover h :=
  ⟨h, Relation.ReflTransGen.refl, fun hsingle => hij (hsingle.single i j a b hi hj ha hb)⟩

/-- One that is about to write its PID, and another that is past the check. Either
both come to serve, or the other removes the file of the first. -/
theorem doomed_of_two {pid : Int} {i : Nat} (hp : h.processes[p]? = some ⟨pid, .openWrite⟩)
    (hi : h.processes[i]? = some r) (hne : i ≠ p) (hclaims : r.pc.claims = true) :
    Doomed leftover h := by
  obtain ⟨t, hrun, hprocesses, hname⟩ := reaches_serving_of_openWrite leftover hp
  have htp : t.processes[p]? = some ⟨pid, .serving⟩ := by
    rw [hprocesses]
    exact goto_self hp
  have hti : t.processes[i]? = some r := by
    rw [hprocesses, goto_other hne]
    exact hi
  refine Doomed.of_reaches hrun ?_
  by_cases hdeciding : r.pc.deciding = true
  · obtain ⟨u, hrun', hprocesses'⟩ := reaches_serving leftover hti hdeciding
    refine Doomed.of_reaches hrun' ?_
    have hup : u.processes[p]? = some ⟨pid, .serving⟩ := by
      rw [hprocesses', goto_other hne.symm]
      exact htp
    have hui : u.processes[i]? = some ⟨r.pid, .serving⟩ := by
      rw [hprocesses']
      exact goto_self hti
    exact doomed_of_serving hup hui rfl rfl hne.symm
  · obtain ⟨rpid, pc⟩ := r
    cases pc with
    | serving => exact doomed_of_serving htp hti rfl rfl hne.symm
    | unlink =>
        have hs : t.step (.call i true false) = some
            { t.goto i .returned with
              files := t.files.unlink
              clashes := t.clash i t.files.name.isSome } := by
          simp [Host.step, hti, Host.check, Host.change]
        have hother : (⟨pid, .serving⟩ : Daemon) ∈ t.others i :=
          mem_others.mpr ⟨p, hne.symm, htp⟩
        exact ⟨_, Machine.ReachesUnder.of_step (timely_call hti (fun h => nomatch h)) hs,
          fun hsingle => clash_of_serving hname hother rfl hsingle.untouched⟩
    | openWrite | write inode => exact absurd rfl hdeciding
    | _ => cases hclaims

theorem goto_eq_set (hq : h.processes[p]? = some q) (pc : DaemonPc) :
    (h.goto p pc).processes = h.processes.set p ⟨q.pid, pc⟩ := by
  simp [Host.goto, List.modify_eq_set_getElem?, hq]

/-- The processes with some PID may all exit; by induction on how many there are. -/
theorem reaches_vacant (leftover : Option Bytes) {pid : Int} (hq : h.processes[p]? = some q)
    (hne : q.pid ≠ pid) :
    ∃ t, (pidMachine leftover).ReachesUnder Timely h t ∧ t.running pid = false ∧
      t.files = h.files ∧ t.processes[p]? = some q ∧
      ∀ (i : Nat) (r : Daemon), t.processes[i]? = some r → r.pc.claims = true →
        h.processes[i]? = some r := by
  generalize hcount : h.processes.countP (fun r => r.live && r.pid = pid) = n
  induction n generalizing h with
  | zero =>
      have hnone := List.countP_eq_zero.mp hcount
      refine ⟨h, Relation.ReflTransGen.refl, ?_, rfl, hq, fun _ _ hr _ => hr⟩
      simpa [Host.running] using hnone
  | succ n ih =>
      have hpos : 0 < h.processes.countP fun r => r.live && r.pid = pid := by omega
      obtain ⟨r, hr, hpid⟩ := List.countP_pos_iff.mp hpos
      obtain ⟨i, hi⟩ := List.getElem?_of_mem hr
      obtain ⟨hlive, hrpid⟩ : r.live = true ∧ r.pid = pid := by simpa using hpid
      have hip : p ≠ i := by
        rintro rfl
        rw [hq] at hi
        cases hi
        exact hne hrpid
      have hs : h.step (.exit i) = some (h.goto i .exited) := by
        simp [Host.step, hi, hlive]
      have hless : (h.goto i .exited).processes.countP (fun r => r.live && r.pid = pid) = n := by
        have hset := Population.countP_set_getElem? (p := fun r => r.live && r.pid = pid)
          ⟨r.pid, .exited⟩ hi
        rw [hpid, if_pos rfl, hcount, if_neg (by simp [Daemon.live])] at hset
        rw [goto_eq_set hi]
        omega
      obtain ⟨t, hrun, hvacant, hfiles, hp, hkept⟩ :=
        ih ((goto_other hip).trans hq) hless
      refine ⟨t, Relation.ReflTransGen.head ⟨.exit i, trivial, hs⟩ hrun, hvacant, hfiles, hp, ?_⟩
      intro j a ha hclaims
      rcases goto_cases hi (hkept j a ha hclaims) with ⟨-, rfl⟩ | ⟨-, hold⟩
      · cases hclaims
      · exact hold

theorem step_check {ok other : Bool} {pc : DaemonPc} (hq : h.processes[p]? = some q)
    (hcheck : h.check ok other q.pc = some pc) :
    h.step (.call p ok other) = some (h.goto p pc) := by
  simp [Host.step, hq, hcheck]

theorem clear_of_sole {i : Nat} (hq : h.processes[i]? = some q) (hserving : q.pc = .serving)
    (hrecorded : h.recorded = none)
    (hsole : ∀ (j : Nat) (r : Daemon), j ≠ p → h.processes[j]? = some r →
      r.pc.claims = true → j = i) : h.Clear p := by
  intro r hr
  obtain ⟨j, hj, hrj⟩ := mem_others.mp hr
  by_cases hclaims : r.pc.claims = true
  · obtain rfl := hsole j r hj hrj hclaims
    rw [hq] at hrj
    cases hrj
    rw [hserving, hrecorded]
    exact ⟨rfl, fun _ h => nomatch h⟩
  · have hidle : r.pc.claims = false := by simpa using hclaims
    obtain ⟨hdeciding, hnamed⟩ := Bool.or_eq_false_iff.mp hidle
    rw [hnamed]
    exact ⟨hdeciding, fun h => nomatch h⟩

theorem recorded_of_empty {inode : Nat} (hname : h.files.name = some inode)
    (hempty : h.files.read inode = []) : h.scanned inode = none ∧ h.recorded = none := by
  have hscanned : h.scanned inode = none := by
    rw [Host.scanned, hempty]
    rfl
  exact ⟨hscanned, (recorded_of_name hname).trans hscanned⟩

theorem doomed_of_reader {i inode : Nat} {pid : Int} (hi : h.processes[i]? = some q)
    (hserving : q.pc = .serving) (hp : h.processes[p]? = some ⟨pid, .read inode⟩) (hne : i ≠ p)
    (hname : h.files.name = some inode) (hempty : h.files.read inode = [])
    (hsole : ∀ (j : Nat) (r : Daemon), j ≠ p → h.processes[j]? = some r →
      r.pc.claims = true → j = i) : Doomed leftover h := by
  obtain ⟨hscanned, hrecorded⟩ := recorded_of_empty hname hempty
  have hcheck : h.check true false (.read inode) = some .openWrite := by
    simp only [Host.check, hscanned]
  have htimely : Timely h (.call p true false) := by
    intro r hr
    rw [hp] at hr
    cases hr
    exact ⟨fun _ => rfl, fun _ => clear_of_sole hi hserving hrecorded hsole⟩
  refine Doomed.of_reaches (Machine.ReachesUnder.of_step htimely (step_check hp hcheck)) ?_
  exact doomed_of_two (goto_self hp) ((goto_other hne).trans hi) hne (by rw [hserving]; rfl)

theorem doomed_of_newcomer {i inode : Nat} {pid : Int} (hi : h.processes[i]? = some q)
    (hserving : q.pc = .serving) (hp : h.processes[p]? = some ⟨pid, .openRead⟩) (hne : i ≠ p)
    (hname : h.files.name = some inode) (hempty : h.files.read inode = [])
    (hsole : ∀ (j : Nat) (r : Daemon), j ≠ p → h.processes[j]? = some r →
      r.pc.claims = true → j = i) : Doomed leftover h := by
  have hcheck : h.check true false .openRead = some (.read inode) := by
    simp [Host.check, hname]
  have htimely : Timely h (.call p true false) :=
    timely_call hp (by rw [hcheck]; exact fun h => nomatch h)
  refine Doomed.of_reaches (Machine.ReachesUnder.of_step htimely (step_check hp hcheck)) ?_
  refine doomed_of_reader ((goto_other hne).trans hi) hserving (goto_self hp) hne hname hempty ?_
  intro j r hj hr hclaims
  exact hsole j r hj ((goto_other hj).symm.trans hr) hclaims

/-- The name stands for an empty file, and the only process past the check serves: the
next one to start reads no number there. -/
theorem doomed_of_empty {inode : Nat} (hq : h.processes[p]? = some q)
    (hserving : q.pc = .serving) (hname : h.files.name = some inode)
    (hempty : h.files.read inode = [])
    (hsole : ∀ (i : Nat) (r : Daemon), h.processes[i]? = some r → r.pc.claims = true → i = p) :
    Doomed leftover h := by
  obtain ⟨pid, hpos, hint, hne⟩ : ∃ pid : Int, 0 < pid ∧ IsInt pid ∧ q.pid ≠ pid := by
    by_cases hone : q.pid = 1
    · exact ⟨2, by decide, by decide, by omega⟩
    · exact ⟨1, by decide, by decide, hone⟩
  obtain ⟨t, hrun, hvacant, hfiles, hp, hkept⟩ := reaches_vacant leftover hq hne
  have hlt : p < t.processes.length := (List.getElem?_eq_some_iff.mp hp).1
  have hs : t.step (.start pid) = some
      { t with processes := t.processes ++ [⟨pid, .openRead⟩] } := by
    simp [Host.step, hpos, hint, hvacant]
  refine Doomed.of_reaches (hrun.step (a := PidAction.start pid) trivial hs) ?_
  refine doomed_of_newcomer (p := t.processes.length)
    ((List.getElem?_append_left hlt).trans hp) hserving List.getElem?_concat_length hlt.ne
    (hfiles ▸ hname) (hfiles ▸ hempty) ?_
  intro j r hj hr hclaims
  refine hsole j r (hkept j r ?_ hclaims) hclaims
  have hjlt : j < t.processes.length := by
    have hjle := (List.getElem?_eq_some_iff.mp hr).1
    rw [List.length_append, List.length_singleton] at hjle
    omega
  exact (List.getElem?_append_left hjlt).symm.trans hr

theorem Guarded.doomed_of_failed_write (g : Guarded h) {inode : Nat}
    (hq : h.processes[p]? = some q) (hpc : q.pc = .write inode) :
    Doomed leftover (h.goto p .serving) := by
  obtain ⟨hname, hempty⟩ := g.emptied q (List.mem_of_getElem? hq) inode hpc
  refine doomed_of_empty (goto_self hq) rfl hname hempty ?_
  intro i r hr hclaims
  rcases goto_cases hq hr with ⟨hi, -⟩ | ⟨-, hold⟩
  · exact hi
  · exact g.sole i p r q hold hq hclaims (by rw [hpc]; rfl)

theorem claims_of_not_clear (h : ¬ (q.pc.deciding = false ∧
    (q.pc.named = true → t.recorded ≠ some q.pid))) : q.pc.claims = true := by
  by_contra hidle
  obtain ⟨hdeciding, hnamed⟩ := Bool.or_eq_false_iff.mp (Bool.not_eq_true _ ▸ hidle)
  rw [hnamed] at h
  exact h ⟨hdeciding, fun hfalse => nomatch hfalse⟩

/-- After one step that is not timely, timely ones can lead to two servers, or to a
change of the file of one. -/
theorem Guarded.doomed (g : Guarded h) {h' : Host} {a : PidAction} (hs : h.step a = some h')
    (ha : ¬ Timely h a) : Doomed leftover h' := by
  cases a with
  | start | remove | exit => exact absurd trivial ha
  | call p ok other =>
      obtain ⟨q, hq, hbad⟩ : ∃ q, h.processes[p]? = some q ∧
          ¬ ((q.pc.writing = true → ok = true) ∧
            (h.check ok other q.pc = some .openWrite → h.Clear p)) := by
        by_contra hnone
        refine ha fun q hq => ?_
        by_contra hq'
        exact hnone ⟨q, hq, hq'⟩
      by_cases hwrites : q.pc.writing = true → ok = true
      · obtain ⟨hcheck, hclear⟩ : h.check ok other q.pc = some .openWrite ∧ ¬ h.Clear p := by
          by_contra hnone
          exact hbad ⟨hwrites, fun hcheck => by_contra fun hclear => hnone ⟨hcheck, hclear⟩⟩
        rw [step_check hq hcheck] at hs
        cases hs
        obtain ⟨r, hr, hother⟩ : ∃ r ∈ h.others p, ¬ (r.pc.deciding = false ∧
            (r.pc.named = true → h.recorded ≠ some r.pid)) := by
          simpa only [Host.Clear, not_forall, exists_prop] using hclear
        obtain ⟨i, hi, hri⟩ := mem_others.mp hr
        exact doomed_of_two (goto_self hq) ((goto_other hi).trans hri) hi
          (claims_of_not_clear hother)
      · obtain ⟨hwriting, hfails⟩ : q.pc.writing = true ∧ ok ≠ true := by
          simpa only [Classical.not_imp] using hwrites
        obtain ⟨pid, pc⟩ := q
        cases pc with
        | write inode =>
            have hok : ok = false := by simpa using hfails
            subst hok
            have hserves : h.step (.call p false other) = some (h.goto p .serving) := by
              simp [Host.step, hq, Host.check, Host.change]
            rw [hserves] at hs
            cases hs
            exact g.doomed_of_failed_write hq rfl
        | _ => cases hwriting

end Doomed

/-! ## The result -/

/-- In every run whose steps are timely at most one process serves, and its file is left
to it; and after any other step there is a timely run in which that is not so. -/
theorem single_instance_of_timely {leftover : Option Bytes} {h : Host}
    (hreach : (pidMachine leftover).ReachableUnder Timely h) :
    SingleInstance h ∧ ∀ a h', h.step a = some h' → ¬ Timely h a →
      ∃ t, (pidMachine leftover).ReachesUnder Timely h' t ∧ ¬ SingleInstance t :=
  ⟨(guarded_of_reachable hreach).singleInstance,
    fun _ _ hs ha => (guarded_of_reachable hreach).doomed hs ha⟩

/-- A start over the PID of a dead process, one that is refused while that serves, and
one after it has removed the file. -/
theorem single_instance_after_restart :
    ∃ h, (pidMachine (some (text "77\n"))).ReachableUnder Timely h ∧
      h.processes = [⟨100, .returned⟩, ⟨200, .returned⟩, ⟨300, .serving⟩] ∧
      h.files.content = some (text "300\n") ∧ SingleInstance h := by
  have hrun : ((pidMachine (some (text "77\n"))).execUnder (fun h a => decide (Timely h a))
      (pidMachine (some (text "77\n"))).start
      ([PidAction.start 100] ++ List.replicate 5 (PidAction.call 0 true false) ++
        [.start 200] ++ List.replicate 3 (.call 1 true false) ++
        [.remove 0, .call 0 true false, .start 300] ++
        List.replicate 3 (.call 2 true false))).any (fun h =>
        decide (h.processes = [⟨100, .returned⟩, ⟨200, .returned⟩, ⟨300, .serving⟩] ∧
          h.files.content = some (text "300\n"))) = true := by
    decide +kernel
  obtain ⟨h, hreach, hfacts⟩ := Machine.ReachableUnder.exists_of_exec hrun
  obtain ⟨hprocesses, hcontent⟩ := of_decide_eq_true hfacts
  have htimely : (pidMachine (some (text "77\n"))).ReachableUnder Timely h :=
    Machine.ReachesUnder.mono (fun _ _ h => of_decide_eq_true h) hreach
  exact ⟨h, htimely, hprocesses, hcontent, (single_instance_of_timely htimely).1⟩

/-- Two starts that both find no file: the second empties and rewrites the file of the
first, and both serve. -/
theorem two_instances :
    (∃ h, (pidMachine none).Reachable h ∧
      h.processes = [⟨100, .serving⟩, ⟨200, .serving⟩] ∧ h.clashes = [1, 1]) ∧
    ¬ (∀ leftover h, (pidMachine leftover).Reachable h → SingleInstance h) := by
  have hrun : ((pidMachine none).exec (pidMachine none).start
      [.start 100, .start 200, .call 0 true false, .call 1 true false, .call 0 true false,
        .call 0 true false, .call 1 true false, .call 1 true false]).any (fun h =>
        decide (h.processes = [⟨100, .serving⟩, ⟨200, .serving⟩] ∧ h.clashes = [1, 1])) =
      true := by
    decide +kernel
  obtain ⟨h, hreach, hfacts⟩ := Machine.Reachable.exists_of_exec hrun
  obtain ⟨hprocesses, hclashes⟩ := of_decide_eq_true hfacts
  refine ⟨⟨h, hreach, hprocesses, hclashes⟩, ?_⟩
  intro hsingle
  have huntouched := (hsingle none h hreach).untouched
  rw [hclashes] at huntouched
  cases huntouched

end RsvpControl.Server
