import RsvpControl.Server.PidFile

/-! # Starts that do not overlap

When one process at a time is in `write_pid_file`, and its calls succeed, what it has
opened and read is still what the file is while another one serves. So it does not get
past the check then, and every step is timely.
-/

namespace RsvpControl.Server

open RsvpControl.Core

def DaemonPc.starting : DaemonPc → Bool
  | .openRead | .read _ | .kill _ | .openWrite | .write _ => true
  | _ => false

/-- A start finds no other in `write_pid_file`, and the calls succeed. -/
def Separate (h : Host) : PidAction → Prop
  | .start _ => ∀ q ∈ h.processes, q.pc.starting = false
  | .call _ ok _ => ok = true
  | _ => True

instance (h : Host) : (a : PidAction) → Decidable (Separate h a)
  | .start _ => inferInstanceAs (Decidable (∀ q ∈ h.processes, q.pc.starting = false))
  | .call _ ok _ => inferInstanceAs (Decidable (ok = true))
  | .remove _ | .exit _ => inferInstanceAs (Decidable True)

/-- The one process in `write_pid_file` has the file of the one that serves open, or
its PID. -/
structure Informed (h : Host) : Prop where
  alone : ∀ (i j : Nat) (p q : Daemon), h.processes[i]? = some p → h.processes[j]? = some q →
    p.pc.starting = true → q.pc.starting = true → i = j
  opened : ∀ p ∈ h.processes, ∀ q ∈ h.processes, ∀ inode, p.pc = .read inode →
    q.pc.named = true → h.files.name = some inode
  scanned : ∀ p ∈ h.processes, ∀ q ∈ h.processes, ∀ pid, p.pc = .kill pid →
    q.pc.named = true → pid = q.pid

theorem starting_of_deciding {pc : DaemonPc} (h : pc.deciding = true) : pc.starting = true := by
  cases pc with
  | openWrite | write => rfl
  | _ => cases h

section Steps

variable {h : Host} {p : Nat} {q : Daemon} {pc : DaemonPc}

theorem check_starting {ok other : Bool} {pc' : DaemonPc}
    (hcheck : h.check ok other pc = some pc') : pc.starting = true ∧ pc'.named = false := by
  unfold Host.check at hcheck
  repeat' split at hcheck
  all_goals cases hcheck
  all_goals exact ⟨rfl, rfl⟩

/-- While another process has its PID in the file, a check that has been told so far
what is there is not passed. -/
theorem Informed.not_passed (g : Guarded h) (hinformed : Informed h) {other : Bool}
    (hq : q ∈ h.processes) {r : Daemon} (hr : r ∈ h.processes) (hnamed : r.pc.named = true) :
    h.check true other q.pc ≠ some .openWrite := by
  have hrecorded := g.recorded r hr hnamed
  intro hpass
  cases hpc : q.pc with
  | openRead =>
      rw [hpc] at hpass
      cases hname : h.files.name with
      | none =>
          rw [Host.recorded, hname] at hrecorded
          cases hrecorded
      | some inode => simp [Host.check, hname] at hpass
  | read inode =>
      rw [recorded_of_name (hinformed.opened q hq r hr inode hpc hnamed)] at hrecorded
      simp [hpc, Host.check, hrecorded] at hpass
  | kill pid =>
      have hpid := hinformed.scanned q hq r hr pid hpc hnamed
      have hlive : r.live = true := by
        cases hrpc : r.pc <;> simp_all [DaemonPc.named, Daemon.live]
      have hrunning : h.running pid = true :=
        List.any_eq_true.mpr ⟨r, hr, by simp [hlive, hpid]⟩
      simp [hpc, Host.check, hrunning] at hpass
  | _ => simp [hpc, Host.check] at hpass

theorem Informed.timely (g : Guarded h) (hinformed : Informed h) {a : PidAction}
    (ha : Separate h a) : Timely h a := by
  cases a with
  | start | remove | exit => trivial
  | call p ok other =>
      obtain rfl : ok = true := ha
      intro q hq
      refine ⟨fun _ => rfl, fun hpass r hr => ?_⟩
      obtain ⟨i, hi, hri⟩ := mem_others.mp hr
      refine ⟨?_, ?_⟩
      · by_contra hdeciding
        have hstarting := starting_of_deciding (by simpa using hdeciding)
        exact hi (hinformed.alone i p r q hri hq hstarting (check_starting hpass).1)
      · intro hnamed
        exact absurd hpass (hinformed.not_passed g (List.mem_of_getElem? hq)
          (List.mem_of_getElem? hri) hnamed)

theorem Informed.goto (hinformed : Informed h) (hq : h.processes[p]? = some q)
    (hstarting : pc.starting = true → q.pc.starting = true)
    (hnamed : pc.named = true → q.pc.named = true)
    (hread : ∀ inode, pc = .read inode → ∀ r ∈ h.processes, r.pc.named = true →
      h.files.name = some inode)
    (hkill : ∀ pid, pc = .kill pid → ∀ r ∈ h.processes, r.pc.named = true → pid = r.pid) :
    Informed (h.goto p pc) := by
  have hold : ∀ r ∈ (h.goto p pc).processes, r.pc.named = true →
      ∃ r' ∈ h.processes, r'.pc.named = true ∧ r'.pid = r.pid := by
    intro r hr hrnamed
    rcases mem_goto_cases hq hr with rfl | hrold
    · exact ⟨q, List.mem_of_getElem? hq, hnamed hrnamed, rfl⟩
    · exact ⟨r, mem_of_mem_others hrold, hrnamed, rfl⟩
  refine ⟨?_, ?_, ?_⟩
  · intro i j a b ha hb hastarting hbstarting
    rcases goto_cases hq ha with ⟨rfl, rfl⟩ | ⟨-, haold⟩
    · rcases goto_cases hq hb with ⟨rfl, -⟩ | ⟨-, hbold⟩
      · rfl
      · exact hinformed.alone _ _ q b hq hbold (hstarting hastarting) hbstarting
    · rcases goto_cases hq hb with ⟨rfl, rfl⟩ | ⟨-, hbold⟩
      · exact hinformed.alone _ _ a q haold hq hastarting (hstarting hbstarting)
      · exact hinformed.alone _ _ a b haold hbold hastarting hbstarting
  · intro a ha r hr inode hpc hrnamed
    obtain ⟨r', hr', hr'named, -⟩ := hold r hr hrnamed
    rcases mem_goto_cases hq ha with rfl | haold
    · exact hread inode hpc r' hr' hr'named
    · exact hinformed.opened a (mem_of_mem_others haold) r' hr' inode hpc hr'named
  · intro a ha r hr pid hpc hrnamed
    obtain ⟨r', hr', hr'named, hpid⟩ := hold r hr hrnamed
    rw [← hpid]
    rcases mem_goto_cases hq ha with rfl | haold
    · exact hkill pid hpc r' hr' hr'named
    · exact hinformed.scanned a (mem_of_mem_others haold) r' hr' pid hpc hr'named

theorem Informed.goto_blind (hinformed : Informed h) (hq : h.processes[p]? = some q)
    (hread : ∀ inode, pc ≠ .read inode) (hkill : ∀ pid, pc ≠ .kill pid)
    (hstarting : pc.starting = true → q.pc.starting = true)
    (hnamed : pc.named = true → q.pc.named = true) : Informed (h.goto p pc) :=
  hinformed.goto hq hstarting hnamed (fun inode hpc => absurd hpc (hread inode))
    (fun pid hpc => absurd hpc (hkill pid))

/-- What a check that goes on has been told is so of every process that serves. -/
theorem Informed.check (g : Guarded h) (hinformed : Informed h) {other : Bool}
    (hq : h.processes[p]? = some q) (hcheck : h.check true other q.pc = some pc) :
    Informed (h.goto p pc) := by
  have hmem := List.mem_of_getElem? hq
  obtain ⟨hstarting, hnamed⟩ := check_starting hcheck
  refine hinformed.goto hq (fun _ => hstarting) ?_ ?_ ?_
  · intro htrue
    rw [hnamed] at htrue
    cases htrue
  · rintro inode rfl r hr hrnamed
    cases hpc : q.pc <;> simp only [hpc, Host.check] at hcheck
    case openRead =>
      split at hcheck
      · next inode' hname =>
          cases hcheck
          exact hname
      · cases hcheck
    all_goals
      repeat' split at hcheck
      all_goals cases hcheck
  · rintro pid rfl r hr hrnamed
    have hrecorded := g.recorded r hr hrnamed
    cases hpc : q.pc <;> simp only [hpc, Host.check] at hcheck
    case read inode =>
      rw [recorded_of_name (hinformed.opened q hmem r hr inode hpc hrnamed)] at hrecorded
      rw [hrecorded] at hcheck
      cases hcheck
      rfl
    all_goals
      repeat' split at hcheck
      all_goals cases hcheck

/-- A change of the file while no process has its PID there. -/
theorem Informed.of_unnamed {files : Files UInt8} {clashes : List Nat} (hinformed : Informed h)
    (hnone : ∀ r ∈ h.processes, r.pc.named = false) :
    Informed { h with files := files, clashes := clashes } where
  alone := hinformed.alone
  opened a _ r hr inode _ hnamed := by
    rw [hnone r hr] at hnamed
    cases hnamed
  scanned := hinformed.scanned

theorem informed_of_not_starting (hnone : ∀ r ∈ h.processes, r.pc.starting = false) :
    Informed h where
  alone i j a b ha _ hastarting _ := by
    rw [hnone a (List.mem_of_getElem? ha)] at hastarting
    cases hastarting
  opened a ha _ _ inode hpc _ := by
    have hidle := hnone a ha
    rw [hpc] at hidle
    cases hidle
  scanned a ha _ _ pid hpc _ := by
    have hidle := hnone a ha
    rw [hpc] at hidle
    cases hidle

theorem not_named_goto (g : Guarded h) (hq : h.processes[p]? = some q)
    (hclaims : q.pc.claims = true) (hnamed : pc.named = false) :
    ∀ r ∈ (h.goto p pc).processes, r.pc.named = false := by
  intro r hr
  rcases mem_goto_cases hq hr with rfl | hold
  · exact hnamed
  · exact (Bool.or_eq_false_iff.mp (g.others hq hclaims r hold)).2

theorem Informed.change (g : Guarded h) (hinformed : Informed h) {h' : Host}
    (hq : h.processes[p]? = some q) (hs : h.change p q.pid true q.pc = some h') :
    Informed h' := by
  unfold Host.change at hs
  split at hs
  · next hpc =>
      rw [if_pos rfl] at hs
      cases hs
      refine Informed.of_unnamed ?_ (not_named_goto g hq (by rw [hpc]; rfl) rfl)
      refine hinformed.goto_blind hq (by simp) (by simp) (fun _ => by rw [hpc]; rfl) ?_
      intro hnamed
      cases hnamed
  · next inode hpc =>
      rw [if_pos rfl] at hs
      cases hs
      refine informed_of_not_starting ?_
      intro r hr
      rcases mem_goto_cases hq hr with rfl | hother
      · rfl
      · obtain ⟨i, hi, hold⟩ := mem_others.mp hother
        by_contra hstarting
        exact hi (hinformed.alone i p r q hold hq (by simpa using hstarting)
          (by rw [hpc]; rfl))
  · next hpc =>
      rw [if_pos rfl] at hs
      cases hs
      refine Informed.of_unnamed ?_ (not_named_goto g hq (by rw [hpc]; rfl) rfl)
      refine hinformed.goto_blind hq (by simp) (by simp) ?_ ?_
      all_goals
        intro htrue
        cases htrue
  · cases hs

theorem Informed.start (hinformed : Informed h)
    (hidle : ∀ r ∈ h.processes, r.pc.starting = false) (pid : Int) :
    Informed { h with processes := h.processes ++ [⟨pid, .openRead⟩] } := by
  have hcases : ∀ {r : Daemon}, r ∈ h.processes ++ [⟨pid, .openRead⟩] →
      r ∈ h.processes ∨ r.pc = .openRead := by
    intro r hr
    rcases List.mem_append.mp hr with hold | hnew
    · exact Or.inl hold
    · rw [List.mem_singleton.mp hnew]
      exact Or.inr rfl
  refine ⟨?_, ?_, ?_⟩
  · have hlast : ∀ (i : Nat) (r : Daemon),
        (h.processes ++ [⟨pid, .openRead⟩])[i]? = some r → r.pc.starting = true →
          i = h.processes.length := by
      intro i r hr hstarting
      have hle := (List.getElem?_eq_some_iff.mp hr).1
      rw [List.length_append, List.length_singleton] at hle
      by_contra hne
      have hlt : i < h.processes.length := by omega
      rw [List.getElem?_append_left hlt] at hr
      rw [hidle r (List.mem_of_getElem? hr)] at hstarting
      cases hstarting
    intro i j a b ha hb hastarting hbstarting
    rw [hlast i a ha hastarting, hlast j b hb hbstarting]
  · intro a ha r hr inode hpc hnamed
    rcases hcases ha with haold | hnew
    · rcases hcases hr with hrold | hrnew
      · exact hinformed.opened a haold r hrold inode hpc hnamed
      · rw [hrnew] at hnamed
        cases hnamed
    · rw [hnew] at hpc
      cases hpc
  · intro a ha r hr x hpc hnamed
    rcases hcases ha with haold | hnew
    · rcases hcases hr with hrold | hrnew
      · exact hinformed.scanned a haold r hrold x hpc hnamed
      · rw [hrnew] at hnamed
        cases hnamed
    · rw [hnew] at hpc
      cases hpc

theorem Informed.step (g : Guarded h) (hinformed : Informed h) {h' : Host} {a : PidAction}
    (ha : Separate h a) (hs : h.step a = some h') : Informed h' := by
  cases a with
  | start pid =>
      simp only [Host.step] at hs
      split at hs <;> cases hs
      exact hinformed.start ha pid
  | call p ok other =>
      obtain rfl : ok = true := ha
      simp only [Host.step] at hs
      split at hs
      · cases hs
      · next q hq =>
          split at hs
          · next pc hcheck =>
              cases hs
              exact hinformed.check g hq hcheck
          · exact hinformed.change g hq hs
  | remove p =>
      simp only [Host.step] at hs
      repeat' split at hs
      all_goals cases hs
      next q hq hserving =>
        refine hinformed.goto_blind hq (by simp) (by simp) ?_ (fun _ => by rw [hserving]; rfl)
        intro hstarting
        cases hstarting
  | exit p =>
      simp only [Host.step] at hs
      repeat' split at hs
      all_goals cases hs
      next q hq _ =>
        refine hinformed.goto_blind hq (by simp) (by simp) ?_ ?_
        all_goals
          intro htrue
          cases htrue

end Steps

/-- Runs in which no start overlaps another and the calls succeed are timely, so the
check then lets one process at most serve. -/
theorem separate_starts_timely {leftover : Option Bytes} {h : Host}
    (hreach : (pidMachine leftover).ReachableUnder Separate h) :
    (pidMachine leftover).ReachableUnder Timely h ∧ SingleInstance h := by
  have hboth : (pidMachine leftover).ReachableUnder Timely h ∧ Informed h := by
    refine Machine.ReachableUnder.invariant
      (I := fun h => (pidMachine leftover).ReachableUnder Timely h ∧ Informed h) ?_ ?_ hreach
    · refine ⟨Machine.ReachableUnder.start, informed_of_not_starting ?_⟩
      intro r hr
      cases hr
    · rintro t a t' - ⟨htimely, hinformed⟩ ha hs
      have g := guarded_of_reachable htimely
      exact ⟨htimely.step (hinformed.timely g ha) hs, hinformed.step g ha hs⟩
  exact ⟨hboth.1, (guarded_of_reachable hboth.1).singleInstance⟩

/-- A start over text that is no PID, one while that serves, and one after its exit. -/
theorem separate_starts_leave_one :
    ∃ h, (pidMachine (some (text "old\n"))).ReachableUnder Separate h ∧
      h.processes = [⟨100, .exited⟩, ⟨200, .returned⟩, ⟨300, .serving⟩] ∧
      h.files.content = some (text "300\n") ∧
      (pidMachine (some (text "old\n"))).ReachableUnder Timely h ∧ SingleInstance h := by
  have hrun : ((pidMachine (some (text "old\n"))).execUnder (fun h a => decide (Separate h a))
      (pidMachine (some (text "old\n"))).start
      ([PidAction.start 100] ++ List.replicate 4 (PidAction.call 0 true false) ++
        [.start 200] ++ List.replicate 3 (.call 1 true false) ++ [.exit 0, .start 300] ++
        List.replicate 5 (.call 2 true false))).any (fun h =>
        decide (h.processes = [⟨100, .exited⟩, ⟨200, .returned⟩, ⟨300, .serving⟩] ∧
          h.files.content = some (text "300\n"))) = true := by
    decide +kernel
  obtain ⟨h, hreach, hfacts⟩ := Machine.ReachableUnder.exists_of_exec hrun
  obtain ⟨hprocesses, hcontent⟩ := of_decide_eq_true hfacts
  have hseparate : (pidMachine (some (text "old\n"))).ReachableUnder Separate h :=
    Machine.ReachesUnder.mono (fun _ _ h => of_decide_eq_true h) hreach
  exact ⟨h, hseparate, hprocesses, hcontent, separate_starts_timely hseparate⟩

end RsvpControl.Server
