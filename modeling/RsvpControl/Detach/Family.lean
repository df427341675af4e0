import RsvpControl.Detach.Daemonize

/-! # The family of one command

However the processes of a command interleave and whoever is killed on the way, there
are at most three of them: the one the user has started, which only leaves, its child,
which makes the session and leaves, and the daemon, which therefore leads no session.
-/

namespace RsvpControl.Detach

open RsvpControl.Core

/-! ## Places -/

/-- Past the second `fork`. -/
def StartPc.daemon : StartPc → Bool
  | .closeStandard | .openNull | .chdir | .redirect | .writePid | .signalHandlers | .serverInit
  | .serve => true
  | _ => false

def StartPc.parent : StartPc → Bool
  | .leave | .exited 0 | .killed => true
  | _ => false

/-- What the daemon's descriptors stand for while the server runs: what was given above
the standard ones is still there, and these stand for what could be opened, or, when
nothing could, for whatever the server opens. -/
structure Laid (given : Descriptors OpenFile) (p : Process) : Prop where
  above : ∀ d f, 3 ≤ d → given.get d = some (.given f) → p.descriptors.get d = some (.given f)
  standard : ∀ d < 3, (p.nullOpened || p.logOpened) = true →
    p.descriptors.get d = standardFile p.nullOpened p.logOpened d
  lost : ∀ d < 3, (p.nullOpened || p.logOpened) = false →
    p.descriptors.get d = none ∨ ∃ n, p.descriptors.get d = some (.opened n)

def Table (given : Descriptors OpenFile) (p : Process) : Prop :=
  match p.pc with
  | .closeStandard => p.descriptors = given
  | .openNull => ∀ d, p.descriptors.get d = if d < 3 then none else given.get d
  | .chdir | .redirect =>
      ∀ d, p.descriptors.get d =
        if d < 3 then (if p.nullOpened then some .devNull else none) else given.get d
  | .writePid | .signalHandlers | .serverInit =>
      ∀ d, p.descriptors.get d =
        if d < 3 then standardFile p.nullOpened p.logOpened d else given.get d
  | .serve => Laid given p
  | _ => True

/-! ## The invariant -/

structure Child (start c : Process) : Prop where
  session_ne : c.pid ≠ start.session
  group_ne : c.pid ≠ start.group
  descriptors : c.descriptors = start.descriptors
  place : (c.pc = .setsid ∧ c.group = start.group) ∨ (c.pc = .ignoreHangup ∧ c.session = c.pid) ∨
    (c.pc = .secondFork ∧ c.session = c.pid ∧ c.hangupIgnored = true) ∨
    c.pc = .exited 1 ∨ c.pc = .killed

structure Daemon (start : Process) (leader : Nat) (p : Process) : Prop where
  session : p.session = leader
  pid_ne : p.pid ≠ leader
  hangupIgnored : p.hangupIgnored = true
  place : p.pc.daemon = true ∨ p.pc = .exited 1 ∨ p.pc = .killed
  table : Table start.descriptors p

inductive Family (start : Process) : List Process → Prop where
  | alone (pc : StartPc) (hpc : pc = .fork ∨ pc = .exited 1 ∨ pc = .killed) :
      Family start [{ start with pc := pc }]
  | two (pc : StartPc) (hpc : pc.parent = true) (c : Process) (hc : Child start c) :
      Family start [{ start with pc := pc }, c]
  | three (pc : StartPc) (hpc : pc.parent = true) (c : Process) (hc : c.pc.parent = true)
      (hsession : c.pid ≠ start.session) (p : Process) (hp : Daemon start c.pid p) :
      Family start [{ start with pc := pc }, c, p]

/-! ## Steps -/

section Steps

variable {start p : Process} {ps ps' : List Process} {i : Nat} {e : StartEvent}

theorem parent_cases {pc : StartPc} (h : pc.parent = true) :
    pc = .leave ∨ pc = .exited 0 ∨ pc = .killed := by
  revert h
  fun_cases StartPc.parent pc <;> simp_all

theorem perform_parent (hpc : p.pc.parent = true) (hs : perform ps i p e = some ps') :
    ∃ pc, pc.parent = true ∧ ps' = ps.set i { p with pc := pc } := by
  rcases parent_cases hpc with h | h | h <;> cases e <;>
    simp only [perform, call, h, Process.alive, reduceCtorEq, if_false, if_true] at hs
  all_goals
    cases hs
    exact ⟨_, rfl, rfl⟩

/-- The process of the command forks once, or ends. -/
theorem perform_first (hpc : p.pc = .fork) (hs : perform ps i p e = some ps') :
    (∃ pc, (pc = .exited 1 ∨ pc = .killed) ∧ ps' = ps.set i { p with pc := pc }) ∨
    ∃ pid, unused ps pid = true ∧
      ps' = ps.set i { p with pc := .leave } ++ [{ p with pid := pid, pc := .setsid }] := by
  cases e with
  | call ok pid =>
      simp only [perform, call, hpc, fork] at hs
      split at hs
      · split at hs
        · next hunused =>
            cases hs
            exact .inr ⟨pid, hunused, rfl⟩
        · cases hs
      · cases hs
        exact .inl ⟨_, .inl rfl, rfl⟩
  | openFile n => simp [perform, hpc] at hs
  | closeFile d => simp [perform, hpc] at hs
  | kill =>
      simp only [perform, Process.alive, hpc, if_true] at hs
      cases hs
      exact .inl ⟨_, .inr rfl, rfl⟩

theorem perform_child {c : Process} (hc : Child start c) (hs : perform ps i c e = some ps') :
    (∃ c', Child start c' ∧ ps' = ps.set i c') ∨
    (c.pc = .secondFork ∧ ∃ pid, unused ps pid = true ∧
      ps' = ps.set i { c with pc := .leave } ++ [{ c with pid := pid, pc := .closeStandard }]) := by
  have halive : ∀ pc, (pc = .exited 1 ∨ pc = .killed) → Child start { c with pc := pc } :=
    fun pc hpc => ⟨hc.session_ne, hc.group_ne, hc.descriptors, by simp [hpc]⟩
  have hkill : e = .kill → ∃ c', Child start c' ∧ ps' = ps.set i c' := by
    rintro rfl
    simp only [perform] at hs
    split at hs <;> cases hs
    exact ⟨_, halive _ (.inr rfl), rfl⟩
  cases e with
  | kill => exact .inl (hkill rfl)
  | openFile n =>
      rcases hc.place with ⟨h, -⟩ | ⟨h, -⟩ | ⟨h, -⟩ | h | h <;> simp [perform, h] at hs
  | closeFile d =>
      rcases hc.place with ⟨h, -⟩ | ⟨h, -⟩ | ⟨h, -⟩ | h | h <;> simp [perform, h] at hs
  | call ok pid =>
      rcases hc.place with ⟨h, -⟩ | ⟨h, hsession⟩ | ⟨h, -, -⟩ | h | h
      · simp only [perform, call, h] at hs
        cases hs
        refine .inl ⟨_, ?_, rfl⟩
        unfold Process.setsid
        split
        · exact halive _ (.inl rfl)
        · exact ⟨hc.session_ne, hc.group_ne, hc.descriptors, by simp⟩
      · simp only [perform, call, h] at hs
        cases hs
        refine .inl ⟨_, ?_, rfl⟩
        exact ⟨hc.session_ne, hc.group_ne, hc.descriptors, .inr (.inr (.inl ⟨rfl, hsession, rfl⟩))⟩
      · simp only [perform, call, h, fork] at hs
        split at hs
        · split at hs
          · next hunused =>
              cases hs
              exact .inr ⟨h, pid, hunused, rfl⟩
          · cases hs
        · cases hs
          exact .inl ⟨_, halive _ (.inl rfl), rfl⟩
      · simp [perform, call, h] at hs
      · simp [perform, call, h] at hs

end Steps

/-! ## The daemon -/

section Daemon

variable {start p : Process} {leader : Nat} {ps ps' : List Process} {i : Nat} {e : StartEvent}

theorem Laid.of_table {given : Descriptors OpenFile}
    (h : ∀ d, p.descriptors.get d =
      if d < 3 then standardFile p.nullOpened p.logOpened d else given.get d) :
    Laid given p where
  above d f hd hf := by rw [h d, if_neg (by omega), hf]
  standard d hd _ := by rw [h d, if_pos hd]
  lost d hd hnone := by
    obtain ⟨hnull, hlog⟩ := Bool.or_eq_false_iff.mp hnone
    left
    rw [h d, if_pos hd, hnull, hlog]
    simp [standardFile]

theorem standardFile_isSome {nullOpened logOpened : Bool}
    (h : (nullOpened || logOpened) = true) (d : Nat) :
    ∃ file, standardFile nullOpened logOpened d = some file ∧ ∀ n, file ≠ .opened n := by
  unfold standardFile
  split
  · exact ⟨_, rfl, fun _ h => by cases h⟩
  · cases nullOpened <;> cases logOpened <;> simp at h ⊢

theorem Laid.openFile {given : Descriptors OpenFile} (h : Laid given p) (n : Nat) :
    Laid given { p with descriptors := p.descriptors.allocate (.opened n) } := by
  have hlowest := Descriptors.get_lowest p.descriptors
  constructor
  · intro d f hd hf
    have hget := h.above d f hd hf
    have hne : d ≠ p.descriptors.lowest := by
      rintro rfl
      rw [hlowest] at hget
      cases hget
    rw [Descriptors.get_allocate, if_neg hne]
    exact hget
  · intro d hd hopened
    have hget := h.standard d hd hopened
    obtain ⟨file, hfile, -⟩ := standardFile_isSome hopened d
    have hne : d ≠ p.descriptors.lowest := by
      rintro rfl
      rw [hlowest, hfile] at hget
      cases hget
    rw [Descriptors.get_allocate, if_neg hne]
    exact hget
  · intro d hd hnone
    rw [Descriptors.get_allocate]
    split
    · exact .inr ⟨n, rfl⟩
    · exact h.lost d hd hnone

theorem Laid.closeFile {given : Descriptors OpenFile} (h : Laid given p) {d n : Nat}
    (hd : p.descriptors.get d = some (.opened n)) :
    Laid given { p with descriptors := p.descriptors.close d } := by
  constructor
  · intro d' f hd' hf
    have hget := h.above d' f hd' hf
    have hne : d' ≠ d := by
      rintro rfl
      rw [hd] at hget
      cases hget
    rw [Descriptors.get_close, if_neg hne]
    exact hget
  · intro d' hd' hopened
    have hget := h.standard d' hd' hopened
    obtain ⟨file, hfile, hne⟩ := standardFile_isSome hopened d'
    have hne : d' ≠ d := by
      rintro rfl
      rw [hd, hfile] at hget
      exact hne n (Option.some.inj hget).symm
    rw [Descriptors.get_close, if_neg hne]
    exact hget
  · intro d' hd' hnone
    rw [Descriptors.get_close]
    split
    · exact .inl rfl
    · exact h.lost d' hd' hnone

theorem Daemon.move (h : Daemon start leader p) {p' : Process} (hsession : p'.session = p.session)
    (hpid : p'.pid = p.pid) (hhangup : p'.hangupIgnored = p.hangupIgnored)
    (hplace : p'.pc.daemon = true ∨ p'.pc = .exited 1 ∨ p'.pc = .killed)
    (htable : Table start.descriptors p') : Daemon start leader p' :=
  ⟨hsession.trans h.session, hpid ▸ h.pid_ne, hhangup.trans h.hangupIgnored, hplace, htable⟩

theorem Daemon.require (h : Daemon start leader p) (ok : Bool) {next : StartPc}
    (hnext : next.daemon = true) (htable : Table start.descriptors { p with pc := next }) :
    Daemon start leader (p.require ok next) := by
  cases ok with
  | true => exact h.move rfl rfl rfl (.inl hnext) htable
  | false => exact h.move rfl rfl rfl (.inr (.inl rfl)) trivial

theorem perform_daemon (h : Daemon start leader p) (hs : perform ps i p e = some ps') :
    ∃ p', Daemon start leader p' ∧ ps' = ps.set i p' := by
  have htable := h.table
  cases e with
  | kill =>
      simp only [perform] at hs
      split at hs <;> cases hs
      refine ⟨_, ?_, rfl⟩
      exact h.move rfl rfl rfl (.inr (.inr rfl)) trivial
  | openFile n =>
      simp only [perform] at hs
      split at hs
      · next hpc =>
          cases hs
          simp only [Table, hpc] at htable
          refine ⟨_, ?_, rfl⟩
          refine h.move rfl rfl rfl h.place ?_
          simpa only [Table, hpc] using htable.openFile n
      · cases hs
  | closeFile d =>
      simp only [perform] at hs
      split at hs
      · next n hpc hd =>
          cases hs
          simp only [Table, hpc] at htable
          refine ⟨_, ?_, rfl⟩
          refine h.move rfl rfl rfl h.place ?_
          simpa only [Table, hpc] using htable.closeFile hd
      · cases hs
  | call ok pid =>
      rcases h.place with hplace | hpc | hpc
      · cases hpc : p.pc with
        | closeStandard =>
            simp only [perform, call, hpc] at hs
            cases hs
            simp only [Table, hpc] at htable
            refine ⟨_, ?_, rfl⟩
            refine h.move rfl rfl rfl (.inl rfl) fun d => ?_
            rw [← htable]
            exact closeStandard_get _ d
        | openNull =>
            simp only [perform, call, hpc] at hs
            cases hs
            simp only [Table, hpc] at htable
            refine ⟨_, ?_, rfl⟩
            refine h.move rfl rfl rfl (.inl rfl) fun d => ?_
            have hfree : ∀ d < 3, p.descriptors.get d = none := fun d hd => by
              rw [htable d, if_pos hd]
            have hget := openNull_get hfree ok d
            rw [htable d] at hget
            refine hget.trans ?_
            split <;> rfl
        | chdir =>
            simp only [perform, call, hpc] at hs
            cases hs
            simp only [Table, hpc] at htable
            refine ⟨_, ?_, rfl⟩
            exact h.require ok rfl htable
        | redirect =>
            simp only [perform, call, hpc] at hs
            cases hs
            simp only [Table, hpc] at htable
            refine ⟨_, ?_, rfl⟩
            refine h.move rfl rfl rfl (.inl rfl) fun d => ?_
            have hstandard : ∀ d < 3,
                p.descriptors.get d = if p.nullOpened then some .devNull else none :=
              fun d hd => by rw [htable d, if_pos hd]
            refine (redirect_get hstandard ok d).trans ?_
            split
            · rfl
            · next hd => rw [htable d, if_neg hd]
        | writePid =>
            simp only [perform, call, hpc] at hs
            cases hs
            simp only [Table, hpc] at htable
            refine ⟨_, ?_, rfl⟩
            exact h.require ok rfl htable
        | signalHandlers =>
            simp only [perform, call, hpc] at hs
            cases hs
            simp only [Table, hpc] at htable
            refine ⟨_, ?_, rfl⟩
            exact h.require ok rfl htable
        | serverInit =>
            simp only [perform, call, hpc] at hs
            cases hs
            simp only [Table, hpc] at htable
            refine ⟨_, ?_, rfl⟩
            exact h.require ok rfl (Laid.of_table htable)
        | serve => simp [perform, call, hpc] at hs
        | _ => simp [hpc, StartPc.daemon] at hplace
      · simp [perform, call, hpc] at hs
      · simp [perform, call, hpc] at hs

end Daemon

/-! ## Runs -/

section Runs

variable {pid session group : Nat} {given : Descriptors Nat} {start : Process}
  {ps ps' : List Process}

theorem not_unused {q : Process} (hq : q ∈ ps) (halive : q.alive = true) {n : Nat}
    (h : unused ps n = true) : q.pid ≠ n ∧ q.session ≠ n ∧ q.group ≠ n := by
  have hq := List.all_eq_true.mp h q hq
  simpa [halive, and_assoc] using hq

theorem family_step (h : Family start ps) {a : Nat × StartEvent} (hs : step ps a = some ps') :
    Family start ps' := by
  obtain ⟨i, e⟩ := a
  obtain ⟨p, hi, hs⟩ := Option.bind_eq_some_iff.mp hs
  -- The list has as many members as the family has stages; each takes its own step.
  cases h with
  | alone pc hpc =>
      match i, hi with
      | 0, hi =>
          cases hi
          rcases hpc with rfl | rfl | rfl
          · rcases perform_first rfl hs with ⟨pc', hpc', rfl⟩ | ⟨pid, hunused, rfl⟩
            · exact .alone pc' (.inr hpc')
            · obtain ⟨-, hsession, hgroup⟩ := not_unused List.mem_cons_self rfl hunused
              refine .two .leave rfl _ ?_
              exact ⟨hsession.symm, hgroup.symm, rfl, .inl ⟨rfl, rfl⟩⟩
          · cases e <;> simp [perform, call, Process.alive] at hs
          · cases e <;> simp [perform, call, Process.alive] at hs
  | two pc hpc c hc =>
      match i, hi with
      | 0, hi =>
          cases hi
          obtain ⟨pc', hpc', rfl⟩ := perform_parent hpc hs
          exact .two pc' hpc' c hc
      | 1, hi =>
          obtain rfl : c = p := Option.some.inj hi
          rcases perform_child hc hs with ⟨c', hc', rfl⟩ | ⟨hplace, pid, hunused, rfl⟩
          · exact .two pc hpc c' hc'
          · have halive : c.alive = true := by simp [Process.alive, hplace]
            have hmem : c ∈ [{ start with pc := pc }, c] := List.mem_cons_of_mem _ List.mem_cons_self
            obtain ⟨hpid, -, -⟩ := not_unused hmem halive hunused
            refine .three pc hpc { c with pc := .leave } rfl hc.session_ne _ ?_
            have hc' := hc.place
            simp only [hplace, reduceCtorEq, false_and, true_and, false_or, or_false] at hc'
            exact ⟨hc'.1, Ne.symm hpid, hc'.2, .inl rfl, hc.descriptors⟩
  | three pc hpc c hc hsession q hq =>
      match i, hi with
      | 0, hi =>
          cases hi
          obtain ⟨pc', hpc', rfl⟩ := perform_parent hpc hs
          exact .three pc' hpc' c hc hsession q hq
      | 1, hi =>
          obtain rfl : c = p := Option.some.inj hi
          obtain ⟨pc', hpc', rfl⟩ := perform_parent hc hs
          exact .three pc hpc { c with pc := pc' } hpc' hsession q hq
      | 2, hi =>
          obtain rfl : q = p := Option.some.inj hi
          obtain ⟨q', hq', rfl⟩ := perform_daemon hq hs
          exact .three pc hpc c hc hsession q' hq'

theorem family_of_reachable (h : (startMachine pid session group given).Reachable ps) :
    Family (Process.started pid session group given) ps :=
  Machine.Reachable.invariant (I := Family (Process.started pid session group given))
    (.alone .fork (.inl rfl)) (fun _ _ _ hfamily hs => family_step hfamily hs) h

theorem Family.daemon (h : Family start ps) {i : Nat} {p : Process} (hi : ps[i]? = some p)
    (hp : p.pc.daemon = true) :
    i = 2 ∧ ∃ (pc : StartPc) (c : Process), ps = [{ start with pc := pc }, c, p] ∧
      pc.parent = true ∧ c.pc.parent = true ∧ c.pid ≠ start.session ∧ Daemon start c.pid p := by
  cases h with
  | alone pc hpc =>
      match i, hi with
      | 0, hi =>
          cases hi
          rcases hpc with rfl | rfl | rfl <;> cases hp
  | two pc hpc c hc =>
      match i, hi with
      | 0, hi =>
          cases hi
          rcases parent_cases hpc with rfl | rfl | rfl <;> cases hp
      | 1, hi =>
          obtain rfl : c = p := Option.some.inj hi
          rcases hc.place with ⟨h, -⟩ | ⟨h, -⟩ | ⟨h, -⟩ | h | h <;> rw [h] at hp <;> cases hp
  | three pc hpc c hc hsession q hq =>
      match i, hi with
      | 0, hi =>
          cases hi
          rcases parent_cases hpc with rfl | rfl | rfl <;> cases hp
      | 1, hi =>
          obtain rfl : c = p := Option.some.inj hi
          rcases parent_cases hc with h | h | h <;> rw [h] at hp <;> cases hp
      | 2, hi =>
          obtain rfl : q = p := Option.some.inj hi
          exact ⟨rfl, pc, c, rfl, hpc, hc, hsession, hq⟩

/-- The number of the child was no process group when it was handed out, and its parent's
group is the only one there is until it makes its own. -/
theorem Family.setsid (h : Family start ps) {p : Process} (hp : p ∈ ps) (hpc : p.pc = .setsid) :
    (p.setsid ps).pc = .ignoreHangup := by
  cases h with
  | alone pc hpc' =>
      obtain rfl := List.mem_singleton.mp hp
      rcases hpc' with rfl | rfl | rfl <;> cases hpc
  | two pc hpc' c hc =>
      rcases List.mem_pair.mp hp with rfl | rfl
      · rcases parent_cases hpc' with rfl | rfl | rfl <;> cases hpc
      · have hplace := hc.place
        simp only [hpc, reduceCtorEq, false_and, or_false, true_and] at hplace
        simp [Process.setsid, hplace, hc.group_ne.symm]
  | three pc hpc' c hc _ q hq =>
      simp only [List.mem_cons, List.not_mem_nil, or_false] at hp
      rcases hp with rfl | rfl | rfl
      · rcases parent_cases hpc' with rfl | rfl | rfl <;> cases hpc
      · rcases parent_cases hc with h | h | h <;> rw [h] at hpc <;> cases hpc
      · rcases hq.place with h | h | h <;> rw [hpc] at h <;> cases h

/-- The daemon is one process. It leads no session, so no terminal becomes its own, and
the session is a new one, whose leader has nothing left to do but exit; it ignores
SIGHUP. `setsid` has not failed. The status the user sees tells whether the first `fork`
has succeeded. -/
theorem daemon_leads_no_session (h : (startMachine pid session group given).Reachable ps) :
    (∀ i p, ps[i]? = some p → p.pc.daemon = true →
      i = 2 ∧ p.session ≠ p.pid ∧ p.session ≠ session ∧ p.hangupIgnored = true ∧
        ∀ q ∈ ps, q.pid = p.session → q.pc.parent = true) ∧
      (∀ p ∈ ps, p.pc = .setsid → (p.setsid ps).pc = .ignoreHangup) ∧
      ∀ first, ps[0]? = some first →
        (first.pc = .exited 0 → 1 < ps.length) ∧ (first.pc = .exited 1 → ps.length = 1) := by
  have hfamily := family_of_reachable h
  refine ⟨?_, fun p hp hpc => hfamily.setsid hp hpc, ?_⟩
  · intro i p hi hp
    obtain ⟨rfl, pc, c, rfl, hpc, hc, hsession, hdaemon⟩ := hfamily.daemon hi hp
    have hleader := hdaemon.session
    refine ⟨rfl, hleader ▸ hdaemon.pid_ne.symm, hleader ▸ hsession, hdaemon.hangupIgnored, ?_⟩
    intro q hq hpid
    simp only [List.mem_cons, List.not_mem_nil, or_false] at hq
    rcases hq with rfl | rfl | rfl
    · exact hpc
    · exact hc
    · exact absurd (hpid.trans hleader) hdaemon.pid_ne
  · intro first hfirst
    cases hfamily with
    | alone pc hpc =>
        cases hfirst
        rcases hpc with rfl | rfl | rfl <;> simp
    | two pc hpc | three pc hpc =>
        cases hfirst
        rcases parent_cases hpc with rfl | rfl | rfl <;> simp

/-- The calls from the first `fork` to the serving daemon, with the outcomes of the two
`open` calls. -/
def serving (nullOk logOk : Bool) : List (Nat × StartEvent) :=
  [(0, .call true 101), (1, .call true 0), (0, .call true 0), (1, .call true 0),
    (1, .call true 102), (2, .call true 0), (2, .call nullOk 0), (1, .call true 0),
    (2, .call true 0), (2, .call logOk 0), (2, .call true 0), (2, .call true 0),
    (2, .call true 0)]

theorem serving_leads_no_session :
    ∃ ps p, (startMachine 100 90 95 ⟨[some 7, some 7, some 7]⟩).Reachable ps ∧ ps[2]? = some p ∧
      p.pc = .serve ∧ p.session ≠ p.pid ∧ p.session ≠ 90 := by
  have hrun : ((startMachine 100 90 95 ⟨[some 7, some 7, some 7]⟩).exec
      [Process.started 100 90 95 ⟨[some 7, some 7, some 7]⟩] (serving true true)).any
        (fun ps => ps[2]?.any fun p => p.pc == .serve) = true := by decide +kernel
  obtain ⟨ps, hreach, hserve⟩ := Machine.Reachable.exists_of_exec hrun
  obtain ⟨p, hp, hpc⟩ := (Option.any_eq_true _ _).mp hserve
  have hpc : p.pc = .serve := beq_iff_eq.mp hpc
  obtain ⟨-, hleader, hsession, -, -⟩ :=
    (daemon_leads_no_session hreach).1 2 p hp (by rw [hpc]; rfl)
  exact ⟨ps, p, hreach, hp, hpc, hleader, hsession⟩

/-- A file of the server is never behind a standard descriptor of the daemon unless
neither `/dev/null` nor the log file could be opened; otherwise these stand for
`/dev/null` and the log as far as they were opened. What the command was started with
above the standard descriptors stays open. -/
theorem daemon_descriptors (h : (startMachine pid session group given).Reachable ps) {p : Process}
    (hp : p ∈ ps) (hpc : p.pc = .serve) :
    (∀ d file, 3 ≤ d → given.get d = some file → p.descriptors.get d = some (.given file)) ∧
      ∀ d < 3,
        ((p.nullOpened || p.logOpened) = true →
          p.descriptors.get d = standardFile p.nullOpened p.logOpened d) ∧
        ((p.nullOpened || p.logOpened) = false →
          p.descriptors.get d = none ∨ ∃ n, p.descriptors.get d = some (.opened n)) := by
  obtain ⟨i, hi⟩ := List.mem_iff_getElem?.mp hp
  obtain ⟨-, -, c, -, -, -, -, hdaemon⟩ :=
    (family_of_reachable h).daemon hi (by rw [hpc]; rfl)
  have hlaid : Laid (given.map .given) p := by
    have htable := hdaemon.table
    rwa [Table, hpc] at htable
  refine ⟨fun d file hd hfile => hlaid.above d file hd ?_, fun d hd =>
    ⟨hlaid.standard d hd, hlaid.lost d hd⟩⟩
  rw [Descriptors.get_map, hfile]
  rfl

/-- With neither file the first ones the server opens become its standard input and
output, and what it prints goes into the second. -/
theorem output_into_opened :
    ∃ ps p, (startMachine 100 90 95 ⟨[some 7, some 7, some 7, some 8]⟩).Reachable ps ∧ p ∈ ps ∧
      p.descriptors.get STDOUT_FILENO = some (.opened 1) ∧ p.descriptors.get 3 = some (.given 8) := by
  have hrun : ((startMachine 100 90 95 ⟨[some 7, some 7, some 7, some 8]⟩).exec
      [Process.started 100 90 95 ⟨[some 7, some 7, some 7, some 8]⟩]
      (serving false false ++ [(2, .openFile 0), (2, .openFile 1)])).any
        (fun ps => ps[2]?.any fun p =>
          p.pc == .serve && p.descriptors.get STDOUT_FILENO == some (.opened 1)) = true := by
    decide +kernel
  obtain ⟨ps, hreach, hserve⟩ := Machine.Reachable.exists_of_exec hrun
  obtain ⟨p, hp, hfacts⟩ := (Option.any_eq_true _ _).mp hserve
  obtain ⟨hpc, hout⟩ := Bool.and_eq_true_iff.mp hfacts
  have hmem := List.mem_of_getElem? hp
  obtain ⟨habove, -⟩ := daemon_descriptors hreach hmem (beq_iff_eq.mp hpc)
  exact ⟨ps, p, hreach, hmem, beq_iff_eq.mp hout, habove 3 8 (by decide) rfl⟩

end Runs

end RsvpControl.Detach
