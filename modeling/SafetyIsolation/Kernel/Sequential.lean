import SafetyIsolation.Kernel.Loading

/-! `safety_mem_set_protection` run without interference. -/

namespace SafetyIsolation.Kernel

open SafetyIsolation.Interleaving

/-- One `set_memory_*` call with the given return code. -/
def State.attempt (k : State) (target : Alias) (write : Bool) (err : Int) : State :=
  if err = 0 then k.setWrite target write else k

/-- The state after both permission changes of a protection change. -/
def State.attemptBoth (k : State) (page : SafetyPage) (write : Bool) (errVirt errVmalloc : Int)
    : State :=
  let k := k.attempt .direct write errVirt
  if page.hasVmalloc then k.attempt .vmalloc write errVmalloc else k

theorem exec_setMemory (page : SafetyPage) (tid : Nat) (choice : Choice) (target : Alias)
    (write : Bool) (k : State)
    : exec page tid choice (.setMemory target write) k
      = .done choice.err (k.attempt target write choice.err) := by
  simp only [exec, State.attempt]
  split
  · rename_i succeeded
    rw [succeeded]
  · rfl

theorem exec_walkPgtable (page : SafetyPage) (tid : Nat) (choice : Choice) (ptr : Option Alias)
    (k : State)
    : ∃ info, exec page tid choice (.walkPgtable ptr) k = .done info k := by
  cases ptr <;> exact ⟨_, rfl⟩

/-- The final walks of a protection change read and return. -/
theorem walkAndReturn_runAlone (page : SafetyPage) (tid : Nat) (retVirt retVmalloc : Int)
    (choices : List Choice) (k : State)
    : (walkAndReturn page retVirt retVmalloc).runAlone (exec page tid) choices k
      = .done (if retVmalloc ≠ 0 then retVmalloc else retVirt) k := by
  obtain ⟨_, virtWalk⟩ := exec_walkPgtable page tid (choices.headD default) (some .direct) k
  obtain ⟨_, vmallocWalk⟩ :=
    exec_walkPgtable page tid (choices.tail.headD default) page.vmallocPtr k
  simp only [walkAndReturn, Prog.runAlone, virtWalk, vmallocWalk]

/-- Change both aliases, as far as they exist, and go on with the return codes. -/
theorem attemptBoth_runAlone {α : Type} (page : SafetyPage) (tid : Nat) (write : Bool)
    (next : Int → Int → Kern α) (choices : List Choice) (k : State)
    : ∃ errVirt errVmalloc rest,
        (Prog.act (.setMemory .direct write) (fun errVirt =>
            onVmalloc page write (next errVirt))).runAlone (exec page tid) choices k
          = (next errVirt errVmalloc).runAlone (exec page tid) rest
              (k.attemptBoth page write errVirt errVmalloc)
        ∧ (page.hasVmalloc = true → errVmalloc = (choices.tail.headD default).err) := by
  unfold onVmalloc State.attemptBoth
  cases exists_ : page.hasVmalloc with
  | false =>
      refine ⟨(choices.headD default).err, 0, choices.tail, ?_, fun missing => by cases missing⟩
      simp [Prog.runAlone, exec_setMemory]
  | true =>
      refine ⟨(choices.headD default).err, (choices.tail.headD default).err,
        choices.tail.tail, ?_, fun _ => rfl⟩
      simp [Prog.runAlone, exec_setMemory]

/-- What a protection change leaves behind, given the return codes of its permission
changes.
-/
structure ProtectionDone (page : SafetyPage) (enable : Bool) (errVirt errVmalloc : Int)
    (k k' : State)
    : Prop where
  mutex : k'.safetyMutex = none
  word : k'.word = k.word
  direct : k'.direct = if errVirt = 0 then k.direct.setWrite (!enable) else k.direct
  vmalloc
    : k'.vmalloc
      = if page.hasVmalloc = true ∧ errVmalloc = 0 then k.vmalloc.setWrite (!enable)
        else k.vmalloc
  flag : k'.ctxProtected = (enable && (page.hasVmalloc && errVmalloc == 0))
  monitor
    : k'.monitor
      = if enable then
          k.monitor.setProtectedRange page.virtAddr (page.virtAddr + pageSize)
        else k.monitor.setProtectedRange 0 0

/-- Mutex taken and range handed to the monitor. -/
def State.entered (k : State) (tid : Nat) (start stop : UInt64) : State :=
  { k with safetyMutex := some tid, monitor := k.monitor.setProtectedRange start stop }

/-- Flag written and mutex released. -/
def State.published (k : State) (on : Bool) : State :=
  { k with ctxProtected := on, safetyMutex := none }

theorem ProtectionDone.intro {page : SafetyPage} {enable on : Bool} {errVirt errVmalloc : Int}
    {k : State} (tid : Nat) (start stop : UInt64)
    (range
      : k.monitor.setProtectedRange start stop
        = if enable then
            k.monitor.setProtectedRange page.virtAddr (page.virtAddr + pageSize)
          else k.monitor.setProtectedRange 0 0)
    (flag : on = (enable && (page.hasVmalloc && errVmalloc == 0)))
    : ProtectionDone page enable errVirt errVmalloc k
        (((k.entered tid start stop).attemptBoth page (!enable) errVirt errVmalloc).published
          on) := by
  subst flag
  unfold State.attemptBoth State.attempt
  cases exists_ : page.hasVmalloc <;>
  by_cases virt : errVirt = 0 <;>
  by_cases vmalloc : errVmalloc = 0 <;>
    constructor <;>
    simp [State.entered, State.published, State.setWrite, exists_, virt, vmalloc, range]

theorem attemptBoth_vmalloc (k : State) (page : SafetyPage) (write : Bool)
    (errVirt errVmalloc : Int)
    : (k.attemptBoth page write errVirt errVmalloc).vmalloc
      = if page.hasVmalloc = true ∧ errVmalloc = 0 then k.vmalloc.setWrite write
        else k.vmalloc := by
  unfold State.attemptBoth State.attempt
  cases exists_ : page.hasVmalloc <;>
  by_cases virt : errVirt = 0 <;>
  by_cases vmalloc : errVmalloc = 0 <;>
    simp [State.setWrite, virt, vmalloc]

/-- The end of the enabling branch: walk both aliases, publish the flag, release the mutex. -/
def verifyAndPublish (page : SafetyPage) (retVirt retVmalloc : Int) : Kern Int :=
  .act (.walkPgtable (some .direct)) (fun _ =>
    .act (.walkPgtable page.vmallocPtr) (fun mapping =>
      .act (.setCtxProtected (verifiedReadOnly retVmalloc mapping)) (fun _ =>
        .act .mutexUnlock (fun _ => walkAndReturn page retVirt retVmalloc))))

/-- The flag published is set exactly when the `vmap` alias exists and its change succeeded,
since the walk then finds that alias read-only.
-/
theorem verifyAndPublish_runAlone {page : SafetyPage} {k : State} {errVirt errVmalloc : Int}
    (tid : Nat) (choices : List Choice) (isPage : k.vmalloc.IsPage)
    : (verifyAndPublish page errVirt errVmalloc).runAlone (exec page tid) choices
        (k.attemptBoth page false errVirt errVmalloc)
      = .done (if errVmalloc ≠ 0 then errVmalloc else errVirt)
          ((k.attemptBoth page false errVirt errVmalloc).published
            (page.hasVmalloc && errVmalloc == 0)) := by
  have vmalloc := attemptBoth_vmalloc k page false errVirt errVmalloc
  generalize changed : k.attemptBoth page false errVirt errVmalloc = k₁ at vmalloc ⊢
  have stillPage : k₁.vmalloc.IsPage := by
    rw [vmalloc]
    split
    · exact isPage.setWrite false
    · exact isPage
  obtain ⟨_, virtWalk⟩ := exec_walkPgtable page tid (choices.headD default) (some .direct) k₁
  obtain ⟨mapping, vmallocWalk⟩ :=
    exec_walkPgtable page tid (choices.tail.headD default) page.vmallocPtr k₁
  have flag : verifiedReadOnly errVmalloc mapping = (page.hasVmalloc && errVmalloc == 0) := by
    rw [verifiedReadOnly_walk errVmalloc stillPage vmallocWalk]
    by_cases succeeded : page.hasVmalloc = true ∧ errVmalloc = 0
    · have readOnly : k₁.writable .vmalloc = false := by
        simp only [State.writable, State.path, vmalloc, if_pos succeeded]
        exact TablePath.writable_setWrite false isPage.mapped
      simp [succeeded, readOnly]
    · cases exists_ : page.hasVmalloc with
      | false => rfl
      | true =>
          have failed : (errVmalloc == 0) = false := by simpa [exists_] using succeeded
          simp [failed]
  rw [← flag]
  simp only [verifyAndPublish, Prog.runAlone, virtWalk, vmallocWalk]
  simp only [exec, walkAndReturn_runAlone]
  rfl

/-- A protection change run alone from a free mutex always completes. It returns the error of
the `vmap` alias, else of the direct one; the fourth choice is the one the `vmap` alias gets.
-/
theorem safetyMemSetProtection_runAlone {page : SafetyPage} {k : State} (tid : Nat)
    (enable : Bool) (choices : List Choice) (free : k.safetyMutex = none)
    (isPage : k.vmalloc.IsPage)
    : ∃ errVirt errVmalloc k',
        (safetyMemSetProtection page enable).runAlone (exec page tid) choices k
          = .done (if errVmalloc ≠ 0 then errVmalloc else errVirt) k'
        ∧ ProtectionDone page enable errVirt errVmalloc k k'
        ∧ (page.hasVmalloc = true
            → errVmalloc = (choices.tail.tail.tail.headD default).err) := by
  cases enable with
  | false =>
      obtain ⟨errVirt, errVmalloc, rest, ran, code⟩ := attemptBoth_runAlone page tid true
        (fun retVirt retVmalloc =>
          .act (.setCtxProtected false) (fun _ =>
            .act .mutexUnlock (fun _ => walkAndReturn page retVirt retVmalloc)))
        choices.tail.tail (k.entered tid 0 0)
      refine ⟨errVirt, errVmalloc, _, ?_, ProtectionDone.intro tid 0 0 rfl rfl, code⟩
      rw [safetyMemSetProtection_false]
      refine Eq.trans ?_ (ran.trans ?_)
      · simp only [Prog.runAlone, exec, free, if_true]
        rfl
      · simp only [Prog.runAlone, exec, walkAndReturn_runAlone]
        rfl
  | true =>
      obtain ⟨errVirt, errVmalloc, rest, ran, code⟩ := attemptBoth_runAlone page tid false
        (verifyAndPublish page) choices.tail.tail
        (k.entered tid page.virtAddr (page.virtAddr + pageSize))
      refine ⟨errVirt, errVmalloc, _, ?_, ProtectionDone.intro tid page.virtAddr
        (page.virtAddr + pageSize) rfl rfl, code⟩
      rw [safetyMemSetProtection_true]
      refine Eq.trans ?_ (ran.trans (verifyAndPublish_runAlone tid rest isPage))
      simp only [Prog.runAlone, exec, free, if_true]
      rfl

end SafetyIsolation.Kernel
