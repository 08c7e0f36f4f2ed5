import SafetyIsolation.Kernel.Actors

/-! The operations each function performs, in order, and what they leave alone. -/

namespace SafetyIsolation.Kernel

open SafetyIsolation.Interleaving

/-- The permissions of the safety page and the flag that reports them. Only the owner of
`safety_mutex` changes them.
-/
structure Permissions where
  flag : Bool
  direct : TablePath
  vmalloc : TablePath

namespace Permissions

def of (k : State) : Permissions := ⟨k.ctxProtected, k.direct, k.vmalloc⟩

/-- The effect of one `set_memory_*` call with the given return code. -/
def attempt (perms : Permissions) (target : Alias) (write : Bool) (err : Int)
    : Permissions :=
  if err = 0 then
    match target with
    | .direct => { perms with direct := perms.direct.setWrite write }
    | .vmalloc => { perms with vmalloc := perms.vmalloc.setWrite write }
  else perms

/-- Both mappings translate, and the `vmap` one is a page mapping. -/
structure Shaped (perms : Permissions) : Prop where
  direct : perms.direct.mapped = true
  vmalloc : perms.vmalloc.IsPage

theorem Shaped.attempt {perms : Permissions} (h : perms.Shaped) (target : Alias)
    (write : Bool) (err : Int)
    : (perms.attempt target write err).Shaped := by
  unfold Permissions.attempt
  split
  · cases target with
    | direct => exact ⟨by simpa using h.direct, h.vmalloc⟩
    | vmalloc => exact ⟨h.direct, h.vmalloc.setWrite write⟩
  · exact h

@[simp] theorem attempt_flag (perms : Permissions) (target : Alias) (write : Bool)
    (err : Int)
    : (perms.attempt target write err).flag = perms.flag := by
  unfold attempt
  split
  · cases target <;> rfl
  · rfl

end Permissions

@[simp] theorem setWrite_safetyMutex (k : State) (target : Alias) (write : Bool)
    : (k.setWrite target write).safetyMutex = k.safetyMutex := by
  cases target <;> rfl

@[simp] theorem setWrite_ctxProtected (k : State) (target : Alias) (write : Bool)
    : (k.setWrite target write).ctxProtected = k.ctxProtected := by
  cases target <;> rfl

@[simp] theorem setWrite_safetyBufPtr (k : State) (target : Alias) (write : Bool)
    : (k.setWrite target write).safetyBufPtr = k.safetyBufPtr := by
  cases target <;> rfl

@[simp] theorem setWrite_word (k : State) (target : Alias) (write : Bool)
    : (k.setWrite target write).word = k.word := by
  cases target <;> rfl

theorem Permissions.of_setWrite (k : State) (target : Alias) (write : Bool)
    : Permissions.of (k.setWrite target write) = (Permissions.of k).attempt target write 0 := by
  cases target <;> rfl

/-- A permission change is seen through the changed alias and no other. -/
theorem Permissions.Shaped.writable_setWrite {k : State} (shaped : (Permissions.of k).Shaped)
    (target other : Alias) (write : Bool)
    : (k.setWrite target write).writable other
      = if other = target then write else k.writable other := by
  have direct := TablePath.writable_setWrite write shaped.direct
  have vmalloc := TablePath.writable_setWrite write shaped.vmalloc.mapped
  cases target <;> cases other <;> first | exact direct | exact vmalloc | rfl

theorem Permissions.writable_eq {k k' : State} (same : Permissions.of k' = Permissions.of k)
    (target : Alias)
    : k'.writable target = k.writable target := by
  cases target with
  | direct => exact congrArg (fun perms => perms.direct.writable) same
  | vmalloc => exact congrArg (fun perms => perms.vmalloc.writable) same

/-- Operations that touch neither the mutex, the permissions nor `safety_buf_ptr`. -/
def Op.quiet : Op → Bool
  | .mutexIsLocked | .walkPgtable _ | .readCtxProtected | .setProtectedRange _ _
  | .readSafetyBufPtr | .load _ | .store _ _ | .copyToKernelNofault _ _ | .ktimeGetRealNs
  | .recordAttack _ | .readCounter _ | .writeCounter _ _ | .atomicInc _
  | .readCorruptVal => true
  | .mutexLock | .mutexTrylock | .mutexUnlock | .clearMutexOwner | .setMemory _ _
  | .setCtxProtected _ | .setSafetyBufPtr _ | .setInitialMapping _ | .procCreate
  | .removeProcEntry | .vunmap | .freePages => false

/-- What a quiet operation leaves alone, by cases on the operation. -/
theorem exec_quiet {page : SafetyPage} {tid : Nat} {choice : Choice} {operation : Op}
    {k k' : State} {result : operation.Res} (quiet : operation.quiet = true)
    (h : exec page tid choice operation k = .done result k')
    : k'.safetyMutex = k.safetyMutex
      ∧ Permissions.of k' = Permissions.of k
      ∧ k'.safetyBufPtr = k.safetyBufPtr := by
  cases operation with
  | walkPgtable ptr =>
      cases ptr <;> (cases h; exact ⟨rfl, rfl, rfl⟩)
  | store target value =>
      simp only [exec] at h
      split at h
      · cases h
        exact ⟨rfl, rfl, rfl⟩
      · cases h
  | copyToKernelNofault target value =>
      simp only [exec] at h
      split at h <;> (cases h; exact ⟨rfl, rfl, rfl⟩)
  | recordAttack field =>
      cases h
      cases field <;> exact ⟨rfl, rfl, rfl⟩
  | writeCounter counter value =>
      cases h
      cases counter <;> exact ⟨rfl, rfl, rfl⟩
  | atomicInc counter =>
      cases h
      cases counter <;> exact ⟨rfl, rfl, rfl⟩
  | mutexIsLocked | readCtxProtected | setProtectedRange _ _ | readSafetyBufPtr | load _
  | ktimeGetRealNs | readCounter _ | readCorruptVal =>
      cases h
      exact ⟨rfl, rfl, rfl⟩
  | mutexLock | mutexTrylock | mutexUnlock | clearMutexOwner | setMemory _ _
  | setCtxProtected _ | setSafetyBufPtr _ | setInitialMapping _ | procCreate
  | removeProcEntry | vunmap | freePages => cases quiet

/-- Quiet operations that write neither the safety word nor `violation_counter`. -/
def Op.silent : Op → Bool
  | .store _ _ | .copyToKernelNofault _ _ | .writeCounter .violation _ => false
  | operation => operation.quiet

/-- Silent operations, permission changes and writes of the flag. -/
def Op.plain : Op → Bool
  | .setMemory _ _ | .setCtxProtected _ => true
  | operation => operation.silent

theorem Op.quiet_of_silent {operation : Op} (silent : operation.silent = true)
    : operation.quiet = true := by
  cases operation <;> first | rfl | cases silent

theorem Op.plain_of_silent {operation : Op} (silent : operation.silent = true)
    : operation.plain = true := by
  cases operation <;> first | rfl | exact silent

/-- What a plain operation leaves alone, by cases on the operation. -/
theorem exec_plain {page : SafetyPage} {tid : Nat} {choice : Choice} {operation : Op}
    {k k' : State} {result : operation.Res} (plain : operation.plain = true)
    (h : exec page tid choice operation k = .done result k')
    : k'.safetyMutex = k.safetyMutex
      ∧ k'.safetyBufPtr = k.safetyBufPtr
      ∧ k'.word = k.word
      ∧ k'.violationCounter = k.violationCounter := by
  cases operation with
  | setMemory target write =>
      simp only [exec] at h
      split at h
      · cases h
        exact ⟨by simp, by simp, by simp, by cases target <;> rfl⟩
      · cases h
        exact ⟨rfl, rfl, rfl, rfl⟩
  | walkPgtable ptr =>
      cases ptr <;> (cases h; exact ⟨rfl, rfl, rfl, rfl⟩)
  | recordAttack field =>
      cases h
      cases field <;> exact ⟨rfl, rfl, rfl, rfl⟩
  | writeCounter counter value =>
      cases h
      cases counter <;> first | exact ⟨rfl, rfl, rfl, rfl⟩ | cases plain
  | atomicInc counter =>
      cases h
      cases counter <;> exact ⟨rfl, rfl, rfl, rfl⟩
  | mutexIsLocked | readCtxProtected | setProtectedRange _ _ | readSafetyBufPtr | load _
  | ktimeGetRealNs | readCounter _ | readCorruptVal | setCtxProtected _ =>
      cases h
      exact ⟨rfl, rfl, rfl, rfl⟩
  | _ => cases plain

theorem exec_silent_word {page : SafetyPage} {tid : Nat} {choice : Choice} {operation : Op}
    {k k' : State} {result : operation.Res} (silent : operation.silent = true)
    (h : exec page tid choice operation k = .done result k')
    : k'.word = k.word :=
  (exec_plain (Op.plain_of_silent silent) h).2.2.1

/-- Only a plain store traps. -/
theorem exec_fault {page : SafetyPage} {tid : Nat} {choice : Choice} {operation : Op}
    {k : State} (h : exec page tid choice operation k = .fault)
    : ∃ target value, operation = .store target value := by
  cases operation with
  | store target value => exact ⟨target, value, rfl⟩
  | mutexLock | mutexTrylock | setMemory _ _ | copyToKernelNofault _ _ | procCreate =>
      simp only [exec] at h
      split at h <;> cases h
  | walkPgtable ptr => cases ptr <;> cases h
  | _ => cases h

/-- Besides its bookkeeping, an attack makes one guarded copy. -/
theorem executeAttack_ops (page : SafetyPage) (mode : AttackMode)
    : (executeAttack page mode).All (fun operation =>
        operation.silent = true
        ∨ operation = .copyToKernelNofault (mode.target page) mode.value) := by
  cases mode <;>
    simp [executeAttack, executeAttackMode1, executeAttackMode2, executeAttackMode3,
      recordAttempt, increment, copyToKernelNofault, op, Prog.perform, Prog.All, Op.silent,
      Op.quiet, AttackMode.target, AttackMode.value]

theorem rogueThreadCFn_eq (attackMode : UInt32)
    : rogueThreadCFn attackMode
      = if attackMode = rogueAttackUnsynchronizedWrite then
          .act .readSafetyBufPtr (fun ptr =>
            match ptr with
            | some ptr =>
                .act .readCorruptVal (fun corruptVal =>
                  .act (.store ptr corruptVal) (fun _ =>
                    .act (.atomicInc .unsynchronizedWrite) (fun _ => .ret 0)))
            | none => .ret 0)
        else if attackMode = rogueAttackMutexMetadata then
          .act .mutexIsLocked (fun locked =>
            if locked then
              .act .clearMutexOwner (fun _ =>
                .act (.atomicInc .metadataAttack) (fun _ => .ret 0))
            else .ret 0)
        else .ret 0 := by
  unfold rogueThreadCFn
  split
  · rfl
  · split <;> rfl

/-- What the rogue thread does when it leaves the mutex alone. -/
theorem rogueThreadCFn_ops {attackMode : UInt32}
    (unsynchronized : attackMode ≠ rogueAttackMutexMetadata)
    : (rogueThreadCFn attackMode).All (fun operation =>
        operation.silent = true ∨ ∃ target value, operation = .store target value) := by
  rw [rogueThreadCFn_eq, if_neg unsynchronized]
  split
  · refine ⟨Or.inl rfl, fun ptr => ?_⟩
    cases ptr <;> simp [Prog.All, Op.silent, Op.quiet]
  · trivial

/-- What the verification of the `vmap` alias sees: the alias's permission, or nothing. -/
theorem verifiedReadOnly_walk {page : SafetyPage} {tid : Nat} {choice : Choice} {k k' : State}
    {mapping : WalkInfo} (err : Int) (isPage : k.vmalloc.IsPage)
    (walked : exec page tid choice (.walkPgtable page.vmallocPtr) k = .done mapping k')
    : verifiedReadOnly err mapping
      = (page.hasVmalloc && (err == 0 && !k.writable .vmalloc)) := by
  unfold SafetyPage.vmallocPtr at walked
  cases exists_ : page.hasVmalloc with
  | false =>
      rw [exists_] at walked
      cases walked
      simp [verifiedReadOnly, page.null_not_valid]
  | true =>
      rw [exists_] at walked
      cases walked
      obtain ⟨valid, writable⟩ :=
        safetyMemWalkPgtable_isPage (page.addrOf (some .vmalloc)) isPage
      simp [verifiedReadOnly, State.path, State.writable, valid, writable]

/-- Change the permission of the `vmap` alias, if there is one. -/
def onVmalloc {α : Type} (page : SafetyPage) (write : Bool) (next : Int → Kern α) : Kern α :=
  if page.hasVmalloc then .act (.setMemory .vmalloc write) next else next 0

/-- The log message's two walks and the return of `safety_mem_set_protection`. -/
def walkAndReturn (page : SafetyPage) (retVirt retVmalloc : Int) : Kern Int :=
  .act (.walkPgtable (some .direct)) (fun _ =>
    .act (.walkPgtable page.vmallocPtr) (fun _ =>
      .ret (if retVmalloc ≠ 0 then retVmalloc else retVirt)))

theorem walkAndReturn_silent (page : SafetyPage) (retVirt retVmalloc : Int)
    : (walkAndReturn page retVirt retVmalloc).All (fun later => later.silent = true) :=
  ⟨rfl, fun _ => ⟨rfl, fun _ => trivial⟩⟩

theorem safetyMemSetProtection_true (page : SafetyPage)
    : safetyMemSetProtection page true
      = .act .mutexLock (fun _ =>
          .act (.setProtectedRange page.virtAddr (page.virtAddr + pageSize)) (fun _ =>
            .act (.setMemory .direct false) (fun retVirt =>
              onVmalloc page false (fun retVmalloc =>
                .act (.walkPgtable (some .direct)) (fun _ =>
                  .act (.walkPgtable page.vmallocPtr) (fun mapping =>
                    .act (.setCtxProtected (verifiedReadOnly retVmalloc mapping)) (fun _ =>
                      .act .mutexUnlock (fun _ =>
                        walkAndReturn page retVirt retVmalloc)))))))) := by
  cases exists_ : page.hasVmalloc <;>
    simp [safetyMemSetProtection, enableRo, setMemoryRo, ctxMonitorSetProtectedRange, op,
      Prog.perform, onVmalloc, walkAndReturn, exists_]

theorem safetyMemSetProtection_false (page : SafetyPage)
    : safetyMemSetProtection page false
      = .act .mutexLock (fun _ =>
          .act (.setProtectedRange 0 0) (fun _ =>
            .act (.setMemory .direct true) (fun retVirt =>
              onVmalloc page true (fun retVmalloc =>
                .act (.setCtxProtected false) (fun _ =>
                  .act .mutexUnlock (fun _ => walkAndReturn page retVirt retVmalloc)))))) := by
  cases exists_ : page.hasVmalloc <;>
    simp [safetyMemSetProtection, disableRo, setMemoryRw, ctxMonitorSetProtectedRange, op,
      Prog.perform, onVmalloc, walkAndReturn, exists_]

/-- `g_virt_addr` is never null, so the store is always reached. -/
theorem safetyMemSafeWrite_eq (page : SafetyPage) (val : UInt32)
    : safetyMemSafeWrite page val
      = .act .mutexLock (fun _ =>
          .act .readCtxProtected (fun wasRo =>
            if wasRo then
              .act (.setMemory .direct true) (fun _ =>
                onVmalloc page true (fun _ =>
                  .act (.store .direct val) (fun _ =>
                    .act (.setMemory .direct false) (fun _ =>
                      onVmalloc page false (fun _ =>
                        .act .mutexUnlock (fun _ => .ret 0))))))
            else
              .act (.store .direct val) (fun _ => .act .mutexUnlock (fun _ => .ret 0)))) := by
  have nonnull := page.virt_nonnull
  cases exists_ : page.hasVmalloc <;>
  · simp only [safetyMemSafeWrite, safetyMemIsProtected, setMemoryRo, setMemoryRw, op,
      Prog.perform, onVmalloc, exists_, Prog.monad_bind, Prog.act_bind, Prog.ret_bind,
      Prog.monad_pure, ne_eq, nonnull, not_false_eq_true, if_true, Bool.false_eq_true, if_false]
    congr 2
    funext _
    congr 1
    funext wasRo
    cases wasRo <;> rfl

theorem coopThreadBFn_eq
    : coopThreadBFn
      = .act .mutexLock (fun _ =>
          .act .readSafetyBufPtr (fun ptr =>
            match ptr with
            | some ptr =>
                .act (.store ptr safetySentinel) (fun _ =>
                  .act .mutexUnlock (fun _ => .ret 0))
            | none => .act .mutexUnlock (fun _ => .ret 0))) := rfl

/-- Read the safety word through `safety_buf_ptr` and go on with it. -/
def withSafetyBuf {α : Type} (next : UInt32 → Kern α) : Kern α :=
  .act .readSafetyBufPtr (fun ptr =>
    match ptr with
    | some ptr => .act (.load ptr) next
    | none => next 0)

/-- Thread A's turn from the moment it has the mutex. -/
def holdWindow : Kern Int :=
  withSafetyBuf (fun initialVal =>
    withSafetyBuf (fun currentVal =>
      if currentVal ≠ initialVal then
        .act (.readCounter .violation) (fun value =>
          .act (.writeCounter .violation (value + 1)) (fun _ =>
            .act .mutexUnlock (fun _ => .ret 0)))
      else .act .mutexUnlock (fun _ => .ret 0)))

theorem readSafetyBuf_bind {α : Type} (next : UInt32 → Kern α)
    : readSafetyBuf.bind next = withSafetyBuf next := by
  unfold readSafetyBuf withSafetyBuf
  simp only [op, Prog.perform, Prog.monad_bind, Prog.act_bind, Prog.ret_bind]
  congr 1
  funext ptr
  cases ptr <;> rfl

theorem safetyThreadAFn_eq
    : safetyThreadAFn
      = .act .mutexTrylock (fun got =>
          if got then holdWindow
          else
            .act (.readCounter .contention) (fun value =>
              .act (.writeCounter .contention (value + 1)) (fun _ =>
                .act .mutexLock (fun _ => holdWindow)))) := by
  simp only [safetyThreadAFn, op, Prog.perform, Prog.monad_bind, Prog.act_bind, Prog.ret_bind,
    readSafetyBuf_bind, increment]
  congr 1
  funext got
  cases got <;> rfl

/-- The operations each call can perform. -/
def Call.performs : Call → Op → Bool
  | .setProtection enable, operation =>
      match operation with
      | .mutexLock | .mutexUnlock | .setProtectedRange _ _ | .walkPgtable _
      | .setCtxProtected _ => true
      | .setMemory _ write => write != enable
      | _ => false
  | .safeWrite _, operation =>
      match operation with
      | .mutexLock | .mutexUnlock | .readCtxProtected | .setMemory _ _ | .store _ _ => true
      | _ => false
  | .isProtected, operation => operation == .readCtxProtected
  | .attack _, operation =>
      match operation with
      | .recordAttack _ | .ktimeGetRealNs | .readCounter .attack | .writeCounter .attack _
      | .mutexIsLocked | .copyToKernelNofault _ _ => true
      | _ => false
  | .threadA, operation =>
      match operation with
      | .mutexTrylock | .mutexLock | .mutexUnlock | .readSafetyBufPtr | .load _
      | .readCounter .contention | .writeCounter .contention _ | .readCounter .violation
      | .writeCounter .violation _ => true
      | _ => false
  | .threadB, operation =>
      match operation with
      | .mutexLock | .mutexUnlock | .readSafetyBufPtr | .store _ _ => true
      | _ => false
  | .rogueC _, operation =>
      match operation with
      | .readSafetyBufPtr | .readCorruptVal | .store _ _ | .mutexIsLocked | .clearMutexOwner
      | .atomicInc _ => true
      | _ => false

theorem withSafetyBuf_performs {next : UInt32 → Kern Int}
    (h : ∀ value, (next value).All (fun operation => Call.threadA.performs operation = true))
    : (withSafetyBuf next).All (fun operation => Call.threadA.performs operation = true) := by
  refine ⟨rfl, fun ptr => ?_⟩
  cases ptr with
  | none => exact h 0
  | some ptr => exact ⟨rfl, h⟩

theorem holdWindow_performs
    : holdWindow.All (fun operation => Call.threadA.performs operation = true) := by
  refine withSafetyBuf_performs (fun initialVal => withSafetyBuf_performs (fun currentVal => ?_))
  split
  · exact ⟨rfl, fun _ => ⟨rfl, fun _ => ⟨rfl, fun _ => trivial⟩⟩⟩
  · exact ⟨rfl, fun _ => trivial⟩

theorem onVmalloc_all {α : Type} {good : Op → Prop} {page : SafetyPage} {write : Bool}
    {next : Int → Kern α} (change : good (.setMemory .vmalloc write))
    (rest : ∀ err, (next err).All good)
    : (onVmalloc page write next).All good := by
  unfold onVmalloc
  split
  · exact ⟨change, rest⟩
  · exact rest 0

theorem setProtection_performs (page : SafetyPage) (enable : Bool)
    : (safetyMemSetProtection page enable).All
        (fun operation => (Call.setProtection enable).performs operation = true) := by
  have ends (retVirt retVmalloc : Int) : (walkAndReturn page retVirt retVmalloc).All
      (fun operation => (Call.setProtection enable).performs operation = true) :=
    ⟨rfl, fun _ => ⟨rfl, fun _ => trivial⟩⟩
  cases enable with
  | false =>
      rw [safetyMemSetProtection_false]
      refine ⟨rfl, fun _ => ⟨rfl, fun _ => ⟨rfl, fun retVirt => onVmalloc_all rfl ?_⟩⟩⟩
      exact fun retVmalloc => ⟨rfl, fun _ => ⟨rfl, fun _ => ends retVirt retVmalloc⟩⟩
  | true =>
      rw [safetyMemSetProtection_true]
      refine ⟨rfl, fun _ => ⟨rfl, fun _ => ⟨rfl, fun retVirt => onVmalloc_all rfl ?_⟩⟩⟩
      refine fun retVmalloc => ⟨rfl, fun _ => ⟨rfl, fun _ => ⟨rfl, fun _ => ⟨rfl, ?_⟩⟩⟩⟩
      exact fun _ => ends retVirt retVmalloc

theorem safeWrite_performs (page : SafetyPage) (val : UInt32)
    : (safetyMemSafeWrite page val).All
        (fun operation => (Call.safeWrite val).performs operation = true) := by
  rw [safetyMemSafeWrite_eq]
  refine ⟨rfl, fun _ => ⟨rfl, fun wasRo => ?_⟩⟩
  cases wasRo with
  | false => exact ⟨rfl, fun _ => ⟨rfl, fun _ => trivial⟩⟩
  | true =>
      refine ⟨rfl, fun _ => onVmalloc_all rfl (fun _ => ⟨rfl, fun _ => ⟨rfl, fun _ => ?_⟩⟩)⟩
      exact onVmalloc_all rfl (fun _ => ⟨rfl, fun _ => trivial⟩)

/-- An attack is its bookkeeping, the copy and the result, with one look at the mutex in the second
mode.
-/
theorem attack_performs (page : SafetyPage) (mode : AttackMode)
    : (executeAttack page mode).All
        (fun operation => (Call.attack mode).performs operation = true) := by
  cases mode with
  | vmalloc =>
      refine ⟨rfl, fun _ => ⟨rfl, fun _ => ⟨rfl, fun _ => ⟨rfl, fun _ => ⟨rfl, fun _ => ?_⟩⟩⟩⟩⟩
      exact ⟨rfl, fun _ => ⟨rfl, fun _ => ⟨rfl, fun _ => trivial⟩⟩⟩
  | mutexBypass =>
      refine ⟨rfl, fun _ => ⟨rfl, fun _ => ⟨rfl, fun _ => ⟨rfl, fun _ => ⟨rfl, fun _ => ?_⟩⟩⟩⟩⟩
      exact ⟨rfl, fun _ => ⟨rfl, fun _ => ⟨rfl, fun _ => ⟨rfl, fun _ => trivial⟩⟩⟩⟩
  | linearAlias =>
      rw [executeAttack, executeAttackMode3, physToVirt_physAddr]
      refine ⟨rfl, fun _ => ⟨rfl, fun _ => ⟨rfl, fun _ => ⟨rfl, fun _ => ⟨rfl, fun _ => ?_⟩⟩⟩⟩⟩
      exact ⟨rfl, fun _ => ⟨rfl, fun _ => ⟨rfl, fun _ => trivial⟩⟩⟩

/-- Every call keeps to its operations, whatever results it sees. -/
theorem body_performs (page : SafetyPage) (call : Call)
    : (call.body page).All (fun operation => call.performs operation = true) := by
  cases call with
  | setProtection enable => exact setProtection_performs page enable
  | safeWrite val => exact safeWrite_performs page val
  | isProtected => exact ⟨rfl, fun _ => trivial⟩
  | attack mode => exact attack_performs page mode
  | threadA =>
      simp only [Call.body, safetyThreadAFn_eq]
      refine ⟨rfl, fun got => ?_⟩
      cases got with
      | true => exact holdWindow_performs
      | false => exact ⟨rfl, fun _ => ⟨rfl, fun _ => ⟨rfl, fun _ => holdWindow_performs⟩⟩⟩
  | threadB =>
      simp only [Call.body, coopThreadBFn_eq]
      refine ⟨rfl, fun _ => ⟨rfl, fun ptr => ?_⟩⟩
      cases ptr with
      | none => exact ⟨rfl, fun _ => trivial⟩
      | some ptr => exact ⟨rfl, fun _ => ⟨rfl, fun _ => trivial⟩⟩
  | rogueC attackMode =>
      simp only [Call.body, rogueThreadCFn_eq]
      split
      · refine ⟨rfl, fun ptr => ?_⟩
        cases ptr with
        | none => trivial
        | some ptr => exact ⟨rfl, fun _ => ⟨rfl, fun _ => ⟨rfl, fun _ => trivial⟩⟩⟩
      · split
        · refine ⟨rfl, fun locked => ?_⟩
          cases locked with
          | false => trivial
          | true => exact ⟨rfl, fun _ => ⟨rfl, fun _ => trivial⟩⟩
        · trivial

end SafetyIsolation.Kernel
