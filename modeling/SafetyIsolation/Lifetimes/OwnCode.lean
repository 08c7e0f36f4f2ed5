import SafetyIsolation.Lifetimes.Calls

/-! Which operations the `init` and `exit` functions of a module perform, whatever they find. -/

namespace SafetyIsolation.Lifetimes

open SafetyIsolation.Interleaving SafetyIsolation.Interleaving.Prog SafetyIsolation.Kernel

variable {α : Type}

/-- The operations of the `init` and `exit` functions of a module. -/
def HostOp.ofFunctions (m : KernelModule) : HostOp → Bool
  | .kernel _ => m = .safetyMem
  | .atomicSet _ => m = .rogueThread
  | .allocSafetyPage => m = .safetyMem
  | .safetyPage => m = .safetyMem
  | .setSmmuActive _ => m = .smmuGuard
  | .procCreate m' => m' = m
  | .unlinkProc m' => m' = m
  | .drainProc m' => m' = m
  | .registerDieNotifier => m = .ctxMonitor
  | .unregisterDieNotifier => m = .ctxMonitor
  | .kthreadRun t => t.module = m
  | .taskOf t => t.module = m
  | .requestStop t => t.module = m
  | .awaitExit t => t.module = m
  | .platformDeviceRegister => m = .smmuGuard
  | .dummyPdev => m = .smmuGuard
  | .platformDeviceUnregister => m = .smmuGuard
  | .iommuDomainAlloc => m = .smmuGuard
  | .guardDomain => m = .smmuGuard
  | .iommuSetFaultHandler => m = .smmuGuard
  | .iommuAttachDevice => m = .smmuGuard
  | .iommuDetachDevice => m = .smmuGuard
  | .iommuDomainFree => m = .smmuGuard
  | _ => false

/-- The code performs only what the functions of the module may. -/
def OwnCode (m : KernelModule) (code : HostProg α) : Prop :=
  code.All (fun operation => operation.ofFunctions m = true)

theorem removeProcEntry_own (m : KernelModule) : OwnCode m (removeProcEntry m) :=
  .opThen (decide_eq_true rfl) (fun _ => .op (decide_eq_true rfl))

theorem kthreadStop_own (t : KThread) : OwnCode t.module (kthreadStop t) :=
  .opThen (decide_eq_true rfl) (fun _ => .op (decide_eq_true rfl))

theorem implement_own (operation : Op) : OwnCode .safetyMem (implement operation) := by
  cases operation with
  | removeProcEntry => exact removeProcEntry_own _
  | _ => exact .op rfl

/-- The way back of `smmu_guard_init`. -/
theorem smmuGuardRelease_own {dummyPdev guardDomain : Bool} {next : HostProg α}
    (rest : OwnCode .smmuGuard next)
    : OwnCode .smmuGuard (do
        if guardDomain then
          if dummyPdev then
            op .iommuDetachDevice
          op .iommuDomainFree
        if dummyPdev then
          op .platformDeviceUnregister
        next) := by
  cases guardDomain with
  | false =>
      cases dummyPdev with
      | false => exact rest
      | true => exact .opThen rfl (fun _ => rest)
  | true =>
      cases dummyPdev with
      | false => exact .opThen rfl (fun _ => rest)
      | true => exact .opThen rfl (fun _ => .opThen rfl (fun _ => .opThen rfl (fun _ => rest)))

theorem init_own (m : KernelModule) : OwnCode m m.init := by
  cases m with
  | ctxMonitor =>
      refine .opThen rfl (fun ret => ?_)
      split
      · exact .pure
      · refine .opThen rfl (fun created => ?_)
        cases created with
        | false => exact .opThen rfl (fun _ => .pure)
        | true => exact .pure
  | safetyMem =>
      refine .opThen rfl (fun page => ?_)
      cases page with
      | none => exact .pure
      | some page => exact .interpret implement_own _
  | smmuGuard =>
      have rest (dummyPdev guardDomain : Bool) : OwnCode .smmuGuard (do
          if !(← op (.procCreate .smmuGuard)) then
            if guardDomain then
              if dummyPdev then
                op .iommuDetachDevice
              op .iommuDomainFree
            if dummyPdev then
              op .platformDeviceUnregister
            return -eNOMEM
          op (.setSmmuActive true)
          return 0) := by
        refine .opThen rfl (fun created => ?_)
        cases created with
        | false => exact smmuGuardRelease_own .pure
        | true => exact .opThen rfl (fun _ => .pure)
      refine .opThen rfl (fun dummyPdev => .opThen rfl (fun guardDomain => ?_))
      cases guardDomain with
      | false => exact rest dummyPdev false
      | true =>
          refine .opThen rfl (fun _ => ?_)
          cases dummyPdev with
          | false => exact rest false true
          | true => exact .opThen rfl (fun _ => rest true true)
  | badDriver =>
      refine .opThen rfl (fun created => ?_)
      cases created <;> exact .pure
  | mutexThreads =>
      refine .opThen rfl (fun taskA => ?_)
      split
      · exact .pure
      · refine .opThen rfl (fun taskB => ?_)
        split
        · exact .bind (kthreadStop_own .safetyThread) (fun _ => .pure)
        · exact .pure
  | rogueThread =>
      refine .opThen rfl (fun _ => .opThen rfl (fun _ => .opThen rfl (fun created => ?_)))
      cases created with
      | false => exact .pure
      | true =>
          refine .opThen rfl (fun taskC => ?_)
          split
          · exact .bind (removeProcEntry_own _) (fun _ => .pure)
          · exact .pure

theorem exit_own (m : KernelModule) : OwnCode m m.exit := by
  cases m with
  | ctxMonitor => exact .bind (removeProcEntry_own _) (fun _ => .op rfl)
  | safetyMem =>
      refine .opThen rfl (fun page => ?_)
      cases page with
      | none => exact .pure
      | some page => exact .interpret implement_own _
  | smmuGuard =>
      have device : OwnCode .smmuGuard (do
          if ← op .dummyPdev then
            op .platformDeviceUnregister) := by
        refine .opThen rfl (fun found => ?_)
        cases found with
        | false => exact .pure
        | true => exact .op rfl
      refine .opThen rfl (fun _ => .bind (removeProcEntry_own _) (fun _ => ?_))
      refine .opThen rfl (fun domain => ?_)
      cases domain with
      | false => exact device
      | true =>
          refine .opThen rfl (fun found => ?_)
          cases found with
          | false => exact .opThen rfl (fun _ => device)
          | true => exact .opThen rfl (fun _ => .opThen rfl (fun _ => device))
  | badDriver => exact removeProcEntry_own _
  | mutexThreads =>
      have second : OwnCode .mutexThreads (do
          if ← op (.taskOf .coopThread) then
            kthreadStop .coopThread) := by
        refine .opThen rfl (fun found => ?_)
        cases found with
        | false => exact .pure
        | true => exact kthreadStop_own .coopThread
      refine .opThen rfl (fun found => ?_)
      cases found with
      | false => exact second
      | true => exact .bind (kthreadStop_own .safetyThread) (fun _ => second)
  | rogueThread =>
      refine .opThen rfl (fun found => ?_)
      cases found with
      | false => exact removeProcEntry_own _
      | true => exact .bind (kthreadStop_own .rogueThread) (fun _ => removeProcEntry_own _)

end SafetyIsolation.Lifetimes
