import SafetyIsolation.Kernel.Loading
import SafetyIsolation.Lifetimes.Ownership

/-! Every function of the modules follows the protocol: `init` functions end with everything or
with nothing, `exit` functions with nothing, and the other code leaves as it has entered.
-/

namespace SafetyIsolation.Lifetimes

open SafetyIsolation.Interleaving SafetyIsolation.Interleaving.Prog SafetyIsolation.Kernel

variable {tid : Nat} {call : HostCall} {α β : Type}

-----------------------------------------------------------------------------------------
-- Rules
-----------------------------------------------------------------------------------------

/-- The code follows the protocol on behalf of a task in a call. -/
def Obeys (tid : Nat) (call : HostCall) (code : HostProg α) (known : Known)
    (post : α → Known → Prop)
    : Prop :=
  code.Follows (Permits tid call) Learns post known

theorem Obeys.bind {code : HostProg α} {next : α → HostProg β} {known : Known}
    {middle : α → Known → Prop} {post : β → Known → Prop} (first : Obeys tid call code known middle)
    (rest : ∀ value later, middle value later → Obeys tid call (next value) later post)
    : Obeys tid call (code >>= next) known post :=
  Follows.bind first rest

theorem Obeys.pure {value : α} {known : Known} {post : α → Known → Prop} (h : post value known)
    : Obeys tid call (Pure.pure value) known post :=
  h

theorem Obeys.imp {code : HostProg α} {known : Known} {post weaker : α → Known → Prop}
    (h : Obeys tid call code known post)
    (implies : ∀ value later, post value later → weaker value later)
    : Obeys tid call code known weaker :=
  Follows.imp h implies

/-- One operation and the code that follows it. -/
theorem Obeys.opThen {operation : HostOp} {next : operation.Res → HostProg α} {known : Known}
    {post : α → Known → Prop} (permitted : Permits tid call known operation)
    (rest : ∀ result later, Learns known operation result later
      → Obeys tid call (next result) later post)
    : Obeys tid call (op operation >>= next) known post :=
  ⟨permitted, rest⟩

/-- The operation ends the work on a module. -/
def HostOp.settles : HostOp → Bool
  | .moduleLive _ => true
  | .freeModule _ => true
  | _ => false

theorem changesTo_of_not_settles {m : KernelModule} {direction : Direction} {v : View}
    {drained : Bool} {later : Known} {operation : HostOp} {result : operation.Res}
    (kept : operation.settles = false)
    : ChangesTo m direction v drained later operation result
      ↔ Possible v operation result
        ∧ later = ⟨.changing m direction (v.after operation result)
            (drainedAfter drained operation result), false⟩ := by
  cases operation with
  | moduleLive m => cases kept
  | freeModule m => cases kept
  | _ => exact Iff.rfl

/-- One operation of an `init` or `exit` function. -/
theorem Obeys.change {m : KernelModule} {direction : Direction} {v : View} {drained : Bool}
    {operation : HostOp} {post : operation.Res → Known → Prop} (own : call = direction.call m)
    (kept : operation.settles = false) (permitted : Changes m direction v drained operation)
    (rest : ∀ result, Possible v operation result
      → post result ⟨.changing m direction (v.after operation result)
          (drainedAfter drained operation result), false⟩)
    : Obeys tid call (op operation) ⟨.changing m direction v drained, false⟩ post := by
  refine ⟨⟨fun _ => ?_, own, permitted⟩, fun result later learned => ?_⟩
  · rw [own, Direction.call_module]
    rfl
  · obtain ⟨possible, rfl⟩ := (changesTo_of_not_settles kept).mp learned
    exact rest result possible

/-- The same, with the code that follows. -/
theorem Obeys.changeThen {m : KernelModule} {direction : Direction} {v : View} {drained : Bool}
    {operation : HostOp} {next : operation.Res → HostProg α} {post : α → Known → Prop}
    (own : call = direction.call m) (kept : operation.settles = false)
    (permitted : Changes m direction v drained operation)
    (rest : ∀ result, Possible v operation result
      → Obeys tid call (next result) ⟨.changing m direction (v.after operation result)
          (drainedAfter drained operation result), false⟩ post)
    : Obeys tid call (op operation >>= next) ⟨.changing m direction v drained, false⟩ post :=
  .bind (.change own kept permitted (fun result possible => rest result possible))
    (fun _ _ continues => continues)

/-- The end of a file: nobody finds it any more, and nobody is left in it. -/
theorem removeProcEntry_obeys {m : KernelModule} {direction : Direction} {v : View}
    {drained : Bool} (own : call = direction.call m) (linked : v.linked = true)
    : Obeys tid call (removeProcEntry m) ⟨.changing m direction v drained, false⟩
        (fun _ later =>
          later = ⟨.changing m direction { v with linked := false } true, false⟩) := by
  refine .changeThen own rfl ⟨rfl, linked⟩ (fun _ _ => ?_)
  exact .change own rfl ⟨rfl, rfl⟩ (fun _ _ => rfl)

/-- The end of a kernel thread. -/
theorem kthreadStop_obeys {t : KThread} {direction : Direction} {v : View} {drained : Bool}
    (own : call = direction.call t.module) (running : v.tasks t = .running)
    : Obeys tid call (kthreadStop t) ⟨.changing t.module direction v drained, false⟩
        (fun _ later => later = ⟨.changing t.module direction
          { v with tasks := Function.update v.tasks t .no } drained, false⟩) := by
  refine .changeThen own rfl ⟨rfl, running⟩ (fun _ _ => ?_)
  refine .change own rfl ⟨rfl, Function.update_self _ _ _⟩ (fun _ _ => ?_)
  simp only [View.after, drainedAfter, Function.update_idem]

-----------------------------------------------------------------------------------------
-- Load and unload
-----------------------------------------------------------------------------------------

/-- How an `init` function ends. -/
def Initialized (m : KernelModule) (ret : Int) (known : Known) : Prop :=
  ∃ v drained, known = ⟨.changing m .coming v drained, false⟩
    ∧ (ret = 0 ∧ Complete m v ∧ (v.linked = true ∨ drained = true)
      ∨ ret < 0 ∧ drained = true ∧ v.Released)

/-- How an `exit` function ends. -/
def Exited (m : KernelModule) (known : Known) : Prop :=
  ∃ v, known = ⟨.changing m .going v true, false⟩ ∧ v.Released

theorem ctxMonitorInit_obeys (own : call = .insmod .ctxMonitor)
    : Obeys tid call ctxMonitorInit ⟨.changing .ctxMonitor .coming {} true, false⟩
        (Initialized .ctxMonitor) := by
  refine .changeThen own rfl ⟨rfl, rfl⟩ (fun ret nonpositive => ?_)
  split
  · rename_i failed
    exact .pure ⟨_, _, rfl, .inr ⟨lt_of_le_of_ne nonpositive failed, rfl,
      by simp [View.after, View.Released, failed]⟩⟩
  · rename_i succeeded
    refine .changeThen own rfl ⟨rfl, rfl, rfl, fun other => by cases other⟩ (fun created _ => ?_)
    cases created with
    | false =>
        refine .changeThen own rfl ⟨rfl, by simp [View.after, not_not.mp succeeded]⟩
          (fun _ _ => ?_)
        exact .pure ⟨_, _, rfl, .inr ⟨by decide, rfl, by simp [View.after, View.Released]⟩⟩
    | true =>
        exact .pure ⟨_, _, rfl, .inl ⟨rfl,
          by simp [View.after, Complete, not_not.mp succeeded], .inl rfl⟩⟩

theorem ctxMonitorExit_obeys {v : View} (own : call = .rmmod .ctxMonitor)
    (complete : Complete .ctxMonitor v)
    : Obeys tid call ctxMonitorExit ⟨.changing .ctxMonitor .going v false, false⟩
        (fun _ => Exited .ctxMonitor) := by
  cases complete
  refine .bind (removeProcEntry_obeys own rfl) (fun _ later same => ?_)
  rw [same]
  exact .change own rfl ⟨rfl, rfl⟩ (fun _ _ => ⟨_, rfl, rfl⟩)

/-- One operation of the kernel code in `safety_mem_init` or `safety_mem_exit`. -/
theorem Obeys.setup {direction : Direction} {v : View} {drained : Bool} {operation : Op}
    {next : operation.Res → Kern α} {post : α → Known → Prop}
    (own : call = direction.call .safetyMem) (page : v.page = true)
    (permitted : Lifetimes.setup drained operation = true)
    (rest : ∀ result, Obeys tid call ((next result).interpret implement)
      ⟨.changing .safetyMem direction (v.after (.kernel operation) result) drained, false⟩ post)
    : Obeys tid call ((act operation next).interpret implement)
        ⟨.changing .safetyMem direction v drained, false⟩ post := by
  have kernel : implement operation = op (.kernel operation) := by
    cases operation with
    | procCreate => cases permitted
    | removeProcEntry => cases permitted
    | _ => rfl
  rw [interpret, kernel]
  exact Obeys.changeThen own rfl ⟨rfl, page, permitted⟩ (fun result _ => rest result)

theorem safetyMemInit_obeys (own : call = .insmod .safetyMem)
    : Obeys tid call safetyMemInit ⟨.changing .safetyMem .coming {} true, false⟩
        (Initialized .safetyMem) := by
  refine .changeThen own rfl ⟨rfl, rfl, rfl⟩ (fun page _ => ?_)
  cases page with
  | none => exact .pure ⟨_, _, rfl, .inr ⟨by decide, rfl, rfl⟩⟩
  | some page =>
      refine .setup own rfl rfl (fun _ => .setup own rfl rfl (fun _ => .setup own rfl rfl
        (fun _ => .setup own rfl rfl (fun _ => .setup own rfl rfl (fun _ => ?_)))))
      refine .changeThen own rfl ⟨rfl, rfl, rfl, fun _ => rfl⟩ (fun created _ => ?_)
      cases created with
      | true => exact ⟨_, _, rfl, .inl ⟨rfl, rfl, .inl rfl⟩⟩
      | false =>
          have freed : Obeys tid call ((do
              Kernel.op .freePages
              return -eNOMEM : Kern Int).interpret implement)
              ⟨.changing .safetyMem .coming { page := true, bufPtr := some .direct } true, false⟩
              (Initialized .safetyMem) :=
            .setup own rfl rfl (fun _ => ⟨_, _, rfl, .inr ⟨by decide, rfl, rfl⟩⟩)
          by_cases vmapped : page.hasVmalloc = true
          · simp only [vmapped, if_true]
            exact .setup own rfl rfl (fun _ => freed)
          · simp only [vmapped, Bool.false_eq_true, if_false]
            exact freed

/-- The last part of `safety_mem_exit`, which has no users any more. -/
theorem safetyMemRelease_obeys {page : SafetyPage} (own : call = .rmmod .safetyMem)
    : Obeys tid call ((do
        if page.hasVmalloc then Kernel.op .vunmap
        Kernel.op .freePages : Kern Unit).interpret implement)
        ⟨.changing .safetyMem .going { page := true } true, false⟩
        (fun _ => Exited .safetyMem) := by
  have freed : Obeys tid call ((Kernel.op .freePages).interpret implement)
      ⟨.changing .safetyMem .going { page := true } true, false⟩
      (fun _ => Exited .safetyMem) :=
    .setup own rfl rfl (fun _ => ⟨_, rfl, rfl⟩)
  by_cases vmapped : page.hasVmalloc = true
  · simp only [vmapped, if_true]
    exact .setup own rfl rfl (fun _ => freed)
  · simp only [vmapped, Bool.false_eq_true, if_false]
    exact freed

theorem safetyMemExit_obeys {v : View} (own : call = .rmmod .safetyMem)
    (complete : Complete .safetyMem v)
    : Obeys tid call safetyMemExit ⟨.changing .safetyMem .going v false, false⟩
        (fun _ => Exited .safetyMem) := by
  cases complete
  refine .changeThen own rfl ⟨rfl, rfl⟩ (fun found isSome => ?_)
  obtain ⟨page, rfl⟩ := Option.isSome_iff_exists.mp isSome
  refine Obeys.bind (removeProcEntry_obeys own rfl) (fun _ later same => ?_)
  rw [same]
  refine .setup own rfl rfl (fun _ => .setup own rfl rfl (fun isProtected => ?_))
  have released := @safetyMemRelease_obeys tid call page own
  cases isProtected with
  | false => exact released
  | true =>
      refine .setup own rfl rfl (fun _ => ?_)
      by_cases vmapped : page.hasVmalloc = true
      · simp only [vmapped, if_true] at released ⊢
        exact .setup own rfl rfl (fun _ => released)
      · simp only [vmapped, Bool.false_eq_true, if_false] at released ⊢
        exact released

/-- The way back of `smmu_guard_init` and the end of `smmu_guard_exit`: the device leaves the
domain before either goes.
-/
theorem smmuGuardRelease_obeys {direction : Direction} {v : View} {β : Type} {next : HostProg β}
    {post : β → Known → Prop} (own : call = direction.call .smmuGuard)
    (owned : v = { device := v.device, domain := v.domain, handler := v.handler,
                   attached := v.attached })
    (inside : v.attached = true → v.device = true ∧ v.domain = true)
    (handled : v.handler = true → v.domain = true)
    (rest : Obeys tid call next ⟨.changing .smmuGuard direction {} true, false⟩ post)
    : Obeys tid call (do
        if v.domain then
          if v.device then
            op .iommuDetachDevice
          op .iommuDomainFree
        if v.device then
          op .platformDeviceUnregister
        next)
        ⟨.changing .smmuGuard direction v true, false⟩ post := by
  obtain ⟨linked, notifier, page, bufPtr, device, domain, handler, attached, active, tasks⟩ := v
  obtain ⟨rfl, rfl, rfl, rfl, -, -, -, -, rfl, rfl⟩ := View.mk.inj owned
  cases domain with
  | true =>
      cases device with
      | true =>
          refine .changeThen own rfl ⟨rfl, rfl, rfl⟩ (fun _ _ => ?_)
          refine .changeThen own rfl ⟨rfl, rfl, rfl⟩ (fun _ _ => ?_)
          exact .changeThen own rfl ⟨rfl, rfl, rfl⟩ (fun _ _ => rest)
      | false =>
          cases attached with
          | true => exact absurd (inside rfl).1 Bool.false_ne_true
          | false => exact .changeThen own rfl ⟨rfl, rfl, rfl⟩ (fun _ _ => rest)
  | false =>
      cases handler with
      | true => exact absurd (handled rfl) Bool.false_ne_true
      | false =>
          cases attached with
          | true => exact absurd (inside rfl).2 Bool.false_ne_true
          | false =>
              cases device with
              | true => exact .changeThen own rfl ⟨rfl, rfl, rfl⟩ (fun _ _ => rest)
              | false => exact rest

/-- The end of `smmu_guard_init`, with or without a device and a domain. -/
theorem smmuGuardPublish_obeys {v : View} (own : call = .insmod .smmuGuard)
    (owned : v = { device := v.device, domain := v.domain, handler := v.domain,
                   attached := v.attached })
    (inside : v.attached = true → v.device = true ∧ v.domain = true)
    : Obeys tid call (do
        if !(← op (.procCreate .smmuGuard)) then
          if v.domain then
            if v.device then
              op .iommuDetachDevice
            op .iommuDomainFree
          if v.device then
            op .platformDeviceUnregister
          return -eNOMEM
        op (.setSmmuActive true)
        return 0)
        ⟨.changing .smmuGuard .coming v true, false⟩ (Initialized .smmuGuard) := by
  have unlinked : v.linked = false := by rw [owned]
  refine .changeThen own rfl ⟨rfl, rfl, unlinked, fun other => by cases other⟩
    (fun created _ => ?_)
  cases created with
  | false =>
      have same : v.after (.procCreate .smmuGuard) false = v := by rw [View.after, ← unlinked]
      rw [same]
      have handler : v.handler = v.domain := by rw [owned]
      refine smmuGuardRelease_obeys own ?_ inside (fun set => handler ▸ set) ?_
      · rw [handler]
        exact owned
      · exact .pure ⟨_, _, rfl, .inr ⟨by decide, rfl, rfl⟩⟩
  | true =>
      refine .changeThen own rfl rfl
        (fun _ _ => .pure ⟨_, _, rfl, .inl ⟨rfl, ⟨?_, inside⟩, .inl rfl⟩⟩)
      rw [owned]
      rfl

theorem smmuGuardInit_obeys (own : call = .insmod .smmuGuard)
    : Obeys tid call smmuGuardInit ⟨.changing .smmuGuard .coming {} true, false⟩
        (Initialized .smmuGuard) := by
  refine .changeThen own rfl ⟨rfl, rfl⟩ (fun device _ => ?_)
  refine .changeThen own rfl ⟨rfl, rfl, rfl⟩ (fun domain _ => ?_)
  cases domain with
  | false => exact smmuGuardPublish_obeys own rfl (fun none => absurd none Bool.false_ne_true)
  | true =>
      refine .changeThen own rfl ⟨rfl, rfl⟩ (fun _ _ => ?_)
      cases device with
      | false => exact smmuGuardPublish_obeys own rfl (fun none => absurd none Bool.false_ne_true)
      | true =>
          refine .changeThen own rfl ⟨rfl, rfl, rfl, rfl⟩ (fun ret _ => ?_)
          exact smmuGuardPublish_obeys own rfl (fun _ => ⟨rfl, rfl⟩)

/-- The end of `smmu_guard_exit`, when the device has left its domain. -/
theorem smmuGuardUnregister_obeys {device : Bool} (own : call = .rmmod .smmuGuard)
    : Obeys tid call (do
        if ← op .dummyPdev then
          op .platformDeviceUnregister)
        ⟨.changing .smmuGuard .going { device } true, false⟩ (fun _ => Exited .smmuGuard) := by
  refine .changeThen own rfl rfl (fun found isDevice => ?_)
  cases device with
  | true =>
      rw [isDevice]
      exact .change own rfl ⟨rfl, rfl, rfl⟩ (fun _ _ => ⟨_, rfl, rfl⟩)
  | false =>
      rw [isDevice]
      exact ⟨_, rfl, rfl⟩

theorem smmuGuardExit_obeys {v : View} (own : call = .rmmod .smmuGuard)
    (complete : Complete .smmuGuard v)
    : Obeys tid call smmuGuardExit ⟨.changing .smmuGuard .going v false, false⟩
        (fun _ => Exited .smmuGuard) := by
  obtain ⟨owned, inside⟩ := complete
  obtain ⟨linked, notifier, page, bufPtr, device, _, domain, attached, active, tasks⟩ := v
  obtain ⟨rfl, rfl, rfl, rfl, -, -, rfl, -, rfl, rfl⟩ := View.mk.inj owned
  refine .changeThen own rfl rfl (fun _ _ => ?_)
  refine .bind (removeProcEntry_obeys own rfl) (fun _ later same => ?_)
  rw [same]
  refine .changeThen own rfl rfl (fun found isDomain => ?_)
  cases domain with
  | false =>
      rw [isDomain]
      cases attached with
      | true => exact absurd (inside rfl).2 Bool.false_ne_true
      | false => exact smmuGuardUnregister_obeys own
  | true =>
      rw [isDomain]
      refine .changeThen own rfl rfl (fun found isDevice => ?_)
      cases device with
      | false =>
          rw [isDevice]
          cases attached with
          | true => exact absurd (inside rfl).1 Bool.false_ne_true
          | false =>
              exact .changeThen own rfl ⟨rfl, rfl, rfl⟩ (fun _ _ => smmuGuardUnregister_obeys own)
      | true =>
          rw [isDevice]
          refine .changeThen own rfl ⟨rfl, rfl, rfl⟩ (fun _ _ => ?_)
          exact .changeThen own rfl ⟨rfl, rfl, rfl⟩ (fun _ _ => smmuGuardUnregister_obeys own)

theorem badDriverInit_obeys (own : call = .insmod .badDriver)
    : Obeys tid call badDriverInit ⟨.changing .badDriver .coming {} true, false⟩
        (Initialized .badDriver) := by
  refine .changeThen own rfl ⟨rfl, rfl, rfl, fun other => by cases other⟩ (fun created _ => ?_)
  cases created with
  | false => exact .pure ⟨_, _, rfl, .inr ⟨by decide, rfl, rfl⟩⟩
  | true => exact .pure ⟨_, _, rfl, .inl ⟨rfl, rfl, .inl rfl⟩⟩

theorem badDriverExit_obeys {v : View} (own : call = .rmmod .badDriver)
    (complete : Complete .badDriver v)
    : Obeys tid call badDriverExit ⟨.changing .badDriver .going v false, false⟩
        (fun _ => Exited .badDriver) := by
  cases complete
  exact (removeProcEntry_obeys own rfl).imp (fun _ later same => ⟨_, same, rfl⟩)

/-- A thread that could not be started changes nothing. -/
theorem View.after_kthreadRun_failed {v : View} {t : KThread} {ret : Int} (failed : ret ≠ 0)
    : v.after (.kthreadRun t) ret = v := if_neg failed

theorem mutexThreadsInit_obeys (own : call = .insmod .mutexThreads)
    : Obeys tid call mutexThreadsInit ⟨.changing .mutexThreads .coming {} true, false⟩
        (Initialized .mutexThreads) := by
  refine .changeThen own rfl ⟨rfl, rfl⟩ (fun taskA nonpositive => ?_)
  split
  · rename_i failed
    rw [View.after_kthreadRun_failed failed]
    exact .pure ⟨_, _, rfl, .inr ⟨lt_of_le_of_ne nonpositive failed, rfl, rfl⟩⟩
  · rename_i startedA
    rw [not_not.mp startedA]
    refine .changeThen own rfl ⟨rfl, rfl⟩ (fun taskB nonpositive => ?_)
    split
    · rename_i failed
      rw [View.after_kthreadRun_failed failed]
      refine .bind (kthreadStop_obeys (t := .safetyThread) own rfl) (fun _ later same => ?_)
      rw [same]
      refine .pure ⟨_, _, rfl, .inr ⟨lt_of_le_of_ne nonpositive failed, rfl, ?_⟩⟩
      refine View.ext rfl rfl rfl rfl rfl rfl rfl rfl rfl (funext (fun t => ?_))
      cases t <;> rfl
    · rename_i startedB
      rw [not_not.mp startedB]
      refine .pure ⟨_, _, rfl, .inl ⟨rfl, ?_, .inr rfl⟩⟩
      refine View.ext rfl rfl rfl rfl rfl rfl rfl rfl rfl (funext (fun t => ?_))
      cases t <;> rfl

theorem mutexThreadsExit_obeys {v : View} (own : call = .rmmod .mutexThreads)
    (complete : Complete .mutexThreads v)
    : Obeys tid call mutexThreadsExit ⟨.changing .mutexThreads .going v true, false⟩
        (fun _ => Exited .mutexThreads) := by
  cases complete
  refine .changeThen own rfl rfl (fun found isTask => ?_)
  rw [isTask]
  refine .bind (kthreadStop_obeys (t := .safetyThread) own rfl) (fun _ later same => ?_)
  rw [same]
  refine .changeThen own rfl rfl (fun found isTask => ?_)
  rw [isTask]
  refine (kthreadStop_obeys (t := .coopThread) own rfl).imp (fun _ later same => ?_)
  refine ⟨_, same, ?_⟩
  refine View.ext rfl rfl rfl rfl rfl rfl rfl rfl rfl (funext (fun t => ?_))
  cases t <;> rfl

theorem rogueThreadInit_obeys (own : call = .insmod .rogueThread)
    : Obeys tid call rogueThreadInit ⟨.changing .rogueThread .coming {} true, false⟩
        (Initialized .rogueThread) := by
  refine .changeThen own rfl rfl (fun _ _ => .changeThen own rfl rfl (fun _ _ => ?_))
  refine .changeThen own rfl ⟨rfl, rfl, rfl, fun other => by cases other⟩ (fun created _ => ?_)
  cases created with
  | false => exact .pure ⟨_, _, rfl, .inr ⟨by decide, rfl, rfl⟩⟩
  | true =>
      refine .changeThen own rfl ⟨rfl, rfl⟩ (fun taskC nonpositive => ?_)
      split
      · rename_i failed
        rw [View.after_kthreadRun_failed failed]
        refine .bind (removeProcEntry_obeys own rfl) (fun _ later same => ?_)
        rw [same]
        exact .pure ⟨_, _, rfl, .inr ⟨lt_of_le_of_ne nonpositive failed, rfl, rfl⟩⟩
      · rename_i started
        rw [not_not.mp started]
        refine .pure ⟨_, _, rfl, .inl ⟨rfl, ?_, .inl rfl⟩⟩
        refine View.ext rfl rfl rfl rfl rfl rfl rfl rfl rfl (funext (fun t => ?_))
        cases t <;> rfl

theorem rogueThreadExit_obeys {v : View} (own : call = .rmmod .rogueThread)
    (complete : Complete .rogueThread v)
    : Obeys tid call rogueThreadExit ⟨.changing .rogueThread .going v false, false⟩
        (fun _ => Exited .rogueThread) := by
  cases complete
  refine .changeThen own rfl rfl (fun found isTask => ?_)
  rw [isTask]
  refine .bind (kthreadStop_obeys (t := .rogueThread) own rfl) (fun _ later same => ?_)
  rw [same]
  refine (removeProcEntry_obeys own rfl).imp (fun _ later same => ⟨_, same, ?_⟩)
  refine View.ext rfl rfl rfl rfl rfl rfl rfl rfl rfl (funext (fun t => ?_))
  cases t <;> rfl

theorem init_obeys (m : KernelModule) (own : call = .insmod m)
    : Obeys tid call m.init ⟨.changing m .coming {} true, false⟩ (Initialized m) := by
  cases m with
  | ctxMonitor => exact ctxMonitorInit_obeys own
  | safetyMem => exact safetyMemInit_obeys own
  | smmuGuard => exact smmuGuardInit_obeys own
  | badDriver => exact badDriverInit_obeys own
  | mutexThreads => exact mutexThreadsInit_obeys own
  | rogueThread => exact rogueThreadInit_obeys own

theorem Complete.linked {m : KernelModule} {v : View} (h : Complete m v)
    : v.linked = decide (m ≠ .mutexThreads) := by
  cases m with
  | smmuGuard => rw [h.1]; rfl
  | _ => rw [show v = _ from h]; rfl

theorem exit_obeys {v : View} (m : KernelModule) (own : call = .rmmod m)
    (complete : Complete m v)
    : Obeys tid call m.exit ⟨.changing m .going v (!v.linked), false⟩ (fun _ => Exited m) := by
  rw [complete.linked]
  cases m with
  | ctxMonitor => exact ctxMonitorExit_obeys own complete
  | safetyMem => exact safetyMemExit_obeys own complete
  | smmuGuard => exact smmuGuardExit_obeys own complete
  | badDriver => exact badDriverExit_obeys own complete
  | mutexThreads => exact mutexThreadsExit_obeys own complete
  | rogueThread => exact rogueThreadExit_obeys own complete

/-- A module that is complete, or of which nothing is left, is handed back to the kernel. -/
theorem Obeys.settle {m : KernelModule} {direction : Direction} {v : View} {drained : Bool}
    {operation : HostOp} {value : α} (own : call = direction.call m)
    (settles : operation.settles = true) (permitted : Changes m direction v drained operation)
    : Obeys tid call (op operation >>= fun _ => Pure.pure value)
        ⟨.changing m direction v drained, false⟩ (fun _ known => known = .rest) := by
  have outside : operation.inModule = false := by
    cases operation with
    | moduleLive m => rfl
    | freeModule m => rfl
    | _ => cases settles
  refine .opThen ⟨fun inside => absurd (outside.symm.trans inside) Bool.false_ne_true, own,
    permitted⟩
    (fun result later learned => ?_)
  cases operation with
  | moduleLive m => exact learned
  | freeModule m => exact learned
  | _ => cases settles

theorem insmod_obeys (m : KernelModule)
    : Obeys tid (.insmod m) (insmod m) .rest (fun _ known => known = .rest) := by
  refine .opThen ⟨fun inside => absurd inside Bool.false_ne_true, trivial⟩
    (fun loaded later learned => ?_)
  have isLater : later = if loaded = 0 then _ else _ := learned
  split
  · rename_i failed
    rw [isLater, if_neg failed]
    exact .pure rfl
  · rename_i success
    rw [isLater, if_pos (not_not.mp success)]
    refine .bind (init_obeys m rfl) (fun ret later ended => ?_)
    obtain ⟨v, drained, rfl, ⟨rfl, complete, served⟩ | ⟨failed, undone, released⟩⟩ := ended
    · exact .settle rfl rfl ⟨rfl, rfl, complete, served⟩
    · rw [if_pos failed]
      exact .settle rfl rfl ⟨rfl, undone, released⟩

theorem rmmod_obeys (m : KernelModule)
    : Obeys tid (.rmmod m) (rmmod m) .rest (fun _ known => known = .rest) := by
  refine .opThen ⟨fun inside => absurd inside Bool.false_ne_true, trivial⟩
    (fun stopped later learned => ?_)
  have isLater : if stopped = 0 then ∃ v, _ else _ := learned
  split
  · rename_i failed
    rw [if_neg failed] at isLater
    rw [isLater]
    exact .pure rfl
  · rename_i success
    rw [if_pos (not_not.mp success)] at isLater
    obtain ⟨v, complete, rfl⟩ := isLater
    refine .bind (exit_obeys m rfl complete) (fun _ later ended => ?_)
    obtain ⟨v, rfl, released⟩ := ended
    exact .settle rfl rfl ⟨rfl, rfl, released⟩

-----------------------------------------------------------------------------------------
-- Kernel code in files and threads
-----------------------------------------------------------------------------------------

/-- The code takes and releases `safety_mutex` in turn and ends without it. -/
def Balanced (locked : Bool) (code : Kern α) : Prop :=
  code.Follows (fun locked operation => ordinary locked operation = true)
    (fun locked operation result later => later = lockedAfter locked operation result)
    (fun _ later => later = false) locked

theorem Balanced.act {locked : Bool} {operation : Op} {next : operation.Res → Kern α}
    (allowed : ordinary locked operation = true)
    (rest : ∀ result, Balanced (lockedAfter locked operation result) (next result))
    : Balanced locked (.act operation next) := by
  refine ⟨allowed, fun result later learned => ?_⟩
  rw [learned]
  exact rest result

theorem Balanced.ret {value : α} : Balanced false (.ret value : Kern α) := rfl

theorem Balanced.onVmalloc {page : SafetyPage} {locked write : Bool} {next : Int → Kern α}
    (rest : ∀ err, Balanced locked (next err))
    : Balanced locked (Kernel.onVmalloc page write next) := by
  unfold Kernel.onVmalloc
  split
  · exact .act rfl rest
  · exact rest 0

theorem Balanced.withSafetyBuf {locked : Bool} {next : UInt32 → Kern α}
    (rest : ∀ value, Balanced locked (next value))
    : Balanced locked (Kernel.withSafetyBuf next) := by
  refine .act rfl (fun ptr => ?_)
  cases ptr with
  | none => exact rest 0
  | some ptr => exact .act rfl rest

theorem Balanced.holdWindow : Balanced true Kernel.holdWindow := by
  refine .withSafetyBuf (fun initialVal => .withSafetyBuf (fun currentVal => ?_))
  split
  · exact .act rfl (fun _ => .act rfl (fun _ => .act rfl (fun _ => .ret)))
  · exact .act rfl (fun _ => .ret)

/-- Code that leaves the mutex alone, by program induction. -/
theorem Balanced.of_all {code : Kern α}
    (ops : code.All (fun operation => ordinary false operation = true
      ∧ ordinary true operation = true))
    : Balanced false code := by
  induction code with
  | ret value => rfl
  | act operation next ih =>
      refine .act ops.1.1 (fun result => ?_)
      have same : lockedAfter false operation result = false := by
        cases operation with
        | mutexLock => cases ops.1.2
        | mutexTrylock => cases ops.1.2
        | _ => rfl
      rw [same]
      exact ih result (ops.2 result)

theorem setProtection_balanced (page : SafetyPage) (enable : Bool)
    : Balanced false (safetyMemSetProtection page enable) := by
  have ends (retVirt retVmalloc : Int) : Balanced false (walkAndReturn page retVirt retVmalloc) :=
    .act rfl (fun _ => .act rfl (fun _ => .ret))
  cases enable with
  | false =>
      rw [safetyMemSetProtection_false]
      refine .act rfl (fun _ => .act rfl (fun _ => .act rfl (fun retVirt => .onVmalloc ?_)))
      exact fun retVmalloc => .act rfl (fun _ => .act rfl (fun _ => ends retVirt retVmalloc))
  | true =>
      rw [safetyMemSetProtection_true]
      refine .act rfl (fun _ => .act rfl (fun _ => .act rfl (fun retVirt => .onVmalloc ?_)))
      refine fun retVmalloc => .act rfl (fun _ => .act rfl (fun _ => .act rfl (fun _ => ?_)))
      exact .act rfl (fun _ => ends retVirt retVmalloc)

theorem Balanced.bind {code : Kern α} {next : α → Kern β} (first : Balanced false code)
    (rest : ∀ value, Balanced false (next value))
    : Balanced false (code >>= next) := by
  refine Follows.bind first (fun value later unlocked => ?_)
  rw [unlocked]
  exact rest value

/-- Every entry point of the kernel code takes and releases the mutex in turn. -/
theorem body_balanced (page : SafetyPage) (call : Call) : Balanced false (call.body page) := by
  cases call with
  | setProtection enable => exact setProtection_balanced page enable
  | safeWrite val =>
      simp only [Call.body, safetyMemSafeWrite_eq]
      refine .act rfl (fun _ => .act rfl (fun wasRo => ?_))
      cases wasRo with
      | false => exact .act rfl (fun _ => .act rfl (fun _ => .ret))
      | true =>
          refine .act rfl (fun _ => .onVmalloc (fun _ => .act rfl (fun _ => .act rfl ?_)))
          exact fun _ => .onVmalloc (fun _ => .act rfl (fun _ => .ret))
  | isProtected => exact .act rfl (fun _ => .ret)
  | attack mode =>
      refine .of_all ((attack_performs page mode).imp (fun operation performed => ?_))
      cases operation <;> first | exact ⟨rfl, rfl⟩ | cases performed
  | threadA =>
      simp only [Call.body, safetyThreadAFn_eq]
      refine .act rfl (fun got => ?_)
      cases got with
      | true => exact .holdWindow
      | false => exact .act rfl (fun _ => .act rfl (fun _ => .act rfl (fun _ => .holdWindow)))
  | threadB =>
      simp only [Call.body, coopThreadBFn_eq]
      refine .act rfl (fun _ => .act rfl (fun ptr => ?_))
      cases ptr with
      | none => exact .act rfl (fun _ => .ret)
      | some ptr => exact .act rfl (fun _ => .act rfl (fun _ => .ret))
  | rogueC attackMode =>
      refine .of_all ((body_performs page (.rogueC attackMode)).imp
        (fun operation performed => ?_))
      cases operation <;> first | exact ⟨rfl, rfl⟩ | cases performed

/-- The module an entry point belongs to. -/
def callModule : Call → KernelModule
  | .setProtection _ => .safetyMem
  | .safeWrite _ => .safetyMem
  | .isProtected => .safetyMem
  | .attack _ => .badDriver
  | .threadA => .mutexThreads
  | .threadB => .mutexThreads
  | .rogueC _ => .rogueThread

theorem reach_single {m used : KernelModule} (reaches : used ∈ m.reach) : [used] ⊆ m.reach :=
  List.cons_subset.mpr ⟨reaches, List.nil_subset _⟩

/-- Every entry point stays with the variables of its module and of those it links to. -/
theorem body_variables (page : SafetyPage) (call : Call)
    : (call.body page).All (fun operation => opVariables operation ⊆ (callModule call).reach) := by
  refine (body_performs page call).imp (fun operation performed => ?_)
  cases call with
  | setProtection enable =>
      show opVariables operation ⊆ KernelModule.safetyMem.reach
      cases operation <;> first | exact reach_single (by decide) | cases performed
  | safeWrite val =>
      show opVariables operation ⊆ KernelModule.safetyMem.reach
      cases operation <;> first | exact reach_single (by decide) | cases performed
  | isProtected =>
      rw [eq_of_beq performed]
      exact reach_single List.mem_cons_self
  | attack mode =>
      show opVariables operation ⊆ KernelModule.badDriver.reach
      cases operation with
      | readCounter counter =>
          cases counter <;> first | exact reach_single (by decide) | cases performed
      | writeCounter counter value =>
          cases counter <;> first | exact reach_single (by decide) | cases performed
      | ktimeGetRealNs => exact List.nil_subset _
      | _ => first | exact reach_single (by decide) | cases performed
  | threadA =>
      show opVariables operation ⊆ KernelModule.mutexThreads.reach
      cases operation with
      | readCounter counter =>
          cases counter <;> first | exact reach_single (by decide) | cases performed
      | writeCounter counter value =>
          cases counter <;> first | exact reach_single (by decide) | cases performed
      | _ => first | exact reach_single (by decide) | cases performed
  | threadB =>
      show opVariables operation ⊆ KernelModule.mutexThreads.reach
      cases operation <;> first | exact reach_single (by decide) | cases performed
  | rogueC attackMode =>
      show opVariables operation ⊆ KernelModule.rogueThread.reach
      cases operation <;> first | exact reach_single (by decide) | cases performed

/-- Kernel code of a module, as it runs in file operations and threads. -/
def Lawful (m : KernelModule) (code : Kern α) : Prop :=
  code.Follows
    (fun locked operation => opVariables operation ⊆ m.reach ∧ ordinary locked operation = true)
    (fun locked operation result later => later = lockedAfter locked operation result)
    (fun _ later => later = false) false

theorem body_lawful (page : SafetyPage) (call : Call) : Lawful (callModule call) (call.body page) :=
  Follows.and_all (body_balanced page call) (body_variables page call)

theorem Lawful.pure {m : KernelModule} {value : α} : Lawful m (Pure.pure value : Kern α) := rfl

theorem Lawful.bind {m : KernelModule} {code : Kern α} {next : α → Kern β}
    (first : Lawful m code) (rest : ∀ value, Lawful m (next value))
    : Lawful m (code >>= next) := by
  refine Follows.bind first (fun value later unlocked => ?_)
  rw [unlocked]
  exact rest value

theorem safetyMemProcWrite_lawful (page : SafetyPage) (buf : UserMemory) (count : Nat)
    : Lawful .safetyMem (safetyMemProcWrite page buf count) := by
  unfold safetyMemProcWrite
  split
  · exact .pure
  · split
    · exact .pure
    · dsimp only
      split
      · exact .bind (body_lawful page (.setProtection true)) (fun _ => .pure)
      · split
        · exact .bind (body_lawful page (.setProtection false)) (fun _ => .pure)
        · exact .pure

theorem badDriverProcWrite_lawful (page : SafetyPage) (buf : UserMemory) (count : Nat)
    : Lawful .badDriver (badDriverProcWrite page buf count) := by
  unfold badDriverProcWrite
  split
  · exact .pure
  · split
    · exact .pure
    · split
      · exact .pure
      · split
        · exact .pure
        · rename_i mode _
          exact .bind (body_lawful page (.attack mode)) (fun _ => .pure)

/-- The thread functions use `safety_buf_ptr`, not the addresses of the page. -/
theorem loop_lawful (t : KThread) (attackMode : UInt32) : Lawful t.module (t.loop attackMode) := by
  cases t with
  | safetyThread => exact body_lawful (samplePage false) .threadA
  | coopThread => exact body_lawful (samplePage false) .threadB
  | rogueThread => exact body_lawful (samplePage false) (.rogueC attackMode)

-----------------------------------------------------------------------------------------
-- Calls
-----------------------------------------------------------------------------------------

/-- Lawful kernel code obeys the protocol at a stage that permits lawful operations. -/
theorem Lawful.obeys {m : KernelModule} {stage : Stage} {code : Kern α} (h : Lawful m code)
    (permitted : ∀ locked operation, opVariables operation ⊆ m.reach
      → ordinary locked operation = true → Permits tid call ⟨stage, locked⟩ (.kernel operation))
    (learned : ∀ locked operation result later,
      Learns ⟨stage, locked⟩ (.kernel operation) result later
      → later = ⟨stage, lockedAfter locked operation result⟩)
    : Obeys tid call (code.interpret implement) ⟨stage, false⟩
        (fun _ later => later = ⟨stage, false⟩) := by
  let embed (locked : Bool) : Known := ⟨stage, locked⟩
  have run : (code.interpret implement).Follows (Permits tid call) Learns
      (fun _ later' => ∃ later, later = false ∧ later' = embed later) (embed false) := by
    refine Follows.interpret embed (fun locked operation allowed => ?_) h
    have kernel : implement operation = op (.kernel operation) := by
      cases operation with
      | procCreate => cases allowed.2
      | removeProcEntry => cases allowed.2
      | _ => rfl
    rw [kernel]
    refine ⟨permitted locked operation allowed.1 allowed.2, fun result later learns => ?_⟩
    exact ⟨_, rfl, learned locked operation result later learns⟩
  refine run.imp (fun value later' reached => ?_)
  obtain ⟨later, unlocked, rfl⟩ := reached
  rw [unlocked]

theorem Lawful.handles {m : KernelModule} {code : Kern α} (h : Lawful m code)
    (own : call.module = some m) (reaches : .safetyMem ∈ m.reach)
    : Obeys tid call (code.interpret implement) ⟨.handling m, false⟩
        (fun _ later => later = ⟨.handling m, false⟩) :=
  h.obeys (fun _ _ within allowed => ⟨fun _ => own.symm, own, reaches, within, allowed⟩)
    (fun _ _ _ _ learned => learned)

theorem Lawful.turns {t : KThread} {code : Kern α} (h : Lawful t.module code)
    (own : call.module = some t.module) (asked : Bool)
    : Obeys tid call (code.interpret implement) ⟨.turning t asked, false⟩
        (fun _ later => later = ⟨.turning t asked, false⟩) :=
  h.obeys (fun _ _ within allowed => ⟨fun _ => own.symm, within, allowed⟩)
    (fun _ _ _ _ learned => learned)

/-- A file operation leaves as it has entered. -/
theorem fileOperation_obeys {m : KernelModule} {handler : HostProg Int}
    (own : call.module = some m) (inside : Obeys tid call handler ⟨.handling m, false⟩
      (fun _ later => later = ⟨.handling m, false⟩))
    : Obeys tid call (fileOperation m handler) .rest (fun _ known => known = .rest) := by
  refine .opThen ⟨fun inside => absurd inside Bool.false_ne_true, trivial⟩
    (fun entered later learned => ?_)
  rw [show later = if entered then _ else _ from learned]
  cases entered with
  | false => exact .pure rfl
  | true =>
      refine .bind inside (fun ret later same => ?_)
      rw [same]
      exact .opThen ⟨fun inside => absurd inside Bool.false_ne_true, own, rfl, rfl⟩
        (fun _ _ learned => .pure learned)

theorem onSafetyPage_obeys {m : KernelModule} {otherwise : α} {body : SafetyPage → Kern α}
    (own : call.module = some m) (reaches : .safetyMem ∈ m.reach)
    (lawful : ∀ page, Lawful m (body page))
    : Obeys tid call (onSafetyPage otherwise body) ⟨.handling m, false⟩
        (fun _ later => later = ⟨.handling m, false⟩) := by
  refine .opThen ⟨fun _ => own.symm, own, reaches⟩ (fun found later learned => ?_)
  obtain ⟨isSome, rfl⟩ : found.isSome = true ∧ later = _ := learned
  obtain ⟨page, rfl⟩ := Option.isSome_iff_exists.mp isSome
  exact (lawful page).handles own reaches

/-- Code of a file operation that only reads, by program induction. -/
theorem reader_obeys {code : Reader α} (own : call.module = some .safetyMem)
    : Obeys tid call (code.interpret (fun operation => op (.read operation)))
        ⟨.handling .safetyMem, false⟩ (fun _ later => later = ⟨.handling .safetyMem, false⟩) := by
  induction code with
  | ret value => rfl
  | act operation next ih =>
      refine Obeys.opThen ⟨fun _ => own.symm, own, rfl⟩ (fun result later learned => ?_)
      rw [show later = _ from learned]
      exact ih result

theorem procShow_obeys (raw : Entry → UInt64) (attackMode : UInt32) (m : KernelModule)
    (own : call.module = some m)
    : Obeys tid call (procShow raw attackMode m) ⟨.handling m, false⟩
        (fun _ later => later = ⟨.handling m, false⟩) := by
  have peeks {β : Type} {m : KernelModule} {next : State → HostProg β}
      {post : β → Known → Prop} (own : call.module = some m)
      (rest : ∀ value, Obeys tid call (next value) ⟨.handling m, false⟩ post)
      : Obeys tid call (op (.peek m) >>= next) ⟨.handling m, false⟩ post := by
    refine .opThen ⟨fun _ => own.symm, own, rfl⟩ (fun value later learned => ?_)
    rw [show later = _ from learned]
    exact rest value
  cases m with
  | ctxMonitor => exact peeks own (fun _ => .pure rfl)
  | safetyMem =>
      refine .opThen ⟨fun _ => own.symm, own, List.mem_cons_self⟩ (fun found later learned => ?_)
      obtain ⟨isSome, rfl⟩ : found.isSome = true ∧ later = _ := learned
      obtain ⟨page, rfl⟩ := Option.isSome_iff_exists.mp isSome
      exact .bind (reader_obeys own) (fun _ _ same => .pure same)
  | smmuGuard => exact .opThen ⟨fun _ => own.symm, own, rfl⟩ (fun _ _ learned => .pure learned)
  | badDriver =>
      exact peeks own (fun _ => peeks own (fun _ => peeks own (fun _ => peeks own (fun _ =>
        peeks own (fun _ => .pure rfl)))))
  | mutexThreads => exact .pure rfl
  | rogueThread => exact peeks own (fun _ => peeks own (fun _ => .pure rfl))

theorem turn_obeys (t : KThread) (attackMode : UInt32)
    : Obeys t.tid (.turn t attackMode) (turn t attackMode) .rest
        (fun _ known => known = .rest) := by
  refine .opThen ⟨fun inside => absurd inside Bool.false_ne_true, rfl⟩ (fun _ later learned => ?_)
  rw [show later = _ from learned]
  refine .opThen ⟨fun _ => rfl, rfl⟩ (fun stop later learned => ?_)
  rw [show later = _ from learned]
  cases stop with
  | true => exact .opThen ⟨fun _ => rfl, rfl, rfl, rfl⟩ (fun _ _ learned => .pure learned)
  | false =>
      refine .bind ((loop_lawful t attackMode).turns rfl false) (fun ret later same => ?_)
      rw [same]
      exact .opThen ⟨fun _ => rfl, rfl, rfl⟩ (fun _ _ learned => .pure learned)

/-- Every call of the system obeys the protocol. -/
theorem body_obeys (raw : Entry → UInt64) {tid : Nat} {call : HostCall}
    (admitted : anySchedule.calls tid call = true)
    : Obeys tid call (call.body raw) .rest (fun _ known => known = .rest) := by
  cases call with
  | insmod m => exact insmod_obeys m
  | rmmod m => exact rmmod_obeys m
  | readProc m attackMode =>
      refine fileOperation_obeys rfl (.bind (procShow_obeys raw attackMode m rfl) ?_)
      exact fun _ _ same => .pure same
  | writeSafetyMem buf count =>
      exact fileOperation_obeys rfl (onSafetyPage_obeys rfl List.mem_cons_self
        (fun page => safetyMemProcWrite_lawful page buf count))
  | writeBadDriver buf count =>
      exact fileOperation_obeys rfl (onSafetyPage_obeys rfl (by decide)
        (fun page => badDriverProcWrite_lawful page buf count))
  | turn t attackMode =>
      rw [show tid = t.tid from of_decide_eq_true admitted]
      exact turn_obeys t attackMode
  | die current data =>
      exact .opThen ⟨fun inside => absurd inside Bool.false_ne_true, trivial⟩
        (fun _ _ learned => .pure learned)
  | dmaFault devName iova =>
      exact .opThen ⟨fun inside => absurd inside Bool.false_ne_true, trivial⟩
        (fun _ _ learned => .pure learned)

end SafetyIsolation.Lifetimes
