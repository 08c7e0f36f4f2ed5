import SafetyIsolation.Kernel.Frame

/-! The state `safety_mem_init` leaves behind when it succeeds, and one page to load. -/

namespace SafetyIsolation.Kernel

open SafetyIsolation.Interleaving

/-- `safety_mem` has just been loaded next to a running monitor: its initialization returned
zero.
-/
def Loaded (page : SafetyPage) (k : State) : Prop :=
  ∃ monitor tid choices,
    CtxMonitor.Running monitor
    ∧ (safetyMemInit page).runAlone (exec page tid) choices (State.zeroed page monitor)
        = .done 0 k

/-- Everything later code depends on after a successful load. -/
structure Loaded.Facts (page : SafetyPage) (k : State) : Prop where
  word : k.word = safetySentinel
  permissions : Permissions.of k = ⟨false, page.directPath, page.vmallocPath⟩
  mutex : k.safetyMutex = none
  bufPtr : k.safetyBufPtr = some .direct
  violations : k.violationCounter = 0
  running : k.monitor.Running
  attacks : k.attack.attackCount = 0
  metadataAttacks : k.metadataAttackCounter = 0

/-- The state after a successful initialization, by running it. -/
theorem Loaded.facts {page : SafetyPage} {k : State} (h : Loaded page k)
    : Loaded.Facts page k := by
  obtain ⟨monitor, tid, choices, running, ran⟩ := h
  have writable : ∀ k' : State, k'.direct = page.directPath
      → k'.writable .direct = true := by
    intro k' same
    simp [State.writable, State.path, same, page.direct_writable]
  simp only [safetyMemInit, ctxMonitorSetProtectedRange, op, Prog.perform, Prog.monad_bind,
    Prog.act_bind, Prog.ret_bind, Prog.monad_pure, Prog.runAlone, exec] at ran
  rw [writable _ rfl] at ran
  by_cases created : (choices.tail.tail.tail.tail.tail.headD default).err = 0
  · simp only [created, if_true, Prog.runAlone] at ran
    injection ran with _ same
    subst same
    exact ⟨rfl, rfl, rfl, rfl, rfl, running.setProtectedRange _ _, rfl, rfl⟩
  · -- The clean-up path returns an error, so it is not a successful load.
    simp only [created, if_true, if_false, Bool.false_eq_true] at ran
    cases exists_ : page.hasVmalloc <;>
      simp [exists_, Prog.runAlone, exec, eNOMEM] at ran

theorem Loaded.shaped {page : SafetyPage} {k : State} (h : Loaded page k)
    : (Permissions.of k).Shaped := by
  rw [h.facts.permissions]
  refine ⟨?_, page.vmalloc_page⟩
  have writable := page.direct_writable
  simp only [TablePath.writable, TablePath.mapped, Option.any_eq_true] at writable ⊢
  obtain ⟨leaf, found, allowed⟩ := writable
  exact ⟨leaf, found, (Bool.and_eq_true_iff.mp allowed).1⟩

/-- The state after a load in which every kernel call succeeds. -/
def freshlyLoaded (page : SafetyPage) : State :=
  let k := State.zeroed page CtxMonitor.zeroed
  {
    k with
    word := safetySentinel
    safetyBufPtr := some .direct
    initialMapping := safetyMemWalkPgtable page.virtAddr page.directPath
    procStatus := true
    monitor := k.monitor.setProtectedRange page.virtAddr (page.virtAddr + pageSize)
  }

theorem freshlyLoaded_loaded (page : SafetyPage) : Loaded page (freshlyLoaded page) := by
  refine ⟨CtxMonitor.zeroed, 0, [], .load, ?_⟩
  have succeeds : (default : Choice).err = 0 := rfl
  simp [succeeds, safetyMemInit, ctxMonitorSetProtectedRange, op, Prog.perform, Prog.runAlone,
    exec, State.writable, State.path, State.zeroed, page.direct_writable, freshlyLoaded,
    SafetyPage.addrOf]

/-- A 4 KiB mapping of one frame, writable as after allocation. -/
def samplePath : TablePath :=
  ⟨.table, .table, .table, .table, .page { pfn := 0x40010, write := true, present := true }⟩

/-- A page at fixed addresses, with or without its `vmap` alias. -/
def samplePage (vmapped : Bool) : SafetyPage where
  virtAddr := 0xffff000000010000
  physAddr := 0x40010000
  vmallocAddr := if vmapped then some 0xffff800008000000 else none
  directPath := samplePath
  vmallocPath := samplePath
  nullPath := ⟨.none, .none, .none, .none, .none⟩
  virt_nonnull := by decide
  virt_below_top := by decide
  vmalloc_below_top := by cases vmapped <;> simp
  direct_writable := by decide
  vmalloc_page := ⟨⟨rfl, rfl, rfl, rfl⟩, _, rfl, rfl⟩
  vmalloc_writable := by decide
  null_not_valid := by decide

/-- One call from its invocation to its return, with the return codes its operations get.
-/
def wholeCall (tid : Nat) (call : Call) (errs : List Int) : List (Event Nat Call Choice) :=
  .call tid call :: errs.map (fun err => .step tid { err }) ++ [.ret tid]

/-- When the only call made so far has returned, every thread is idle. -/
theorem idle_after_wholeCall {page : SafetyPage} {p : KernelPolicy} {k : State}
    {c : KernelConfig} {tid : Nat} {call : Call} {errs : List Int}
    (ran : (machine page).run p (Config.start k) (wholeCall tid call errs) = some c)
    (returned : c.threads tid = .idle)
    : ∀ caller, c.threads caller = .idle := by
  intro caller
  by_cases same : caller = tid
  · rw [same, returned]
  · refine Machine.run_untouched ran (fun event member => ?_)
    have own : event.tid = tid := by
      simp only [wholeCall, List.cons_append, List.mem_cons, List.mem_append, List.mem_map,
        List.not_mem_nil, or_false] at member
      rcases member with rfl | ⟨err, _, rfl⟩ | rfl <;> rfl
    rwa [own]

end SafetyIsolation.Kernel
