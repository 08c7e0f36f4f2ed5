import SafetyIsolation.Protection.Commands

/-! The range the monitor watches over loads and unloads of `safety_mem`. Loading sets the
range before the load is certain to succeed, and unloading leaves it as it is.
-/

namespace SafetyIsolation.Monitoring

open SafetyIsolation.Interleaving SafetyIsolation.Kernel SafetyIsolation.Protection

/-- A loaded monitor, with or without `safety_mem` next to it. -/
inductive Host where
  | unloaded (monitor : CtxMonitor)
  | loaded (page : SafetyPage) (k : State)

def Host.monitor : Host → CtxMonitor
  | .unloaded monitor => monitor
  | .loaded _ k => k.monitor

/-- What a task does to `safety_mem` from outside, and what its kernel calls return. -/
inductive Operation where
  | load (tid : Nat) (page : SafetyPage) (created : Bool)
  | unload (tid : Nat) (errs : List Int)
  | setProtection (tid : Nat) (enable : Bool) (errs : Alias → Int)

/-- The result of `proc_create`, the sixth operation of `safety_mem_init`. -/
def initChoices (created : Bool) : List Choice :=
  [{}, {}, {}, {}, {}, { err := if created then 0 else -eNOMEM }]

/-- One operation. A module is not loaded twice, and what is not loaded can be neither unloaded
nor called.
-/
def Host.handle : Host → Operation → Host
  | .unloaded monitor, .load tid page created =>
      match (safetyMemInit page).runAlone (exec page tid) (initChoices created)
          (State.zeroed page monitor) with
      | .done ret k => if ret = 0 then .loaded page k else .unloaded k.monitor
      | _ => .unloaded monitor
  | .loaded page k, .unload tid errs =>
      match (safetyMemExit page).runAlone (exec page tid) (errs.map (fun err => { err })) k with
      | .done _ k' => .unloaded k'.monitor
      | _ => .loaded page k
  | .loaded page k, .setProtection tid enable errs =>
      match (safetyMemSetProtection page enable).runAlone (exec page tid)
          (settingChoices errs) k with
      | .done _ k' => .loaded page k'
      | _ => .loaded page k
  | host, _ => host

def Host.run (host : Host) (operations : List Operation) : Host :=
  operations.foldl Host.handle host

/-- The monitored range is empty or exactly the page of the loaded module. -/
def Host.RangeLive : Host → Prop
  | .unloaded monitor => monitor.protectedRangeStart = 0 ∧ monitor.protectedRangeEnd = 0
  | .loaded page k =>
      k.monitor.protectedRangeStart = 0 ∧ k.monitor.protectedRangeEnd = 0
      ∨ k.monitor.protectedRangeStart = page.virtAddr
        ∧ k.monitor.protectedRangeEnd = page.virtAddr + pageSize

/-- What the operations so far asked for: nothing is loaded, or a module whose protection was
last switched on or off; a module starts out watched.
-/
abbrev Asked : Type := Option Bool

def Asked.next : Asked → Operation → Asked
  | none, .load _ _ created => if created then some true else none
  | some _, .unload _ _ => none
  | some _, .setProtection _ enable _ => some enable
  | asked, _ => asked

/-- A load creates its control file, and a module is unloaded after its protection was switched
off.
-/
def Asked.Admits : Asked → Operation → Prop
  | none, .load _ _ created => created = true
  | some on, .unload _ _ => on = false
  | _, _ => True

/-- Every load creates its control file, and every module is unloaded after its protection was
switched off.
-/
def Tidy : Asked → List Operation → Prop
  | _, [] => True
  | asked, operation :: later => asked.Admits operation ∧ Tidy (asked.next operation) later

/-- Initialization sets the range whether or not it succeeds. -/
theorem safetyMemInit_runAlone (page : SafetyPage) (tid : Nat) (created : Bool)
    (monitor : CtxMonitor)
    : ∃ k,
        (safetyMemInit page).runAlone (exec page tid) (initChoices created)
            (State.zeroed page monitor)
          = .done (if created then 0 else -eNOMEM) k
        ∧ k.monitor = monitor.setProtectedRange page.virtAddr (page.virtAddr + pageSize)
        ∧ (created = true → k.safetyMutex = none ∧ k.vmalloc.IsPage) := by
  have writable : ∀ k' : State, k'.direct = page.directPath
      → k'.writable .direct = true := by
    intro k' same
    simp [State.writable, State.path, same, page.direct_writable]
  simp only [safetyMemInit, ctxMonitorSetProtectedRange, op, Prog.perform, Prog.monad_bind,
    Prog.act_bind, Prog.ret_bind, Prog.monad_pure, Prog.runAlone, exec, initChoices]
  rw [writable _ rfl]
  cases created with
  | true =>
      simp only [if_true, List.tail_cons, List.headD_cons, Prog.runAlone]
      exact ⟨_, rfl, rfl, fun _ => ⟨rfl, page.vmalloc_page⟩⟩
  | false =>
      have failed : ¬(-eNOMEM = 0) := by decide
      simp only [if_true, Bool.false_eq_true, if_false, List.tail_cons, List.headD_cons, failed]
      cases exists_ : page.hasVmalloc with
      | false => exact ⟨_, rfl, rfl, fun created => by cases created⟩
      | true => exact ⟨_, rfl, rfl, fun created => by cases created⟩

/-- Operations that always complete and leave the monitor alone. -/
def unmonitored : Op → Bool
  | .removeProcEntry => true
  | .setSafetyBufPtr _ => true
  | .readCtxProtected => true
  | .setMemory _ _ => true
  | .vunmap => true
  | .freePages => true
  | _ => false

theorem exec_unmonitored {page : SafetyPage} {tid : Nat} {operation : Op}
    (h : unmonitored operation = true) (choice : Choice) (k : State)
    : ∃ result k', exec page tid choice operation k = .done result k'
        ∧ k'.monitor = k.monitor := by
  cases operation with
  | removeProcEntry | setSafetyBufPtr _ | readCtxProtected | vunmap | freePages =>
      exact ⟨_, _, rfl, rfl⟩
  | setMemory target write =>
      refine ⟨_, _, exec_setMemory page tid choice target write k, ?_⟩
      unfold State.attempt
      split
      · cases target <;> rfl
      · rfl
  | _ => cases h

/-- Exit always completes and does not touch the monitor. -/
theorem safetyMemExit_runAlone (page : SafetyPage) (tid : Nat) (choices : List Choice)
    (k : State)
    : ∃ k', (safetyMemExit page).runAlone (exec page tid) choices k = .done () k'
        ∧ k'.monitor = k.monitor := by
  have ops : (safetyMemExit page).All (fun operation => unmonitored operation = true) := by
    cases exists_ : page.hasVmalloc <;>
      simp [safetyMemExit, safetyMemIsProtected, setMemoryRw, op, Prog.perform, Prog.All,
        unmonitored, exists_]
  have always : (safetyMemExit page).Always (exec page tid) (fun _ => True)
      (fun _ later => later.monitor = k.monitor) k := by
    refine .of_all (ops.imp ?_) rfl
    intro operation leaves choice s _ same
    obtain ⟨result, s', executed, kept⟩ := exec_unmonitored leaves choice s
    exact ⟨result, s', executed, kept.trans same⟩
  have listed : ∀ choice ∈ choices, True := fun _ _ => trivial
  obtain ⟨_, k', ran, same⟩ := always.run listed trivial
  exact ⟨k', ran, same⟩

/-- What is loaded is what was asked for, with the range that goes with it. -/
def Agrees : Asked → Host → Prop
  | none, .unloaded monitor => monitor.protectedRangeStart = 0 ∧ monitor.protectedRangeEnd = 0
  | some on, .loaded page k =>
      k.safetyMutex = none ∧ k.vmalloc.IsPage
      ∧ k.monitor.protectedRangeStart = (if on then page.virtAddr else 0)
      ∧ k.monitor.protectedRangeEnd = (if on then page.virtAddr + pageSize else 0)
  | _, _ => False

theorem Agrees.rangeLive {asked : Asked} {host : Host} (h : Agrees asked host)
    : host.RangeLive := by
  cases asked with
  | none =>
      cases host with
      | unloaded monitor => exact h
      | loaded page k => exact h.elim
  | some on =>
      cases host with
      | unloaded monitor => exact h.elim
      | loaded page k =>
          obtain ⟨_, _, start, stop⟩ := h
          cases on with
          | false => exact .inl ⟨start, stop⟩
          | true => exact .inr ⟨start, stop⟩

/-- A range that was set does not name a live page once nothing is loaded. -/
theorem not_rangeLive_of_start (page : SafetyPage) {monitor : CtxMonitor}
    (h : monitor.protectedRangeStart = page.virtAddr)
    : ¬ (Host.unloaded monitor).RangeLive := by
  intro live
  exact page.virt_nonnull (h.symm.trans live.1)

theorem agrees_load (monitor : CtxMonitor) (tid : Nat) (page : SafetyPage) (created : Bool)
    : if created then
        Agrees (some true) ((Host.unloaded monitor).handle (.load tid page created))
      else ¬ ((Host.unloaded monitor).handle (.load tid page created)).RangeLive := by
  obtain ⟨k, ran, range, facts⟩ := safetyMemInit_runAlone page tid created monitor
  cases created with
  | true =>
      obtain ⟨free, isPage⟩ := facts rfl
      simp only [if_true] at ran ⊢
      simp only [Host.handle, ran, if_true]
      exact ⟨free, isPage, by rw [range]; rfl, by rw [range]; rfl⟩
  | false =>
      have failed : ¬(-eNOMEM = 0) := by decide
      simp only [Bool.false_eq_true, if_false] at ran ⊢
      simp only [Host.handle, ran, failed, if_false]
      exact not_rangeLive_of_start page (by rw [range]; rfl)

theorem Agrees.unload {on : Bool} {page : SafetyPage} {k : State}
    (h : Agrees (some on) (.loaded page k)) (tid : Nat) (errs : List Int)
    : if on then ¬ ((Host.loaded page k).handle (.unload tid errs)).RangeLive
      else Agrees none ((Host.loaded page k).handle (.unload tid errs)) := by
  obtain ⟨_, _, start, stop⟩ := h
  obtain ⟨k', ran, same⟩ :=
    safetyMemExit_runAlone page tid (errs.map (fun err => { err })) k
  simp only [Host.handle, ran]
  cases on with
  | true =>
      simp only [if_true] at start ⊢
      exact not_rangeLive_of_start page (by rw [same, start])
  | false =>
      simp only [Bool.false_eq_true, if_false] at start stop ⊢
      exact ⟨by rw [same, start], by rw [same, stop]⟩

theorem Agrees.setProtection {on : Bool} {page : SafetyPage} {k : State}
    (h : Agrees (some on) (.loaded page k)) (tid : Nat) (enable : Bool) (errs : Alias → Int)
    : Agrees (some enable) ((Host.loaded page k).handle (.setProtection tid enable errs)) := by
  obtain ⟨free, isPage, _, _⟩ := h
  obtain ⟨errVirt, errVmalloc, k', ran, done, _⟩ :=
    @safetyMemSetProtection_runAlone page k tid enable (settingChoices errs) free isPage
  simp only [Host.handle, ran]
  refine ⟨done.mutex, ?_, ?_, ?_⟩
  · rw [done.vmalloc]
    split
    · exact isPage.setWrite _
    · exact isPage
  · rw [done.monitor]
    cases enable <;> rfl
  · rw [done.monitor]
    cases enable <;> rfl

/-- One operation keeps the agreement exactly when it is admitted. -/
theorem Agrees.handle {asked : Asked} {host : Host} (h : Agrees asked host)
    (operation : Operation)
    : (asked.Admits operation → Agrees (asked.next operation) (host.handle operation))
      ∧ (¬ asked.Admits operation → ¬ (host.handle operation).RangeLive) := by
  cases asked with
  | none =>
      cases host with
      | loaded page k => exact h.elim
      | unloaded monitor =>
          cases operation with
          | load tid page created =>
              have loaded := agrees_load monitor tid page created
              cases created with
              | true => exact ⟨fun _ => loaded, fun refused => absurd rfl refused⟩
              | false =>
                  exact ⟨fun admitted => (Bool.false_ne_true admitted).elim, fun _ => loaded⟩
          | unload tid errs => exact ⟨fun _ => h, fun refused => absurd trivial refused⟩
          | setProtection tid enable errs =>
              exact ⟨fun _ => h, fun refused => absurd trivial refused⟩
  | some on =>
      cases host with
      | unloaded monitor => exact h.elim
      | loaded page k =>
          cases operation with
          | load tid page created => exact ⟨fun _ => h, fun refused => absurd trivial refused⟩
          | unload tid errs =>
              have unloaded := h.unload tid errs
              cases on with
              | true =>
                  exact ⟨fun admitted => (Bool.false_ne_true admitted.symm).elim,
                    fun _ => unloaded⟩
              | false => exact ⟨fun _ => unloaded, fun refused => absurd rfl refused⟩
          | setProtection tid enable errs =>
              exact ⟨fun _ => h.setProtection tid enable errs,
                fun refused => absurd trivial refused⟩

/-- The range is live between all operations exactly when each of them is admitted, by
induction over the operations.
-/
theorem Agrees.rangeLive_iff_tidy {asked : Asked} {host : Host} (h : Agrees asked host)
    (operations : List Operation)
    : (∀ earlier, earlier <+: operations → (host.run earlier).RangeLive)
      ↔ Tidy asked operations := by
  induction operations generalizing asked host with
  | nil =>
      refine ⟨fun _ => trivial, fun _ earlier front => ?_⟩
      rw [List.prefix_nil.mp front]
      exact h.rangeLive
  | cons operation later ih =>
      obtain ⟨kept, lost⟩ := h.handle operation
      constructor
      · intro live
        have admitted : asked.Admits operation := by
          by_contra refused
          exact lost refused (live [operation] ⟨later, rfl⟩)
        refine ⟨admitted, (ih (kept admitted)).mp (fun earlier front => ?_)⟩
        exact live (operation :: earlier) (List.cons_prefix_cons.mpr ⟨rfl, front⟩)
      · intro tidy earlier front
        cases earlier with
        | nil => exact h.rangeLive
        | cons first rest =>
            obtain ⟨rfl, within⟩ := List.cons_prefix_cons.mp front
            exact (ih (kept tidy.1)).mpr tidy.2 rest within

/-- From a freshly loaded monitor on. -/
theorem range_names_live_page_iff (operations : List Operation)
    : (∀ earlier, earlier <+: operations
        → ((Host.unloaded CtxMonitor.zeroed).run earlier).RangeLive)
      ↔ Tidy none operations :=
  Agrees.rangeLive_iff_tidy (show Agrees none (.unloaded CtxMonitor.zeroed) from ⟨rfl, rfl⟩)
    operations

/-- A load that fails and a load with an unload leave a range behind that names a page which
was freed.
-/
theorem range_left_behind
    : ¬ ((Host.unloaded CtxMonitor.zeroed).run [.load 0 (samplePage true) false]).RangeLive
      ∧ ¬ ((Host.unloaded CtxMonitor.zeroed).run
          [.load 0 (samplePage true) true, .unload 0 []]).RangeLive := by
  constructor
  · exact agrees_load CtxMonitor.zeroed 0 (samplePage true) false
  · have loaded : Agrees (some true) ((Host.unloaded CtxMonitor.zeroed).handle
        (.load 0 (samplePage true) true)) := agrees_load CtxMonitor.zeroed 0 (samplePage true) true
    exact (loaded.handle (.unload 0 [])).2 (fun admitted => Bool.false_ne_true admitted.symm)

end SafetyIsolation.Monitoring
