import SafetyIsolation.Lifetimes.Advance
import SafetyIsolation.Lifetimes.OwnCode
import SafetyIsolation.Lifetimes.Progress

/-! When the protection flag can be believed, whatever tasks load, use and remove the modules in
whatever order.
-/

namespace SafetyIsolation.Lifetimes

open SafetyIsolation.Interleaving SafetyIsolation.Interleaving.Prog SafetyIsolation.Kernel
  SafetyIsolation.Protection

variable {α β : Type}

-----------------------------------------------------------------------------------------
-- Kernel code
-----------------------------------------------------------------------------------------

/-- The code changes permissions and the flag only with the mutex, and releases it with a flag
that tells the truth.
-/
def Careful (code : Kern α) (grasp : Grasp) : Prop :=
  code.Follows Grasp.permits Grasp.learns (fun _ later => ∃ told, later = .outside told) grasp

theorem Careful.act {grasp : Grasp} {operation : Op} {next : operation.Res → Kern α}
    (permitted : grasp.permits operation)
    (rest : ∀ result later, grasp.learns operation result later → Careful (next result) later)
    : Careful (.act operation next) grasp :=
  ⟨permitted, rest⟩

theorem Careful.ret {told : Option SafetyPage} {value : α}
    : Careful (.ret value : Kern α) (.outside told) :=
  ⟨told, rfl⟩

/-- A quiet operation is always permitted and changes nothing that is known. -/
theorem Grasp.quietly {grasp : Grasp} {operation : Op} (quiet : operation.quiet = true)
    : grasp.permits operation
      ∧ ∀ result later, grasp.learns operation result later → later = grasp := by
  cases grasp <;> cases operation <;>
    first
    | exact ⟨rfl, fun _ _ learned => learned⟩
    | exact ⟨rfl, fun _ _ learned => learned.2⟩
    | cases quiet

theorem Careful.quietly {grasp : Grasp} {operation : Op} {next : operation.Res → Kern α}
    (quiet : operation.quiet = true) (rest : ∀ result, Careful (next result) grasp)
    : Careful (.act operation next) grasp := by
  refine .act (Grasp.quietly quiet).1 (fun result later learned => ?_)
  rw [(Grasp.quietly quiet).2 result later learned]
  exact rest result

/-- Code of quiet operations. -/
theorem Careful.of_quiet {told : Option SafetyPage} {code : Kern α}
    (ops : code.All (fun operation => operation.quiet = true))
    : Careful code (.outside told) :=
  (Follows.of_all (ops.imp (fun _ quiet => Grasp.quietly quiet))).imp
    (fun _ _ same => ⟨told, same⟩)

/-- A critical section, from the lock on. -/
theorem Careful.lock {told : Option SafetyPage} {next : Unit → Kern α}
    (rest : ∀ page perms, (∀ known, told = some known → known = page) → FlagTruthful page perms
      → perms.vmalloc.IsPage → Careful (next ()) (.inside page perms))
    : Careful (.act .mutexLock next) (.outside told) := by
  refine .act trivial (fun _ later entered => ?_)
  obtain ⟨page, perms, same, truthful, isPage, rfl⟩ := entered
  exact rest page perms same truthful isPage

theorem Careful.unlock {page : SafetyPage} {perms : Permissions} {next : Unit → Kern α}
    (truthful : FlagTruthful page perms) (rest : Careful (next ()) (.outside (some page)))
    : Careful (.act .mutexUnlock next) (.inside page perms) := by
  refine .act truthful (fun _ later released => ?_)
  rw [show later = _ from released]
  exact rest

theorem Careful.setMemory {page : SafetyPage} {perms : Permissions} {target : Alias} {write : Bool}
    {next : Int → Kern α}
    (rest : ∀ err, Careful (next err) (.inside page (perms.attempt target write err)))
    : Careful (.act (.setMemory target write) next) (.inside page perms) := by
  refine .act trivial (fun err later changed => ?_)
  rw [show later = _ from changed]
  exact rest err

/-- The permissions of an existing alias change with it. -/
theorem Careful.onVmalloc {page : SafetyPage} {perms : Permissions} {write : Bool}
    {next : Int → Kern α} (isPage : perms.vmalloc.IsPage)
    (rest : ∀ err perms', perms'.vmalloc.IsPage → Careful (next err) (.inside page perms'))
    : Careful (Kernel.onVmalloc page write next) (.inside page perms) := by
  unfold Kernel.onVmalloc
  split
  · exact .setMemory (fun err => rest err _ (attempt_isPage isPage .vmalloc write err))
  · exact rest 0 perms isPage

theorem Careful.setCtxProtected {page : SafetyPage} {perms : Permissions} {on : Bool}
    {next : Unit → Kern α} (rest : Careful (next ()) (.inside page { perms with flag := on }))
    : Careful (.act (.setCtxProtected on) next) (.inside page perms) := by
  refine .act trivial (fun _ later changed => ?_)
  rw [show later = _ from changed]
  exact rest

theorem Careful.walk {page : SafetyPage} {perms : Permissions} {ptr : Option Alias}
    {next : WalkInfo → Kern α}
    (rest : ∀ info, Walked page perms ptr info → Careful (next info) (.inside page perms))
    : Careful (.act (.walkPgtable ptr) next) (.inside page perms) := by
  refine .act rfl (fun info later walked => ?_)
  obtain ⟨walked, rfl⟩ := walked
  exact rest info walked

/-- The verification of the `vmap` alias keeps the flag from lying. -/
theorem flagTruthful_of_walk {page : SafetyPage} {perms : Permissions} {err : Int}
    {mapping : WalkInfo} (isPage : perms.vmalloc.IsPage)
    (walked : Walked page perms page.vmallocPtr mapping)
    : FlagTruthful page { perms with flag := verifiedReadOnly err mapping } := by
  obtain ⟨tid, choice, k, k', rfl, executed⟩ := walked
  intro isSet
  have verified : verifiedReadOnly err mapping = true := isSet
  rw [verifiedReadOnly_walk err isPage executed] at verified
  obtain ⟨vmapped, changed⟩ := Bool.and_eq_true_iff.mp verified
  exact ⟨vmapped, Bool.not_eq_true' _ ▸ (Bool.and_eq_true_iff.mp changed).2⟩

theorem setProtection_careful (page : SafetyPage) (enable : Bool)
    : Careful (safetyMemSetProtection page enable) (.outside (some page)) := by
  have ends (retVirt retVmalloc : Int)
      : Careful (walkAndReturn page retVirt retVmalloc) (.outside (some page)) :=
    .quietly rfl (fun _ => .quietly rfl (fun _ => .ret))
  cases enable with
  | false =>
      rw [safetyMemSetProtection_false]
      refine .lock (fun page' perms same _ isPage => ?_)
      obtain rfl := same page rfl
      refine .quietly rfl (fun _ => .setMemory (fun retVirt => ?_))
      refine .onVmalloc (attempt_isPage isPage _ _ _) (fun retVmalloc perms' _ => ?_)
      refine .setCtxProtected (.unlock (fun isSet => ?_) (ends retVirt retVmalloc))
      cases isSet
  | true =>
      rw [safetyMemSetProtection_true]
      refine .lock (fun page' perms same _ isPage => ?_)
      obtain rfl := same page rfl
      refine .quietly rfl (fun _ => .setMemory (fun retVirt => ?_))
      refine .onVmalloc (attempt_isPage isPage _ _ _) (fun retVmalloc perms' isPage' => ?_)
      refine .quietly rfl (fun _ => .walk (fun mapping walked => ?_))
      exact .setCtxProtected
        (.unlock (flagTruthful_of_walk isPage' walked) (ends retVirt retVmalloc))

theorem Careful.withSafetyBuf {grasp : Grasp} {next : UInt32 → Kern α}
    (rest : ∀ value, Careful (next value) grasp)
    : Careful (Kernel.withSafetyBuf next) grasp := by
  refine .quietly rfl (fun ptr => ?_)
  cases ptr with
  | none => exact rest 0
  | some ptr => exact .quietly rfl rest

theorem Careful.holdWindow {page : SafetyPage} {perms : Permissions}
    (truthful : FlagTruthful page perms)
    : Careful Kernel.holdWindow (.inside page perms) := by
  refine .withSafetyBuf (fun initialVal => .withSafetyBuf (fun currentVal => ?_))
  split
  · exact .quietly rfl (fun _ => .quietly rfl (fun _ => .unlock truthful .ret))
  · exact .unlock truthful .ret

/-- One turn of a kernel thread, as long as it leaves the mutex to its owner. -/
theorem loop_careful {t : KThread} {attackMode : UInt32} {told : Option SafetyPage}
    (kept : t = .rogueThread → attackMode ≠ rogueAttackMutexMetadata)
    : Careful (t.loop attackMode) (.outside told) := by
  cases t with
  | safetyThread =>
      simp only [KThread.loop, safetyThreadAFn_eq]
      refine .act trivial (fun got later learned => ?_)
      cases got with
      | true =>
          obtain ⟨page, perms, -, truthful, -, rfl⟩ := learned
          exact .holdWindow truthful
      | false =>
          rw [show later = _ from learned]
          refine .quietly rfl (fun _ => .quietly rfl (fun _ => .lock ?_))
          exact fun _ _ _ truthful _ => .holdWindow truthful
  | coopThread =>
      simp only [KThread.loop, coopThreadBFn_eq]
      refine .lock (fun page perms _ truthful _ => .quietly rfl (fun ptr => ?_))
      cases ptr with
      | none => exact .unlock truthful .ret
      | some ptr => exact .quietly rfl (fun _ => .unlock truthful .ret)
  | rogueThread =>
      refine .of_quiet ((rogueThreadCFn_ops (kept rfl)).imp (fun operation performed => ?_))
      rcases performed with silent | ⟨target, value, rfl⟩
      · exact Op.quiet_of_silent silent
      · rfl

theorem Careful.bind {code : Kern α} {next : α → Kern β} {grasp : Grasp}
    (first : Careful code grasp) (rest : ∀ value told, Careful (next value) (.outside told))
    : Careful (code >>= next) grasp := by
  refine Follows.bind first (fun value later loose => ?_)
  obtain ⟨told, rfl⟩ := loose
  exact rest value told

theorem safetyMemProcWrite_careful (page : SafetyPage) (buf : UserMemory) (count : Nat)
    : Careful (safetyMemProcWrite page buf count) (.outside (some page)) := by
  unfold safetyMemProcWrite
  split
  · exact .ret
  · split
    · exact .ret
    · dsimp only
      split
      · exact .bind (setProtection_careful page true) (fun _ _ => .ret)
      · split
        · exact .bind (setProtection_careful page false) (fun _ _ => .ret)
        · exact .ret

theorem badDriverProcWrite_careful (page : SafetyPage) (buf : UserMemory) (count : Nat)
    : Careful (badDriverProcWrite page buf count) (.outside (some page)) := by
  unfold badDriverProcWrite
  split
  · exact .ret
  · split
    · exact .ret
    · split
      · exact .ret
      · split
        · exact .ret
        · rename_i mode _
          refine .bind (.of_quiet ((executeAttack_ops page mode).imp ?_)) (fun _ _ => .ret)
          intro operation performed
          rcases performed with silent | rfl
          · exact Op.quiet_of_silent silent
          · rfl

-----------------------------------------------------------------------------------------
-- Calls
-----------------------------------------------------------------------------------------

/-- The code uses the page as it is allowed to. -/
def Minds (code : HostProg α) (access : Access) (post : α → Access → Prop) : Prop :=
  code.Follows Access.permits Access.learns post access

/-- The task knows nothing of the permissions. -/
def Access.Loose (access : Access) : Prop := ∃ told, access = .user (.outside told)

theorem Minds.bind {code : HostProg α} {next : α → HostProg β} {access : Access}
    {middle : α → Access → Prop} {post : β → Access → Prop} (first : Minds code access middle)
    (rest : ∀ value later, middle value later → Minds (next value) later post)
    : Minds (code >>= next) access post :=
  Follows.bind first rest

theorem Minds.pure {value : α} {access : Access} {post : α → Access → Prop}
    (h : post value access)
    : Minds (Pure.pure value) access post :=
  h

theorem Minds.opThen {operation : HostOp} {next : operation.Res → HostProg α} {access : Access}
    {post : α → Access → Prop} (permitted : access.permits operation)
    (rest : ∀ result later, access.learns operation result later → Minds (next result) later post)
    : Minds (op operation >>= next) access post :=
  ⟨permitted, rest⟩

/-- Neither kernel code nor the start of loading or removing a module. -/
def HostOp.outer : HostOp → Bool
  | .kernel _ => false
  | .loadModule _ => false
  | .stopModule _ => false
  | _ => true

/-- Outside of kernel code a task learns no more than which page it is. -/
theorem Access.Loose.learns {access : Access} {operation : HostOp} (loose : access.Loose)
    (outer : operation.outer = true)
    : access.permits operation
      ∧ ∀ result later, access.learns operation result later → later.Loose := by
  obtain ⟨told, rfl⟩ := loose
  cases operation with
  | kernel _ | loadModule _ | stopModule _ => cases outer
  | _ => exact ⟨trivial, fun _ _ learned => ⟨_, learned⟩⟩

/-- Code of such operations, by program induction. -/
theorem Minds.of_outer {code : HostProg α} {access : Access}
    (ops : code.All (fun operation => operation.outer = true)) (loose : access.Loose)
    : Minds code access (fun _ => Access.Loose) := by
  induction code generalizing access with
  | ret value => exact loose
  | act operation next ih =>
      obtain ⟨permitted, learns⟩ := loose.learns ops.1
      exact ⟨permitted, fun result later learned =>
        ih result (ops.2 result) (learns result later learned)⟩

/-- Careful kernel code in the system. -/
theorem Careful.minds {code : Kern α} {grasp : Grasp} (careful : Careful code grasp)
    : Minds (code.interpret implement) (.user grasp) (fun _ => Access.Loose) := by
  refine (Follows.interpret Access.user (fun known operation permitted => ?_) careful).imp ?_
  · have kernel : implement operation = op (.kernel operation) := by
      cases operation with
      | procCreate | removeProcEntry => cases known <;> cases permitted
      | _ => rfl
    rw [kernel]
    exact ⟨permitted, fun result later learned => learned⟩
  · intro value later reached
    obtain ⟨_, ⟨told, rfl⟩, rfl⟩ := reached
    exact ⟨told, rfl⟩

/-- A task leaves what it has been told behind. -/
theorem Minds.leave {operation : HostOp} {access : Access} {value : α} (loose : access.Loose)
    (permitted : access.permits operation)
    (leaves : ∀ told result later, Access.learns (.user (.outside told)) operation result later
      → later = .rest)
    : Minds (op operation >>= fun _ => Pure.pure value) access (fun _ later => later = .rest) := by
  obtain ⟨told, rfl⟩ := loose
  exact .opThen permitted (fun result later learned => .pure (leaves told result later learned))

theorem fileOperation_minds {m : KernelModule} {handler : HostProg Int}
    (inside : Minds handler .rest (fun _ => Access.Loose))
    : Minds (fileOperation m handler) .rest (fun _ later => later = .rest) := by
  refine .opThen trivial (fun entered later learned => ?_)
  rw [show later = _ from learned]
  cases entered with
  | false => exact .pure rfl
  | true =>
      refine .bind inside (fun ret later loose => ?_)
      refine .leave loose ?_ (fun _ _ _ learned => learned)
      exact (loose.learns rfl).1

theorem onSafetyPage_minds {otherwise : Int} {body : SafetyPage → Kern Int}
    (careful : ∀ page, Careful (body page) (.outside (some page)))
    : Minds (onSafetyPage otherwise body) .rest (fun _ => Access.Loose) := by
  refine .opThen trivial (fun found later learned => ?_)
  rw [show later = _ from learned]
  cases found with
  | none => exact .pure ⟨_, rfl⟩
  | some page => exact (careful page).minds

theorem procShow_minds (raw : Entry → UInt64) (attackMode : UInt32) (m : KernelModule)
    : Minds (do return (← procShow raw attackMode m).length : HostProg Int) .rest
        (fun _ => Access.Loose) := by
  refine .of_outer (.bind ?_ (fun _ => .pure)) ⟨none, rfl⟩
  cases m with
  | ctxMonitor | smmuGuard => exact .opThen rfl (fun _ => .pure)
  | safetyMem =>
      refine .opThen rfl (fun page => ?_)
      cases page with
      | none => exact .pure
      | some page =>
          refine .bind (.interpret (fun operation => ?_) _) (fun _ => .pure)
          exact .op rfl
  | badDriver =>
      exact .opThen rfl (fun _ => .opThen rfl (fun _ => .opThen rfl (fun _ => .opThen rfl
        (fun _ => .opThen rfl (fun _ => .pure)))))
  | mutexThreads => exact .pure
  | rogueThread => exact .opThen rfl (fun _ => .opThen rfl (fun _ => .pure))

theorem turn_minds {t : KThread} {attackMode : UInt32}
    (kept : t = .rogueThread → attackMode ≠ rogueAttackMutexMetadata)
    : Minds (turn t attackMode) .rest (fun _ later => later = .rest) := by
  refine .opThen trivial (fun _ later learned => ?_)
  rw [show later = _ from learned]
  refine .opThen trivial (fun stop later learned => ?_)
  rw [show later = _ from learned]
  cases stop with
  | true => exact .leave ⟨none, rfl⟩ trivial (fun _ _ _ learned => learned)
  | false =>
      refine .bind (loop_careful kept).minds (fun ret later loose => ?_)
      exact .leave loose (loose.learns rfl).1 (fun _ _ _ learned => learned)

/-- The functions of the other modules run no kernel code. -/
theorem OwnCode.outer {m : KernelModule} {code : HostProg α} (own : OwnCode m code)
    (other : m ≠ .safetyMem)
    : code.All (fun operation => operation.outer = true) := by
  refine own.imp (fun operation performed => ?_)
  cases operation <;>
    first | rfl | cases performed | exact absurd (of_decide_eq_true performed) other

/-- The end of `insmod` and `rmmod`. -/
theorem Minds.settle {operation : HostOp} {access : Access} {value : α}
    (busy : access.Loose ∨ ∃ fresh, access = .sole fresh) (settles : operation.settles = true)
    : Minds (op operation >>= fun _ => Pure.pure value) access (fun _ later => later = .rest) := by
  rcases busy with ⟨told, rfl⟩ | ⟨fresh, rfl⟩
  · refine .leave ⟨told, rfl⟩ ?_ (fun _ _ _ learned => ?_)
    · cases operation <;> trivial
    · cases operation <;> first | exact learned | cases settles
  · refine .opThen ?_ (fun _ later learned => .pure ?_)
    · cases operation <;> trivial
    · cases operation <;> first | exact learned | cases settles

/-- One operation of the kernel code in `safety_mem_init` or `safety_mem_exit`. -/
theorem Minds.setup {fresh : Bool} {operation : Op} {next : operation.Res → Kern α}
    {post : α → Access → Prop} (kernel : implement operation = op (.kernel operation))
    (rest : ∀ result fresh', (operation ≠ .vunmap → fresh' = fresh)
      → Minds ((next result).interpret implement) (.sole fresh') post)
    : Minds ((act operation next).interpret implement) (.sole fresh) post := by
  rw [interpret, kernel]
  refine Minds.opThen trivial (fun result later learned => ?_)
  rw [show later = _ from learned]
  refine rest result _ (fun other => ?_)
  rw [decide_eq_true other, Bool.and_true]

/-- The rest of such code, when it does not matter any more whether the page is fresh. -/
theorem Minds.setups {fresh : Bool} {code : Kern α}
    (kernel : code.All (fun operation => implement operation = op (.kernel operation)))
    : Minds (code.interpret implement) (.sole fresh)
        (fun _ later => ∃ fresh, later = .sole fresh) := by
  induction code generalizing fresh with
  | ret value => exact ⟨fresh, rfl⟩
  | act operation next ih =>
      exact .setup kernel.1 (fun result fresh' _ => ih result (kernel.2 result))

theorem safetyMemInit_minds
    : Minds safetyMemInit (.sole true) (fun _ later => ∃ fresh, later = .sole fresh) := by
  refine .opThen trivial (fun page later learned => ?_)
  rw [show later = _ from learned]
  cases page with
  | none => exact .pure ⟨true, rfl⟩
  | some page =>
      have keeps {operation : Op} {next : operation.Res → Kern Int}
          {post : Int → Access → Prop} (kernel : implement operation = op (.kernel operation))
          (other : operation ≠ .vunmap)
          (rest : ∀ result, Minds ((next result).interpret implement) (.sole true) post)
          : Minds ((Prog.act operation next).interpret implement) (.sole true) post :=
        .setup kernel (fun result fresh' same => same other ▸ rest result)
      refine keeps rfl (fun same => by cases same) (fun _ => ?_)
      refine keeps rfl (fun same => by cases same) (fun _ => ?_)
      refine keeps rfl (fun same => by cases same) (fun _ => ?_)
      refine keeps rfl (fun same => by cases same) (fun info => ?_)
      refine keeps rfl (fun same => by cases same) (fun _ => ?_)
      refine Minds.opThen rfl (fun created later learned => ?_)
      rw [show later = _ from learned]
      cases created with
      | true => exact ⟨false, rfl⟩
      | false =>
          refine .setups ?_
          by_cases vmapped : page.hasVmalloc = true
          · simp only [vmapped, if_true]
            exact ⟨rfl, fun _ => ⟨rfl, fun _ => trivial⟩⟩
          · simp only [vmapped, Bool.false_eq_true, if_false]
            exact ⟨rfl, fun _ => trivial⟩

theorem safetyMemExit_minds {fresh : Bool}
    : Minds safetyMemExit (.sole fresh) (fun _ later => ∃ fresh, later = .sole fresh) := by
  refine .opThen trivial (fun found later learned => ?_)
  rw [show later = _ from learned]
  cases found with
  | none => exact .pure ⟨fresh, rfl⟩
  | some page =>
      refine Minds.opThen trivial (fun _ later learned => ?_)
      rw [show later = _ from learned]
      refine Minds.opThen trivial (fun _ later learned => ?_)
      rw [show later = _ from learned]
      refine .setups ⟨rfl, fun _ => ⟨rfl, fun isProtected => ?_⟩⟩
      have released : Prog.All (fun operation => implement operation = op (.kernel operation)) (do
          if page.hasVmalloc then Kernel.op .vunmap
          Kernel.op .freePages : Kern Unit) := by
        by_cases vmapped : page.hasVmalloc = true
        · simp only [vmapped, if_true]
          exact ⟨rfl, fun _ => ⟨rfl, fun _ => trivial⟩⟩
        · simp only [vmapped, Bool.false_eq_true, if_false]
          exact ⟨rfl, fun _ => trivial⟩
      cases isProtected with
      | false => exact released
      | true =>
          refine ⟨rfl, fun _ => ?_⟩
          by_cases vmapped : page.hasVmalloc = true
          · simp only [vmapped, if_true] at released ⊢
            exact ⟨rfl, fun _ => released⟩
          · simp only [vmapped, Bool.false_eq_true, if_false] at released ⊢
            exact released

theorem insmod_minds (m : KernelModule)
    : Minds (insmod m) .rest (fun _ later => later = .rest) := by
  refine .opThen trivial (fun loaded later learned => ?_)
  by_cases own : m = .safetyMem
  · subst own
    have isLater : later = if loaded = 0 then .sole true else .rest := learned
    split
    · rename_i failed
      rw [isLater, if_neg failed]
      exact .pure rfl
    · rename_i success
      rw [isLater, if_pos (not_not.mp success)]
      refine .bind safetyMemInit_minds (fun ret later sole => ?_)
      split
      · exact .settle (.inr sole) rfl
      · exact .settle (.inr sole) rfl
  · have isLater : later = .rest := by
      cases m <;> first | exact learned | exact absurd rfl own
    rw [isLater]
    split
    · exact .pure rfl
    · refine .bind (.of_outer ((init_own m).outer own) ⟨none, rfl⟩) (fun ret later loose => ?_)
      split
      · exact .settle (.inl loose) rfl
      · exact .settle (.inl loose) rfl

theorem rmmod_minds (m : KernelModule)
    : Minds (rmmod m) .rest (fun _ later => later = .rest) := by
  refine .opThen trivial (fun stopped later learned => ?_)
  by_cases own : m = .safetyMem
  · subst own
    have isLater : later = if stopped = 0 then .sole false else .rest := learned
    split
    · rename_i failed
      rw [isLater, if_neg failed]
      exact .pure rfl
    · rename_i success
      rw [isLater, if_pos (not_not.mp success)]
      exact .bind safetyMemExit_minds (fun _ later sole => .settle (.inr sole) rfl)
  · have isLater : later = .rest := by
      cases m <;> first | exact learned | exact absurd rfl own
    rw [isLater]
    split
    · exact .pure rfl
    · exact .bind (.of_outer ((exit_own m).outer own) ⟨none, rfl⟩)
        (fun _ later loose => .settle (.inl loose) rfl)

-----------------------------------------------------------------------------------------
-- The system
-----------------------------------------------------------------------------------------

theorem body_minds (raw : Entry → UInt64) {tid : Nat} {call : HostCall}
    (admitted : mutexKept.calls tid call = true)
    : Minds (call.body raw) .rest (fun _ later => later = .rest) := by
  cases call with
  | insmod m => exact insmod_minds m
  | rmmod m => exact rmmod_minds m
  | readProc m attackMode => exact fileOperation_minds (procShow_minds raw attackMode m)
  | writeSafetyMem buf count =>
      exact fileOperation_minds (onSafetyPage_minds (safetyMemProcWrite_careful · buf count))
  | writeBadDriver buf count =>
      exact fileOperation_minds (onSafetyPage_minds (badDriverProcWrite_careful · buf count))
  | turn t attackMode =>
      refine turn_minds (fun rogue => ?_)
      subst rogue
      exact of_decide_eq_true (Bool.and_eq_true_iff.mp admitted).2
  | die current data | dmaFault devName iova =>
      exact .leave ⟨none, rfl⟩ trivial (fun _ _ _ learned => learned)

theorem accessLayer_sound (raw : Entry → UInt64)
    : accessLayer.Sound protocol (system raw) mutexKept where
  bodies _ _ admitted := body_minds raw admitted
  acts lower inv knows permitted done learned _ := by
    obtain ⟨inv', learned', -⟩ := advance lower inv knows permitted done learned
    exact ⟨inv', learned'⟩
  others different lower inv knows permitted done holds theirs := by
    obtain ⟨_, later, learned, -⟩ :=
      (protocol_sound raw).acts lower.inv lower.holds lower.permitted done
    have spares := (advance lower inv knows permitted done learned).spares
    exact theirs.spared lower.inv holds different spares

/-- The page is protected: it has a `vmap` alias, which translates and refuses every store. -/
structure Sealed (s : Host) : Prop where
  aliased : ∃ page, s.safetyPage = some page ∧ page.hasVmalloc = true
  mapped : s.kernel.vmalloc.mapped = true
  refuses : ∀ tid choice value,
    exec tid choice (.kernel (.copyToKernelNofault .vmalloc value)) s = .done (-eFAULT) s

theorem FlagTruthful.isSealed {s : Host} {page : SafetyPage} (found : s.safetyPage = some page)
    (truthful : FlagTruthful page (.of s.kernel)) (isPage : s.kernel.vmalloc.IsPage)
    (isSet : s.kernel.ctxProtected = true)
    : Sealed s := by
  obtain ⟨vmapped, readOnly⟩ := truthful isSet
  refine ⟨⟨page, found, vmapped⟩, isPage.mapped, fun tid choice value => ?_⟩
  have refused : s.kernel.writable .vmalloc = false := readOnly
  simp only [exec, found, Kernel.exec, refused, Bool.false_eq_true, if_false]
  rw [← found]

/-- Tasks may load, use and remove the modules in any order, and every kernel call may fail. While
`safety_mem` can be used and nobody is in a critical section, a set flag means that the page is
protected; and a module that is not loaded has left no flag behind.
-/
theorem flag_truthful_in_system {raw : Entry → UInt64} {word : UInt32} {direct vmalloc : TablePath}
    {last : HostConfig}
    (h : (system raw).Reachable mutexKept (.start (Host.boot word direct vmalloc)) last)
    (isSet : last.world.state.kernel.ctxProtected = true)
    : last.world.state.phase .safetyMem ≠ .absent
      ∧ (Serving last.world.state → last.world.state.kernel.safetyMutex = none
        → Sealed last.world.state) := by
  have fewer : ∀ tid call, mutexKept.calls tid call = true → anySchedule.calls tid call = true :=
    fun _ _ => anySchedule_of_mutexKept
  have sound := (accessLayer_sound raw).upon ((protocol_sound raw).restrict fewer)
  have initially : PageInvariant (Host.boot word direct vmalloc) := by
    have unserved : ¬ Serving (Host.boot word direct vmalloc) := by
      rintro (live | linked | used)
      · cases live
      · cases linked
      · exact used rfl
    exact ⟨fun _ => rfl, fun serves => absurd serves unserved, fun serves => absurd serves unserved⟩
  obtain ⟨known, understood⟩ := sound.reachable ⟨boot_invariant word direct vmalloc, initially⟩
    (fun tid => ⟨holds_rest (fun _ _ => Phase.noConfusion) (fun _ => List.not_mem_nil)
      (fun owns => absurd owns.symm (Option.some_ne_none _)),
      show Accesses tid .rest .rest _ from accesses_rest .rest⟩) h
  obtain ⟨lower, inv⟩ := understood.inv
  refine ⟨fun absent => ?_, fun serving free => ?_⟩
  · exact Bool.false_ne_true ((inv.absent absent).symm.trans isSet)
  · have allocated : last.world.state.kernel.pageAllocated = true := by
      rcases serving with live | served
      · exact congrArg View.page (lower.live _ live).1
      · exact lower.serving served
    obtain ⟨page, found⟩ := Option.isSome_iff_exists.mp (lower.located allocated)
    exact (FlagTruthful.isSealed found (inv.truthful serving free page found) (inv.mapped serving)
      isSet)

/-- Both modules are loaded, and the protection is enabled. -/
def loadThenProtect : List (Event Nat HostCall HostChoice) :=
  [.call 3 (.insmod .ctxMonitor)] ++ List.replicate 4 (.step 3 {}) ++ [.ret 3]
  ++ [.call 3 (.insmod .safetyMem)]
  ++ List.replicate 9 (.step 3 { page := some (samplePage true) }) ++ [.ret 3]
  ++ [.call 4 (.writeSafetyMem (fun index => (Text.utf8 "protect")[index]?) 7)]
  ++ List.replicate 10 (.step 4 {})

theorem loadThenProtect_protected
    : ((system (fun _ => 0)).run mutexKept (.start sampleHost) loadThenProtect).map (fun c =>
        (c.world.state.kernel.ctxProtected, c.world.state.kernel.safetyMutex,
          c.world.state.phase .safetyMem))
      = some (true, none, .live) := by decide

theorem flag_truthful_in_system_protected
    : ∃ last, (system (fun _ => 0)).Reachable mutexKept (.start sampleHost) last
      ∧ last.world.state.kernel.ctxProtected = true ∧ Sealed last.world.state := by
  obtain ⟨last, reached, seen⟩ := Machine.Reachable.observed loadThenProtect _
    loadThenProtect_protected
  obtain ⟨isSet, rest⟩ := Prod.mk.inj seen
  obtain ⟨free, live⟩ := Prod.mk.inj rest
  exact ⟨last, reached, isSet, (flag_truthful_in_system reached isSet).2 (.inl live) free⟩

end SafetyIsolation.Lifetimes
