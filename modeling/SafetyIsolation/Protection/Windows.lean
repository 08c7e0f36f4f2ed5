import SafetyIsolation.Kernel.Sequential
import SafetyIsolation.Protection.Sections

/-! The windows authorized writes leave open.
An authorized write makes both aliases writable around its store. Attackers do not take the
mutex, so an attack succeeds exactly when it falls into such a window on the alias it uses.
-/

namespace SafetyIsolation.Protection

open SafetyIsolation.Interleaving SafetyIsolation.Kernel

/-- Who made each alias writable and has not closed it again, and who holds the mutex. -/
structure Windows where
  direct : Option (Nat × Call)
  vmalloc : Option (Nat × Call)
  holder : Option (Nat × Call)

namespace Windows

def closed : Windows := ⟨none, none, none⟩

def on (windows : Windows) : Alias → Option (Nat × Call)
  | .direct => windows.direct
  | .vmalloc => windows.vmalloc

def after (windows : Windows) : KernelLabel → Windows
  | .act tid call .mutexLock (some _) => { windows with holder := some (tid, call) }
  | .act _ _ .mutexUnlock _ => { windows with holder := none }
  | .act tid call (.setMemory .direct write) (some _) =>
      { windows with direct := if write then some (tid, call) else none }
  | .act tid call (.setMemory .vmalloc write) (some _) =>
      { windows with vmalloc := if write then some (tid, call) else none }
  | _ => windows

theorem after_setMemory (windows : Windows) (tid : Nat) (call : Call) (target : Alias)
    (write : Bool) (result : Int)
    : (windows.after (.act tid call (.setMemory target write) (some result))).holder
        = windows.holder
      ∧ ∀ other,
          (windows.after (.act tid call (.setMemory target write) (some result))).on other
          = if other = target then (if write then some (tid, call) else none)
            else windows.on other := by
  refine ⟨by cases target <;> rfl, ?_⟩
  intro other
  cases target <;> cases other <;> rfl

end Windows

/-- The windows open at the end of a history. -/
def windowsAfter (history : List KernelLabel) : Windows :=
  history.foldl Windows.after Windows.closed

@[simp] theorem windowsAfter_push (history : List KernelLabel) (label : KernelLabel)
    : windowsAfter (history ++ [label]) = (windowsAfter history).after label := by
  simp [windowsAfter]

/-- The value a step committed to the safety word. -/
def stored : KernelLabel → Option UInt32
  | .act _ _ (.store _ value) (some _) => some value
  | .act _ _ (.copyToKernelNofault _ value) (some result) =>
      if result = 0 then some value else none
  | _ => none

/-- The safety word according to a history: the last value committed, or the first one. -/
def lastStored (first : UInt32) (history : List KernelLabel) : UInt32 :=
  (history.filterMap stored).getLastD first

theorem lastStored_push (first : UInt32) (history : List KernelLabel) (label : KernelLabel)
    : lastStored first (history ++ [label])
      = (stored label).getD (lastStored first history) := by
  unfold lastStored
  rw [List.filterMap_append]
  cases h : stored label <;> simp [h]

/-- A committed store is the store of an authorized write, or an attack through an alias
that an authorized write, still holding the mutex, has made writable.
-/
def InWindow (page : SafetyPage) (earlier : List KernelLabel) (label : KernelLabel) : Prop :=
  ∀ value, stored label = some value →
    (∃ tid, label = .act tid (.safeWrite value) (.store .direct value) (some ()))
    ∨ (∃ tid mode writer val,
        label = .act tid (.attack mode)
          (.copyToKernelNofault (mode.target page) mode.value) (some 0)
        ∧ value = mode.value
        ∧ (windowsAfter earlier).on (mode.target page) = some (writer, .safeWrite val)
        ∧ (windowsAfter earlier).holder = some (writer, .safeWrite val))

/-- Aliases are writable exactly inside windows, and windows belong to an authorized write
that holds the mutex.
-/
structure WindowInv (page : SafetyPage) (first : UInt32) (w : KernelWorld) : Prop where
  shaped : (Permissions.of w.state).Shaped
  isSet : w.state.ctxProtected = true
  holder : (windowsAfter w.history).holder.map Prod.fst = w.state.safetyMutex
  writable : ∀ target, w.state.writable target = ((windowsAfter w.history).on target).isSome
  authorized
    : ∀ target entry, (windowsAfter w.history).on target = some entry
        → (windowsAfter w.history).holder = some entry ∧ ∃ val, entry.2 = .safeWrite val
  word : w.state.word = lastStored first w.history
  inWindow : Throughout (InWindow page) w.history

def windows (page : SafetyPage) (first : UInt32)
    : LockDiscipline State Nat Call Int Op Op.Res Windows Unit where
  owner := State.safetyMutex
  held w := windowsAfter w.history
  own _ _ := ()
  inv := WindowInv page first
  rest _ := True
  asserts _ _ _ _ := True

variable {page : SafetyPage} {first : UInt32} {w : KernelWorld} {k' : State}
  {label : KernelLabel}

/-- Steps that leave mutex, permissions and windows alone keep the invariant, provided their
store, if they make one, is accounted for.
-/
theorem WindowInv.keeps (inv : WindowInv page first w)
    (mutex : k'.safetyMutex = w.state.safetyMutex)
    (permissions : Permissions.of k' = Permissions.of w.state)
    (neutral : (windowsAfter w.history).after label = windowsAfter w.history)
    (word : k'.word = (stored label).getD w.state.word)
    (inWindow : InWindow page w.history label)
    : WindowInv page first (w.push k' label) := by
  have flag := congrArg Permissions.flag permissions
  refine ⟨permissions ▸ inv.shaped, flag.trans inv.isSet, ?_, ?_, ?_, ?_,
    inv.inWindow.push inWindow⟩
  · simpa [neutral, mutex] using inv.holder
  · intro target
    simpa [neutral, Permissions.writable_eq permissions] using inv.writable target
  · simpa [neutral] using inv.authorized
  · simpa [lastStored_push, ← inv.word] using word

/-- A step that records nothing about windows or stores. -/
theorem WindowInv.idle (inv : WindowInv page first w)
    (mutex : k'.safetyMutex = w.state.safetyMutex)
    (permissions : Permissions.of k' = Permissions.of w.state)
    (word : k'.word = w.state.word)
    (neutral : (windowsAfter w.history).after label = windowsAfter w.history)
    (unstored : stored label = none)
    : WindowInv page first (w.push k' label) := by
  refine inv.keeps mutex permissions neutral (by simp [unstored, word]) ?_
  intro value committed
  simp [unstored] at committed

/-- The mutex changes hands while no window is open. -/
theorem WindowInv.relock (inv : WindowInv page first w)
    (unopened : ∀ target, (windowsAfter w.history).on target = none)
    (permissions : Permissions.of k' = Permissions.of w.state)
    (word : k'.word = w.state.word)
    (unchanged : ∀ target, ((windowsAfter w.history).after label).on target = none)
    (holder : ((windowsAfter w.history).after label).holder.map Prod.fst = k'.safetyMutex)
    (unstored : stored label = none)
    : WindowInv page first (w.push k' label) := by
  have flag := congrArg Permissions.flag permissions
  refine ⟨permissions ▸ inv.shaped, flag.trans inv.isSet, by simpa using holder, ?_, ?_, ?_,
    inv.inWindow.push ?_⟩
  · intro target
    have writable := inv.writable target
    rw [unopened target] at writable
    simpa [unchanged, Permissions.writable_eq permissions] using writable
  · intro target entry opened
    simp [unchanged] at opened
  · simpa [lastStored_push, unstored, word] using inv.word
  · intro value committed
    simp [unstored] at committed

theorem after_silent (windows : Windows) {tid : Nat} {call : Call} {operation : Op}
    {result : Option operation.Res} (silent : operation.silent = true)
    : windows.after (.act tid call operation result) = windows
      ∧ stored (.act tid call operation result) = none := by
  cases operation <;> first | exact ⟨rfl, rfl⟩ | cases silent

/-- A trapped store records nothing. -/
theorem WindowInv.fault {tid : Nat} {call : Call} {choice : Choice} {operation : Op}
    (inv : WindowInv page first w)
    (trapped : exec page tid choice operation w.state = .fault)
    : WindowInv page first (w.push w.state (.act tid call operation none)) := by
  obtain ⟨target, value, rfl⟩ := exec_fault trapped
  exact inv.idle rfl rfl rfl rfl rfl

variable {calls : Call → Bool} {tid : Nat} {call : Call} {α : Type} {open_ : Windows}
  {post : α → KernelWorld → Prop}

/-- An operation inside a critical section that keeps the mutex. -/
theorem window_op {operation : Op} {next : operation.Res → Kern α}
    (step
      : ∀ w choice result k', w.state.safetyMutex = some tid → windowsAfter w.history = open_
          → WindowInv page first w → choice.err = 0
          → exec page tid choice operation w.state = .done result k'
          → k'.safetyMutex = some tid
            ∧ WindowInv page first (w.push k' (.act tid call operation (some result)))
            ∧ (windows page first).Inside (machine page) (faultless calls) tid call
                (next result) (open_.after (.act tid call operation (some result))) () post)
    : (windows page first).Inside (machine page) (faultless calls) tid call
        (.act operation next) open_ () post := by
  apply LockDiscipline.Inside.act
  intro w owns openIs _ inv
  refine ⟨trivial, ?_⟩
  intro choice admitted
  have succeeded : choice.err = 0 := by simpa [faultless] using admitted
  cases executed : exec page tid choice operation w.state with
  | done result k' =>
      obtain ⟨keeps, inv', continues⟩ :=
        step w choice result k' owns openIs inv succeeded executed
      have held : (windows page first).held (w.push k' (.act tid call operation (some result)))
          = open_.after (.act tid call operation (some result)) := by
        simp only [windows, World.push_history, windowsAfter_push]
        rw [← openIs]
        rfl
      simp only [machine, executed]
      exact ⟨inv', fun _ _ => trivial, Or.inl ⟨keeps, held ▸ continues⟩⟩
  | wait => simp [machine, executed]
  | fault =>
      simp only [machine, executed]
      exact ⟨inv.fault executed, fun _ _ => trivial⟩

/-- A silent operation inside a critical section. -/
theorem window_silent {operation : Op} {next : operation.Res → Kern α}
    (silent : operation.silent = true)
    (continues
      : ∀ w choice result k', windowsAfter w.history = open_ → WindowInv page first w
          → exec page tid choice operation w.state = .done result k'
          → (windows page first).Inside (machine page) (faultless calls) tid call
              (next result) open_ () post)
    : (windows page first).Inside (machine page) (faultless calls) tid call
        (.act operation next) open_ () post := by
  apply window_op
  intro w choice result k' owns openIs inv _ executed
  obtain ⟨mutex, permissions, _⟩ := exec_quiet (Op.quiet_of_silent silent) executed
  have word := exec_silent_word silent executed
  obtain ⟨neutral, unstored⟩ := after_silent open_ silent
  refine ⟨mutex.trans owns, inv.idle mutex permissions word (openIs ▸ neutral) unstored, ?_⟩
  rw [neutral]
  exact continues w choice result k' openIs inv executed

/-- A permission change inside a critical section; only an authorized write opens a window.
-/
theorem window_setMemory {target : Alias} {write : Bool} {next : Int → Kern α}
    (holds : open_.holder = some (tid, call))
    (mayOpen : write = true → ∃ val, call = .safeWrite val)
    (continues
      : (windows page first).Inside (machine page) (faultless calls) tid call (next 0)
          (open_.after (.act tid call (.setMemory target write) (some 0))) () post)
    : (windows page first).Inside (machine page) (faultless calls) tid call
        (.act (.setMemory target write) next) open_ () post := by
  apply window_op
  intro w choice result k' owns openIs inv succeeded executed
  simp only [exec, succeeded, if_true] at executed
  cases executed
  refine ⟨by simpa using owns, ?_, continues⟩
  obtain ⟨holder, on⟩ :=
    (windowsAfter w.history).after_setMemory tid call target write 0
  have unstored : stored (.act tid call (.setMemory target write) (some (0 : Int))) = none := rfl
  refine ⟨?_, by simpa using inv.isSet, ?_, ?_, ?_, ?_, inv.inWindow.push ?_⟩
  · rw [World.push_state, Permissions.of_setWrite]
    exact inv.shaped.attempt target write 0
  · simpa [holder] using inv.holder
  · intro other
    simp only [World.push_state, World.push_history, windowsAfter_push, on,
      inv.shaped.writable_setWrite target other write]
    by_cases same : other = target
    · cases write <;> simp [same]
    · simpa [same] using inv.writable other
  · intro other entry opened
    simp only [World.push_history, windowsAfter_push, on, holder] at opened ⊢
    by_cases same : other = target
    · rw [if_pos same] at opened
      split at opened
      · rename_i opens
        cases opened
        exact ⟨openIs ▸ holds, mayOpen opens⟩
      · cases opened
    · rw [if_neg same] at opened
      exact inv.authorized other entry opened
  · simpa [lastStored_push, unstored] using inv.word
  · intro value committed
    simp [unstored] at committed

/-- The store of an authorized write. -/
theorem window_store {val : UInt32} {next : Unit → Kern α}
    (continues
      : (windows page first).Inside (machine page) (faultless calls) tid (.safeWrite val)
          (next ()) open_ () post)
    : (windows page first).Inside (machine page) (faultless calls) tid (.safeWrite val)
        (.act (.store .direct val) next) open_ () post := by
  apply window_op
  intro w choice result k' owns _ inv _ executed
  simp only [exec] at executed
  split at executed
  · cases executed
    refine ⟨owns, inv.keeps rfl rfl rfl rfl ?_, continues⟩
    intro value committed
    cases committed
    exact Or.inl ⟨tid, rfl⟩
  · cases executed

/-- Setting the flag again. -/
theorem window_setFlag {next : Unit → Kern α}
    (continues
      : (windows page first).Inside (machine page) (faultless calls) tid call (next ())
          open_ () post)
    : (windows page first).Inside (machine page) (faultless calls) tid call
        (.act (.setCtxProtected true) next) open_ () post := by
  apply window_op
  intro w choice result k' owns _ inv _ executed
  cases executed
  have same : Permissions.of { w.state with ctxProtected := true } = Permissions.of w.state := by
    simp [Permissions.of, inv.isSet]
  exact ⟨owns, inv.idle rfl same rfl rfl rfl, continues⟩

/-- Releasing the mutex with both windows closed. -/
theorem window_unlock {next : Unit → Kern α} (closed : ∀ target, open_.on target = none)
    (continues
      : (windows page first).Outside (machine page) (faultless calls) tid call (next ()) ()
          post)
    : (windows page first).Inside (machine page) (faultless calls) tid call
        (.act .mutexUnlock next) open_ () post := by
  apply LockDiscipline.Inside.act
  intro w _ openIs _ inv
  have unopened : ∀ target, (windowsAfter w.history).on target = none := by
    intro target
    rw [show windowsAfter w.history = open_ from openIs]
    exact closed target
  refine ⟨trivial, ?_⟩
  intro choice _
  have released : WindowInv page first
      (w.push { w.state with safetyMutex := none } (.act tid call .mutexUnlock (some ()))) := by
    refine inv.relock unopened rfl rfl ?_ rfl rfl
    intro target
    have none := unopened target
    cases target <;> exact none
  exact ⟨released, fun _ _ => rfl, Or.inr ⟨rfl, continues⟩⟩

/-- Acquiring the mutex: nobody has a window open. -/
theorem window_lock {next : Unit → Kern α}
    (continues
      : (windows page first).Inside (machine page) (faultless calls) tid call (next ())
          ⟨none, none, some (tid, call)⟩ () post)
    : (windows page first).Outside (machine page) (faultless calls) tid call
        (.act .mutexLock next) () post := by
  apply LockDiscipline.Outside.act
  intro w _ _ inv
  refine ⟨trivial, ?_⟩
  intro choice _
  simp only [machine, exec]
  by_cases unowned : w.state.safetyMutex = none
  · simp only [unowned, if_true]
    have free : (windowsAfter w.history).holder = none := by
      have holder := inv.holder
      rw [unowned] at holder
      exact Option.map_eq_none_iff.mp holder
    have unopened : ∀ target, (windowsAfter w.history).on target = none := by
      intro target
      cases opened : (windowsAfter w.history).on target with
      | none => rfl
      | some entry =>
          have held := (inv.authorized target entry opened).1
          simp [free] at held
    have entered : (windowsAfter w.history).after (.act tid call .mutexLock (some ()))
        = ⟨none, none, some (tid, call)⟩ := by
      have direct := unopened .direct
      have vmalloc := unopened .vmalloc
      simp only [Windows.on] at direct vmalloc
      simp [Windows.after, direct, vmalloc]
    refine ⟨inv.relock unopened rfl rfl ?_ ?_ rfl, fun _ _ => trivial,
      Or.inr ⟨unowned, rfl, ?_⟩⟩
    · intro target
      rw [entered]
      cases target <;> rfl
    · rw [entered]
      rfl
    · have held : (windows page first).held
          (w.push { w.state with safetyMutex := some tid } (.act tid call .mutexLock (some ())))
          = ⟨none, none, some (tid, call)⟩ := by
        simp [windows, entered]
      rw [held]
      exact continues
  · simp [unowned]

/-- A silent operation outside a critical section. -/
theorem window_outside_silent {operation : Op} {next : operation.Res → Kern α}
    (silent : operation.silent = true)
    (continues
      : ∀ result, (windows page first).Outside (machine page) (faultless calls) tid call
          (next result) () post)
    : (windows page first).Outside (machine page) (faultless calls) tid call
        (.act operation next) () post := by
  apply LockDiscipline.Outside.act
  intro w _ _ inv
  refine ⟨trivial, ?_⟩
  intro choice _
  cases executed : exec page tid choice operation w.state with
  | done result k' =>
      obtain ⟨mutex, permissions, _⟩ := exec_quiet (Op.quiet_of_silent silent) executed
      obtain ⟨neutral, unstored⟩ := after_silent (windowsAfter w.history) silent
      simp only [machine, executed]
      refine ⟨inv.idle mutex permissions (exec_silent_word silent executed) neutral unstored,
        fun _ _ => trivial, Or.inl ⟨mutex, ?_, continues result⟩⟩
      simpa [windows] using neutral
  | wait => simp [machine, executed]
  | fault =>
      obtain ⟨target, value, rfl⟩ := exec_fault executed
      cases silent

/-- The copy of an attack goes through exactly when its alias has a window open. -/
theorem window_outside_copy {mode : AttackMode} {next : Int → Kern α}
    (continues
      : ∀ result, (windows page first).Outside (machine page) (faultless calls) tid
          (.attack mode) (next result) () post)
    : (windows page first).Outside (machine page) (faultless calls) tid (.attack mode)
        (.act (.copyToKernelNofault (mode.target page) mode.value) next) () post := by
  apply LockDiscipline.Outside.act
  intro w _ _ inv
  refine ⟨trivial, ?_⟩
  intro choice _
  have writable := inv.writable (mode.target page)
  simp only [machine, exec]
  cases opened : (windowsAfter w.history).on (mode.target page) with
  | none =>
      simp only [opened, Option.isSome_none] at writable
      simp only [writable, Bool.false_eq_true, if_false]
      exact ⟨inv.idle rfl rfl rfl rfl rfl, fun _ _ => trivial,
        Or.inl ⟨trivial, by simp [windows, Windows.after], continues _⟩⟩
  | some entry =>
      simp only [opened, Option.isSome_some] at writable
      simp only [writable, if_true]
      refine ⟨inv.keeps rfl rfl rfl rfl ?_, fun _ _ => trivial,
        Or.inl ⟨rfl, by simp [windows, Windows.after], continues _⟩⟩
      obtain ⟨held, val, isWrite⟩ := inv.authorized _ entry opened
      obtain ⟨writer, caller⟩ := entry
      subst isWrite
      intro value committed
      cases committed
      exact Or.inr ⟨tid, mode, writer, val, rfl, rfl, opened, held⟩

/-- Silent code and attacks outside a critical section, by program induction. -/
theorem window_outside_all {prog : Kern Int}
    (all
      : prog.All (fun operation =>
          operation.silent = true
          ∨ ∃ mode, call = .attack mode
              ∧ operation = .copyToKernelNofault (mode.target page) mode.value))
    : (windows page first).Outside (machine page) (faultless calls) tid call prog ()
        ((windows page first).discipline.Returns tid call) := by
  induction prog with
  | ret value =>
      apply LockDiscipline.Outside.ret
      intro w free _ inv
      refine ⟨LockDiscipline.moves_intro (inv.idle rfl rfl rfl rfl rfl) (fun _ _ => rfl)
        (Or.inl ⟨rfl, ?_⟩), free, trivial⟩
      simp [windows, Windows.after]
  | act operation next ih =>
      obtain ⟨performed, rest⟩ := all
      rcases performed with silent | ⟨mode, rfl, rfl⟩
      · exact window_outside_silent silent (fun result => ih result (rest result))
      · exact window_outside_copy (fun result => ih result (rest result))

/-- An authorized write opens both windows, stores, and closes them in the same order. -/
theorem window_safeWrite (exists_ : page.hasVmalloc = true) (val : UInt32)
    : (windows page first).Outside (machine page) (faultless calls) tid (.safeWrite val)
        (safetyMemSafeWrite page val) ()
        ((windows page first).discipline.Returns tid (.safeWrite val)) := by
  rw [safetyMemSafeWrite_eq]
  simp only [onVmalloc, exists_, if_true]
  refine window_lock ?_
  refine window_silent rfl (fun w _ wasRo _ _ inv read => ?_)
  have wasSet : wasRo = true := by
    cases read
    exact inv.isSet
  rw [wasSet, if_pos rfl]
  refine window_setMemory rfl (fun _ => ⟨val, rfl⟩) ?_
  refine window_setMemory rfl (fun _ => ⟨val, rfl⟩) ?_
  refine window_store ?_
  refine window_setMemory rfl (fun opens => by cases opens) ?_
  refine window_setMemory rfl (fun opens => by cases opens) ?_
  refine window_unlock (fun target => by cases target <;> rfl) ?_
  exact window_outside_all trivial

/-- Enabling protection again opens nothing and finds the flag's condition met. -/
theorem window_protect (exists_ : page.hasVmalloc = true)
    : (windows page first).Outside (machine page) (faultless calls) tid (.setProtection true)
        (safetyMemSetProtection page true) ()
        ((windows page first).discipline.Returns tid (.setProtection true)) := by
  rw [safetyMemSetProtection_true]
  simp only [onVmalloc, exists_, if_true]
  refine window_lock ?_
  refine window_silent rfl (fun _ _ _ _ _ _ _ => ?_)
  refine window_setMemory rfl (fun opens => by cases opens) ?_
  refine window_setMemory rfl (fun opens => by cases opens) ?_
  refine window_silent rfl (fun _ _ _ _ _ _ _ => ?_)
  refine window_silent rfl (fun w _ mapping _ openIs inv walked => ?_)
  have verified : verifiedReadOnly 0 mapping = true := by
    have readOnly := inv.writable .vmalloc
    rw [openIs] at readOnly
    rw [verifiedReadOnly_walk 0 inv.shaped.vmalloc walked, exists_, readOnly]
    rfl
  rw [verified]
  refine window_setFlag ?_
  refine window_unlock (fun target => by cases target <;> rfl) ?_
  exact window_outside_all ((walkAndReturn_silent page 0 0).imp (fun _ => Or.inl))

-- Authorized writes, attacks, and protection that is only ever enabled.
def guarded : Call → Bool
  | .setProtection enable => enable
  | .safeWrite _ => true
  | .attack _ => true
  | _ => false

theorem windows_sound (exists_ : page.hasVmalloc = true)
    : (windows page first).discipline.Sound (machine page) (faultless guarded) := by
  intro tid call w admitted inv atRest
  obtain ⟨free, _⟩ := atRest
  refine ⟨LockDiscipline.moves_intro (WindowInv.idle inv rfl rfl rfl rfl rfl) (fun _ _ => rfl)
    (Or.inl ⟨rfl, by simp [windows, Windows.after]⟩), ?_⟩
  refine (?_ : (windows page first).Outside (machine page) (faultless guarded) tid call
    ((machine page).body call) () _) _ free rfl
  cases call with
  | setProtection enable =>
      have enabling : enable = true := admitted
      subst enabling
      exact window_protect exists_
  | safeWrite val => exact window_safeWrite exists_ val
  | attack mode =>
      refine window_outside_all ((executeAttack_ops page mode).imp ?_)
      intro operation performed
      rcases performed with silent | copies
      · exact Or.inl silent
      · exact Or.inr ⟨mode, rfl, copies⟩
  | isProtected | threadA | threadB | rogueC _ => cases admitted

/-- A protection change that returned zero leaves the flag set over two read-only aliases. -/
theorem WindowInv.afterProtection {k k' : State} {errVirt errVmalloc : Int}
    (exists_ : page.hasVmalloc = true) (shaped : (Permissions.of k).Shaped)
    (done : ProtectionDone page true errVirt errVmalloc k k')
    (succeeded : (if errVmalloc ≠ 0 then errVmalloc else errVirt) = 0)
    : WindowInv page k'.word ⟨k', []⟩ := by
  have vmallocOk : errVmalloc = 0 := by
    by_contra failed
    simp [failed] at succeeded
  have virtOk : errVirt = 0 := by simpa [vmallocOk] using succeeded
  have direct := done.direct
  have vmalloc := done.vmalloc
  rw [if_pos virtOk] at direct
  rw [if_pos ⟨exists_, vmallocOk⟩] at vmalloc
  refine ⟨⟨?_, ?_⟩, ?_, ?_, ?_, ?_, rfl, Throughout.nil _⟩
  · simpa [Permissions.of, direct] using shaped.direct
  · simpa [Permissions.of, vmalloc] using shaped.vmalloc.setWrite false
  · simp [done.flag, exists_, vmallocOk]
  · simpa [windowsAfter, Windows.closed] using done.mutex.symm
  · intro target
    cases target with
    | direct =>
        simp only [State.writable, State.path, direct]
        exact TablePath.writable_setWrite false shaped.direct
    | vmalloc =>
        simp only [State.writable, State.path, vmalloc]
        exact TablePath.writable_setWrite false shaped.vmalloc.mapped
  · intro target entry opened
    cases target <;> cases opened

/-- Once `safety_mem_set_protection(true)` has returned zero, the safety word is always the
last value committed, and everything committed is the store of an authorized write or an
attack inside the window of one.
-/
theorem stores_in_windows {k₀ k : State} {c₀ c : KernelConfig} {tid : Nat}
    {choices : List Choice} (exists_ : page.hasVmalloc = true) (loaded : Loaded page k₀)
    (earlier : (machine page).Reachable untampered (Config.start k₀) c₀)
    (protects
      : (safetyMemSetProtection page true).runAlone (exec page tid) choices c₀.world.state
        = .done 0 k)
    (reachable : (machine page).Reachable (faultless guarded) (Config.start k) c)
    : c.world.state.word = lastStored k.word c.world.history
      ∧ Throughout (InWindow page) c.world.history := by
  have shaped := shaped_of_reachable loaded earlier
  have free : c₀.world.state.safetyMutex = none := by
    by_contra owned
    rw [safetyMemSetProtection_true] at protects
    simp [Prog.runAlone, exec, owned] at protects
  obtain ⟨errVirt, errVmalloc, k', ran, done, _⟩ :=
    safetyMemSetProtection_runAlone tid true choices free shaped.vmalloc
  rw [ran] at protects
  injection protects with returned same
  subst same
  have initially := WindowInv.afterProtection exists_ shaped done returned
  have verified := (windows_sound exists_).reachable
    (Discipline.ConfigOk.start initially (fun tid => ⟨by simp [windows, done.mutex], trivial⟩))
    reachable
  exact ⟨verified.inv.word, verified.inv.inWindow⟩

/-- The sample page right after protection was enabled without errors. -/
def protectedSample : State :=
  match (safetyMemSetProtection (samplePage true) true).runAlone (exec (samplePage true) 0) []
      (freshlyLoaded (samplePage true)) with
  | .done _ k => k
  | _ => freshlyLoaded (samplePage true)

theorem protectedSample_protects
    : (safetyMemSetProtection (samplePage true) true).runAlone (exec (samplePage true) 0) []
        (freshlyLoaded (samplePage true))
      = .done 0 protectedSample := rfl

-- The value an authorized write stored.
def authorizedStored : KernelLabel → Option UInt32
  | .act _ (.safeWrite _) (.store _ value) (some _) => some value
  | _ => none

/-- An authorized write opens its windows, and an attack in mode 2 runs before it stores. -/
def attackInWindow : List (Event Nat Call Choice) :=
  .call 1 (.safeWrite 7) :: List.replicate 4 (.step 1 {})
    ++ wholeCall 2 (.attack .mutexBypass) (List.replicate 9 0)

theorem stores_in_windows_sample
    : ∃ c,
        (machine (samplePage true)).Reachable (faultless guarded)
          (Config.start protectedSample) c
        ∧ c.world.state.word = badDriverMutexBypassValue
        ∧ c.world.state.word = lastStored protectedSample.word c.world.history
        ∧ Throughout (InWindow (samplePage true)) c.world.history := by
  obtain ⟨c, reachable, seen⟩ := Machine.Reachable.observed attackInWindow
    (fun c : KernelConfig => c.world.state.word)
    (show (Machine.run (machine (samplePage true)) (faultless guarded)
      (Config.start protectedSample) _).map _ = some badDriverMutexBypassValue from rfl)
  exact ⟨c, reachable, seen, stores_in_windows rfl (freshlyLoaded_loaded (samplePage true))
    ⟨[], rfl⟩ protectedSample_protects reachable⟩

/-- In that run the word changes although no authorized write has stored anything. -/
theorem attack_changes_word_in_window
    : Loaded (samplePage true) (freshlyLoaded (samplePage true))
      ∧ (safetyMemSetProtection (samplePage true) true).runAlone (exec (samplePage true) 0) []
          (freshlyLoaded (samplePage true))
        = .done 0 protectedSample
      ∧ ∃ c,
          (machine (samplePage true)).Reachable (faultless guarded)
            (Config.start protectedSample) c
          ∧ c.world.state.word
            ≠ (c.world.history.filterMap authorizedStored).getLastD protectedSample.word := by
  refine ⟨freshlyLoaded_loaded (samplePage true), rfl, ?_⟩
  obtain ⟨c, reachable, seen⟩ := Machine.Reachable.observed attackInWindow
    (fun c : KernelConfig =>
      (c.world.state.word,
        (c.world.history.filterMap authorizedStored).getLastD protectedSample.word))
    (show (Machine.run (machine (samplePage true)) (faultless guarded)
      (Config.start protectedSample) _).map _
        = some (badDriverMutexBypassValue, safetySentinel) from rfl)
  obtain ⟨word, authorizedWord⟩ := Prod.mk.inj seen
  refine ⟨c, reachable, ?_⟩
  rw [word, authorizedWord]
  decide

end SafetyIsolation.Protection
