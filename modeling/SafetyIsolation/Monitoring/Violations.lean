import Mathlib.Data.List.Induction
import SafetyIsolation.Protection.Sections

/-! What thread A's violation counter counts.
Thread A reads the safety word twice while it holds the mutex. Cooperating writers are kept
out, so only unsynchronized stores can fall between the two reads; the counter is the number
of such windows whose last store differs from the first read.
-/

namespace SafetyIsolation.Monitoring

open SafetyIsolation.Interleaving SafetyIsolation.Kernel SafetyIsolation.Protection

-----------------------------------------------------------------------------------------
-- Hold windows of a history
-----------------------------------------------------------------------------------------

/-- The value committed by a store that did not take the mutex. -/
def unsynchronized : KernelLabel → Option UInt32
  | .act _ (.rogueC _) (.store _ value) (some _) => some value
  | .act _ (.attack _) (.copyToKernelNofault _ value) (some result) =>
      if result = 0 then some value else none
  | _ => none

/-- One hold window: thread A's first read, the last unsynchronized store since then, and
whether the second read is done.
-/
structure Hold where
  tid : Nat
  first : UInt32
  last : Option UInt32
  isSealed : Bool
  deriving DecidableEq

/-- The window saw a store whose last value differs from the first read. -/
def Hold.violated (hold : Hold) : Bool := hold.last.any (· ≠ hold.first)

/-- What a recorded step means for the current window. -/
inductive Watched where
  | load (tid : Nat) (value : UInt32)
  | unlock (tid : Nat)
  | store (value : UInt32)
  | nothing

def watched : KernelLabel → Watched
  | .act tid .threadA (.load _) (some value) => .load tid value
  | .act tid .threadA .mutexUnlock (some _) => .unlock tid
  | label =>
      match unsynchronized label with
      | some value => .store value
      | none => .nothing

/-- The current window, and the number of violated windows that are over. -/
structure Watch where
  hold : Option Hold
  violations : Nat

namespace Watch

def load (watch : Watch) (tid : Nat) (value : UInt32) : Watch :=
  match watch.hold with
  | none => { watch with hold := some ⟨tid, value, none, false⟩ }
  | some hold =>
      if hold.tid = tid then { watch with hold := some { hold with isSealed := true } }
      else watch

def unlock (watch : Watch) (tid : Nat) : Watch :=
  match watch.hold with
  | none => watch
  | some hold =>
      if hold.tid = tid then
        { hold := none, violations := watch.violations + if hold.violated then 1 else 0 }
      else watch

def store (watch : Watch) (value : UInt32) : Watch :=
  match watch.hold with
  | none => watch
  | some hold =>
      if hold.isSealed then watch
      else { watch with hold := some { hold with last := some value } }

def after (watch : Watch) (label : KernelLabel) : Watch :=
  match watched label with
  | .load tid value => watch.load tid value
  | .unlock tid => watch.unlock tid
  | .store value => watch.store value
  | .nothing => watch

end Watch

/-- The windows of a history. -/
def watchAfter (history : List KernelLabel) : Watch := history.foldl Watch.after ⟨none, 0⟩

@[simp] theorem watchAfter_push (history : List KernelLabel) (label : KernelLabel)
    : watchAfter (history ++ [label]) = (watchAfter history).after label := by
  simp [watchAfter]

/-- No violated window so far, and no unsynchronized store in the current one. -/
structure Watch.Undisturbed (watch : Watch) : Prop where
  violations : watch.violations = 0
  unstored : ∀ hold, watch.hold = some hold → hold.last = none

theorem Watch.Undisturbed.load {watch : Watch} (h : watch.Undisturbed) (tid : Nat)
    (value : UInt32)
    : (watch.load tid value).Undisturbed := by
  unfold Watch.load
  split
  · exact ⟨h.violations, fun hold same => by cases same; rfl⟩
  · rename_i hold found
    split
    · exact ⟨h.violations, fun sealed_ same => by cases same; exact h.unstored hold found⟩
    · exact h

theorem Watch.Undisturbed.unlock {watch : Watch} (h : watch.Undisturbed) (tid : Nat)
    : (watch.unlock tid).Undisturbed := by
  unfold Watch.unlock
  split
  · exact h
  · rename_i hold found
    split
    · refine ⟨?_, fun hold same => by cases same⟩
      simp [h.violations, Hold.violated, h.unstored hold found]
    · exact h

/-- Without unsynchronized stores no window is ever violated, by induction from the end. -/
theorem watchAfter_undisturbed {history : List KernelLabel}
    (undisturbed : ∀ label ∈ history, unsynchronized label = none)
    : (watchAfter history).Undisturbed := by
  induction history using List.reverseRecOn with
  | nil => exact ⟨rfl, fun hold found => by cases found⟩
  | append_singleton history label ih =>
      have before := ih (fun label member => undisturbed label (List.mem_append_left _ member))
      have silent : unsynchronized label = none := undisturbed label (by simp)
      rw [watchAfter_push]
      unfold Watch.after
      split
      · exact before.load _ _
      · exact before.unlock _
      · rename_i value event
        unfold watched at event
        split at event
        · cases event
        · cases event
        · simp [silent] at event
      · exact before

-----------------------------------------------------------------------------------------
-- The discipline
-----------------------------------------------------------------------------------------

/-- The window as its owner can rely on it: until the second read, others may still store. -/
def Hold.settled (hold : Hold) : Hold :=
  if hold.isSealed then hold else { hold with last := none }

/-- What the owner of the mutex knows about the counting. -/
structure Account where
  counter : UInt32
  violations : Nat
  hold : Option Hold

/-- A window belongs to the owner of the mutex; until it is sealed the word is its last
unsynchronized store; and the counter is the number of violated windows, except while the
owner has already counted the current one.
-/
structure CountInv (w : KernelWorld) : Prop where
  bufPtr : w.state.safetyBufPtr = some .direct
  owner
    : ∀ hold, (watchAfter w.history).hold = some hold
        → w.state.safetyMutex = some hold.tid
  current
    : ∀ hold, (watchAfter w.history).hold = some hold → hold.isSealed = false
        → w.state.word = hold.last.getD hold.first
  counted
    : w.state.violationCounter = UInt32.ofNat (watchAfter w.history).violations
      ∨ ∃ hold, (watchAfter w.history).hold = some hold
          ∧ hold.isSealed = true
          ∧ hold.violated = true
          ∧ w.state.violationCounter
            = UInt32.ofNat ((watchAfter w.history).violations + 1)

def counting : LockDiscipline State Nat Call Int Op Op.Res Account Unit where
  owner := State.safetyMutex
  held w :=
    ⟨w.state.violationCounter, (watchAfter w.history).violations,
      (watchAfter w.history).hold.map Hold.settled⟩
  own _ _ := ()
  inv := CountInv
  rest _ := True
  asserts _ _ _ _ := True

variable {page : SafetyPage} {p : KernelPolicy} {tid : Nat} {call : Call} {α : Type}
  {account : Account} {post : α → KernelWorld → Prop} {w : KernelWorld} {k' : State}
  {label : KernelLabel}

theorem after_unwatched (unwatched : watched label = .nothing) (watch : Watch)
    : watch.after label = watch := by
  simp [Watch.after, unwatched]

/-- A step that changes no window and leaves mutex and counter alone. The word may change
only while no window is unsealed.
-/
theorem CountInv.keeps (inv : CountInv w)
    (unchanged : (watchAfter w.history).after label = watchAfter w.history)
    (mutex : k'.safetyMutex = w.state.safetyMutex)
    (bufPtr : k'.safetyBufPtr = w.state.safetyBufPtr)
    (counter : k'.violationCounter = w.state.violationCounter)
    (word
      : k'.word = w.state.word
        ∨ ∀ hold, (watchAfter w.history).hold = some hold → hold.isSealed = true)
    : CountInv (w.push k' label) := by
  have same : watchAfter (w.history ++ [label]) = watchAfter w.history := by
    rw [watchAfter_push, unchanged]
  refine ⟨bufPtr.trans inv.bufPtr, ?_, ?_, ?_⟩
  · intro hold found
    rw [World.push_history, same] at found
    exact mutex.trans (inv.owner hold found)
  · intro hold found unsealed
    rw [World.push_history, same] at found
    rcases word with sameWord | isSealed
    · exact sameWord.trans (inv.current hold found unsealed)
    · simp [isSealed hold found] at unsealed
  · simpa only [World.push_history, World.push_state, same, counter] using inv.counted

theorem held_keeps (unchanged : (watchAfter w.history).after label = watchAfter w.history)
    (counter : k'.violationCounter = w.state.violationCounter)
    : counting.held (w.push k' label) = counting.held w := by
  simp [counting, unchanged, counter]

/-- Only thread A, the rogue thread and attacks are watched. -/
theorem watched_synchronized (notA : call ≠ .threadA) (notRogue : ∀ mode, call ≠ .rogueC mode)
    (notAttack : ∀ mode, call ≠ .attack mode) (operation : Op)
    (result : Option operation.Res)
    : watched (.act tid call operation result) = .nothing := by
  cases call with
  | threadA => exact absurd rfl notA
  | rogueC mode => exact absurd rfl (notRogue mode)
  | attack mode => exact absurd rfl (notAttack mode)
  | setProtection _ => cases operation <;> rfl
  | safeWrite _ => cases operation <;> rfl
  | isProtected => cases operation <;> rfl
  | threadB => cases operation <;> rfl

/-- A plain operation is watched only when it is a load of thread A. -/
theorem watched_plain {operation : Op} (plain : operation.plain = true)
    (notLoad : call = .threadA → ∀ target, operation ≠ .load target)
    (result : Option operation.Res)
    : watched (.act tid call operation result) = .nothing := by
  cases call with
  | threadA =>
      cases operation with
      | load target => exact absurd rfl (notLoad rfl target)
      | mutexUnlock => cases plain
      | _ => rfl
  | rogueC mode => cases operation <;> first | rfl | cases plain
  | attack mode => cases operation <;> first | rfl | cases plain
  | setProtection _ => cases operation <;> rfl
  | safeWrite _ => cases operation <;> rfl
  | isProtected => cases operation <;> rfl
  | threadB => cases operation <;> rfl

theorem after_trapped {operation : Op} (watch : Watch)
    : watch.after (.act tid call operation none) = watch := by
  apply after_unwatched
  cases operation <;> cases call <;> rfl

/-- The owner's account of a world without a window. -/
theorem hold_none (heldIs : counting.held w = account) (none_ : account.hold = none)
    : (watchAfter w.history).hold = none := by
  subst heldIs
  exact Option.map_eq_none_iff.mp none_

/-- A sealed window in the owner's account is the current one. -/
theorem hold_sealed {hold : Hold} (heldIs : counting.held w = account)
    (isHold : account.hold = some hold) (isSealed : hold.isSealed = true)
    : (watchAfter w.history).hold = some hold := by
  subst heldIs
  obtain ⟨current, found, view⟩ := Option.map_eq_some_iff.mp isHold
  unfold Hold.settled at view
  split at view
  · rw [found, view]
  · rename_i unsealed
    rw [← view] at isSealed
    exact absurd isSealed unsealed

/-- An operation inside a critical section that nobody watches. -/
theorem count_keep {operation : Op} {next : operation.Res → Kern α}
    (unwatched : ∀ result, watched (.act tid call operation result) = .nothing)
    (frame
      : ∀ k choice result k', exec page tid choice operation k = .done result k'
          → k'.safetyMutex = k.safetyMutex
            ∧ k'.safetyBufPtr = k.safetyBufPtr
            ∧ (k'.word = k.word ∨ account.hold = none)
            ∧ k'.violationCounter = k.violationCounter)
    (continues
      : ∀ k choice result k', k.safetyBufPtr = some .direct
          → k.violationCounter = account.counter
          → exec page tid choice operation k = .done result k'
          → counting.Inside (machine page) p tid call (next result) account () post)
    : counting.Inside (machine page) p tid call (.act operation next) account () post := by
  apply LockDiscipline.Inside.act
  intro w owns heldIs _ inv
  refine ⟨trivial, ?_⟩
  intro choice _
  cases executed : exec page tid choice operation w.state with
  | done result k' =>
      obtain ⟨mutex, bufPtr, word, counter⟩ := frame w.state choice result k' executed
      have unchanged := after_unwatched (unwatched (some result)) (watchAfter w.history)
      have wordOk : k'.word = w.state.word
          ∨ ∀ hold, (watchAfter w.history).hold = some hold → hold.isSealed = true := by
        refine word.imp_right (fun none_ hold found => ?_)
        simp [hold_none heldIs none_] at found
      simp only [machine, executed]
      refine ⟨inv.keeps unchanged mutex bufPtr counter wordOk, fun _ _ => trivial,
        Or.inl ⟨mutex.trans owns, ?_⟩⟩
      rw [held_keeps unchanged counter, heldIs]
      exact continues w.state choice result k' inv.bufPtr (congrArg Account.counter heldIs)
        executed
  | wait => simp [machine, executed]
  | fault =>
      simp only [machine, executed]
      exact ⟨inv.keeps (after_trapped _) rfl rfl rfl (Or.inl rfl), fun _ _ => trivial⟩

/-- A plain operation inside a critical section. -/
theorem count_plain {operation : Op} {next : operation.Res → Kern α}
    (plain : operation.plain = true)
    (notLoad : call = .threadA → ∀ target, operation ≠ .load target)
    (continues
      : ∀ k choice result k', k.safetyBufPtr = some .direct
          → k.violationCounter = account.counter
          → exec page tid choice operation k = .done result k'
          → counting.Inside (machine page) p tid call (next result) account () post)
    : counting.Inside (machine page) p tid call (.act operation next) account () post := by
  refine count_keep (watched_plain plain notLoad) ?_ continues
  intro k choice result k' executed
  obtain ⟨mutex, bufPtr, word, counter⟩ := exec_plain plain executed
  exact ⟨mutex, bufPtr, Or.inl word, counter⟩

/-- Whoever finds the mutex free finds no window, and the counter exact. -/
theorem CountInv.acquire (inv : CountInv w) (unowned : w.state.safetyMutex = none)
    (unwatched : watched label = .nothing)
    : CountInv (w.push { w.state with safetyMutex := some tid } label)
      ∧ ∃ n, counting.held (w.push { w.state with safetyMutex := some tid } label)
          = ⟨UInt32.ofNat n, n, none⟩ := by
  have none_ : (watchAfter w.history).hold = none := by
    cases found : (watchAfter w.history).hold with
    | none => rfl
    | some hold =>
        have owned := inv.owner hold found
        simp [unowned] at owned
  have counter : w.state.violationCounter
      = UInt32.ofNat (watchAfter w.history).violations := by
    rcases inv.counted with exact_ | ⟨hold, found, _⟩
    · exact exact_
    · simp [none_] at found
  have same : watchAfter (w.history ++ [label]) = watchAfter w.history := by
    simp [Watch.after, unwatched]
  refine ⟨⟨inv.bufPtr, ?_, ?_, ?_⟩, (watchAfter w.history).violations, ?_⟩
  · intro hold found
    rw [World.push_history, same, none_] at found
    cases found
  · intro hold found
    rw [World.push_history, same, none_] at found
    cases found
  · rw [World.push_history, same]
    exact Or.inl counter
  · simp only [counting, World.push_history, World.push_state, same, none_, counter]
    rfl

/-- Entering a critical section. -/
theorem count_lock {next : Unit → Kern α}
    (continues
      : ∀ n, counting.Inside (machine page) p tid call (next ()) ⟨UInt32.ofNat n, n, none⟩ ()
          post)
    : counting.Outside (machine page) p tid call (.act .mutexLock next) () post := by
  apply LockDiscipline.Outside.act
  intro w _ _ inv
  refine ⟨trivial, ?_⟩
  intro choice _
  simp only [machine, exec]
  by_cases unowned : w.state.safetyMutex = none
  · simp only [unowned, if_true]
    have unwatched : watched (.act tid call .mutexLock (some ())) = .nothing := by
      cases call <;> rfl
    obtain ⟨inv', n, heldIs⟩ := inv.acquire unowned unwatched
    refine ⟨inv', fun _ _ => trivial, Or.inr ⟨unowned, rfl, ?_⟩⟩
    rw [heldIs]
    exact continues n
  · simp [unowned]

/-- Leaving a critical section without a window. -/
theorem count_unlock {next : Unit → Kern α} (none_ : account.hold = none)
    (unwatched : watched (.act tid call .mutexUnlock (some ())) = .nothing)
    (continues : counting.Outside (machine page) p tid call (next ()) () post)
    : counting.Inside (machine page) p tid call (.act .mutexUnlock next) account () post := by
  apply LockDiscipline.Inside.act
  intro w _ heldIs _ inv
  refine ⟨trivial, ?_⟩
  intro choice _
  have noHold := hold_none heldIs none_
  have same : watchAfter (w.history ++ [.act tid call .mutexUnlock (some ())])
      = watchAfter w.history := by
    simp [Watch.after, unwatched]
  refine ⟨⟨inv.bufPtr, ?_, ?_, ?_⟩, fun _ _ => rfl, Or.inr ⟨rfl, continues⟩⟩
  · intro hold found
    rw [World.push_history, same, noHold] at found
    cases found
  · intro hold found
    rw [World.push_history, same, noHold] at found
    cases found
  · simpa only [World.push_history, World.push_state, same] using inv.counted

/-- An unsynchronized store is recorded in an open window and is invisible to its owner. -/
theorem CountInv.store {value : UInt32} (inv : CountInv w)
    (isStore : watched label = .store value)
    : CountInv (w.push { w.state with word := value } label)
      ∧ counting.held (w.push { w.state with word := value } label) = counting.held w := by
  have untouched (isSealed : ∀ hold, (watchAfter w.history).hold = some hold
        → hold.isSealed = true)
      : (watchAfter w.history).after label = watchAfter w.history := by
    simp only [Watch.after, isStore, Watch.store]
    cases found : (watchAfter w.history).hold with
    | none => rfl
    | some hold => simp [isSealed hold found]
  by_cases isSealed : ∀ hold, (watchAfter w.history).hold = some hold → hold.isSealed = true
  · exact ⟨inv.keeps (untouched isSealed) rfl rfl rfl (Or.inr isSealed),
      held_keeps (untouched isSealed) rfl⟩
  · push Not at isSealed
    obtain ⟨hold, found, unsealed⟩ := isSealed
    have stored : watchAfter (w.history ++ [label])
        = { watchAfter w.history with hold := some { hold with last := some value } } := by
      simp [Watch.after, isStore, Watch.store, found, unsealed]
    refine ⟨⟨inv.bufPtr, ?_, ?_, ?_⟩, ?_⟩
    · intro other opened
      rw [World.push_history, stored] at opened
      cases opened
      exact inv.owner hold found
    · intro other opened _
      rw [World.push_history, stored] at opened
      cases opened
      rfl
    · rcases inv.counted with exact_ | ⟨other, opened, wasSealed, _⟩
      · exact Or.inl (by simpa only [World.push_history, World.push_state, stored] using exact_)
      · rw [found] at opened
        cases opened
        exact absurd wasSealed unsealed
    · simp only [counting, World.push_history, World.push_state, stored, found]
      simp [Hold.settled, unsealed]

/-- A silent operation outside a critical section. -/
theorem count_outside_silent {operation : Op} {next : operation.Res → Kern α}
    (silent : operation.silent = true)
    (notLoad : call = .threadA → ∀ target, operation ≠ .load target)
    (continues
      : ∀ result, counting.Outside (machine page) p tid call (next result) () post)
    : counting.Outside (machine page) p tid call (.act operation next) () post := by
  apply LockDiscipline.Outside.act
  intro w _ _ inv
  refine ⟨trivial, ?_⟩
  intro choice _
  have plain := Op.plain_of_silent silent
  cases executed : exec page tid choice operation w.state with
  | done result k' =>
      obtain ⟨mutex, bufPtr, word, counter⟩ := exec_plain plain executed
      have unwatched : watched (.act tid call operation (some result)) = .nothing :=
        watched_plain plain notLoad (some result)
      have unchanged := after_unwatched unwatched (watchAfter w.history)
      simp only [machine, executed]
      exact ⟨inv.keeps unchanged mutex bufPtr counter (Or.inl word), fun _ _ => trivial,
        Or.inl ⟨mutex, held_keeps unchanged counter, continues result⟩⟩
  | wait => simp [machine, executed]
  | fault =>
      obtain ⟨target, value, rfl⟩ := exec_fault executed
      cases silent

/-- The copy of an attack, refused or not. -/
theorem count_outside_copy {mode : AttackMode} {target : Alias} {value : UInt32}
    {next : Int → Kern α}
    (continues
      : ∀ result, counting.Outside (machine page) p tid (.attack mode) (next result) () post)
    : counting.Outside (machine page) p tid (.attack mode)
        (.act (.copyToKernelNofault target value) next) () post := by
  apply LockDiscipline.Outside.act
  intro w _ _ inv
  refine ⟨trivial, ?_⟩
  intro choice _
  simp only [machine, exec]
  cases w.state.writable target with
  | true =>
      have isStore : watched (.act tid (.attack mode) (.copyToKernelNofault target value)
          (some (0 : Int))) = .store value := rfl
      obtain ⟨inv', held⟩ := inv.store isStore
      exact ⟨inv', fun _ _ => trivial, Or.inl ⟨rfl, held, continues 0⟩⟩
  | false =>
      have unwatched : watched (.act tid (.attack mode) (.copyToKernelNofault target value)
          (some (-eFAULT))) = .nothing := rfl
      have unchanged := after_unwatched unwatched (watchAfter w.history)
      exact ⟨inv.keeps unchanged rfl rfl rfl (Or.inl rfl), fun _ _ => trivial,
        Or.inl ⟨rfl, held_keeps unchanged rfl, continues (-eFAULT)⟩⟩

/-- The store of the rogue thread, which traps when it is refused. -/
theorem count_outside_store {mode : UInt32} {target : Alias} {value : UInt32}
    {next : Unit → Kern α}
    (continues : counting.Outside (machine page) p tid (.rogueC mode) (next ()) () post)
    : counting.Outside (machine page) p tid (.rogueC mode) (.act (.store target value) next)
        () post := by
  apply LockDiscipline.Outside.act
  intro w _ _ inv
  refine ⟨trivial, ?_⟩
  intro choice _
  simp only [machine, exec]
  cases w.state.writable target with
  | true =>
      have isStore : watched (.act tid (.rogueC mode) (.store target value) (some ()))
          = .store value := rfl
      obtain ⟨inv', held⟩ := inv.store isStore
      exact ⟨inv', fun _ _ => trivial, Or.inl ⟨rfl, held, continues⟩⟩
  | false =>
      exact ⟨inv.keeps (after_trapped _) rfl rfl rfl (Or.inl rfl), fun _ _ => trivial,
        held_keeps (after_trapped _) rfl⟩

/-- What a call performs without the mutex: silent operations, and unsynchronized stores if
it is an attack or the rogue thread.
-/
inductive Unlocked (call : Call) : Op → Prop where
  | silent {operation : Op} (silent : operation.silent = true)
      (notLoad : call = .threadA → ∀ target, operation ≠ .load target)
      : Unlocked call operation
  | copy {mode : AttackMode} (target : Alias) (value : UInt32) (isAttack : call = .attack mode)
      : Unlocked call (.copyToKernelNofault target value)
  | store {mode : UInt32} (target : Alias) (value : UInt32) (isRogue : call = .rogueC mode)
      : Unlocked call (.store target value)

/-- Code outside a critical section, by program induction. -/
theorem count_outside_all {prog : Kern Int} (all : prog.All (Unlocked call))
    : counting.Outside (machine page) p tid call prog ()
        (counting.discipline.Returns tid call) := by
  induction prog with
  | ret value =>
      apply LockDiscipline.Outside.ret
      intro w free _ inv
      have unchanged : (watchAfter w.history).after (.ret tid call value)
          = watchAfter w.history := rfl
      exact ⟨LockDiscipline.moves_intro (inv.keeps unchanged rfl rfl rfl (Or.inl rfl))
        (fun _ _ => rfl) (Or.inl ⟨rfl, held_keeps unchanged rfl⟩), free, trivial⟩
  | act operation next ih =>
      obtain ⟨first, rest⟩ := all
      cases first with
      | silent silent notLoad =>
          exact count_outside_silent silent notLoad (fun result => ih result (rest result))
      | copy target value isAttack =>
          subst isAttack
          exact count_outside_copy (fun result => ih result (rest result))
      | store target value isRogue =>
          subst isRogue
          exact count_outside_store (ih () (rest ()))

/-- The first read opens a window on the value it returns. -/
theorem count_first_load {n : Nat} {target : Alias} {next : UInt32 → Kern α}
    (continues
      : ∀ value, counting.Inside (machine page) p tid .threadA (next value)
          ⟨UInt32.ofNat n, n, some ⟨tid, value, none, false⟩⟩ () post)
    : counting.Inside (machine page) p tid .threadA (.act (.load target) next)
        ⟨UInt32.ofNat n, n, none⟩ () post := by
  apply LockDiscipline.Inside.act
  intro w owns heldIs _ inv
  refine ⟨trivial, ?_⟩
  intro choice _
  have none_ := hold_none heldIs rfl
  have counter : w.state.violationCounter = UInt32.ofNat n := congrArg Account.counter heldIs
  have violations : (watchAfter w.history).violations = n := congrArg Account.violations heldIs
  have opened : watchAfter (w.history ++ [.act tid .threadA (.load target) (some w.state.word)])
      = ⟨some ⟨tid, w.state.word, none, false⟩, n⟩ := by
    simp [Watch.after, watched, Watch.load, none_, violations]
  refine ⟨⟨inv.bufPtr, ?_, ?_, ?_⟩, fun _ _ => rfl, Or.inl ⟨owns, ?_⟩⟩
  · intro hold found
    rw [World.push_history, opened] at found
    cases found
    exact owns
  · intro hold found _
    rw [World.push_history, opened] at found
    cases found
    rfl
  · rw [World.push_history, opened]
    exact Or.inl counter
  · have held : counting.held (w.push w.state
        (.act tid .threadA (.load target) (some w.state.word)))
        = ⟨UInt32.ofNat n, n, some ⟨tid, w.state.word, none, false⟩⟩ := by
      simp only [counting, World.push_history, World.push_state, opened, counter]
      rfl
    rw [held]
    exact continues w.state.word

/-- The second read seals the window and returns its last unsynchronized store, or what the
first read returned.
-/
theorem count_second_load {n : Nat} {first : UInt32} {target : Alias} {next : UInt32 → Kern α}
    (continues
      : ∀ last : Option UInt32, counting.Inside (machine page) p tid .threadA
          (next (last.getD first)) ⟨UInt32.ofNat n, n, some ⟨tid, first, last, true⟩⟩ () post)
    : counting.Inside (machine page) p tid .threadA (.act (.load target) next)
        ⟨UInt32.ofNat n, n, some ⟨tid, first, none, false⟩⟩ () post := by
  apply LockDiscipline.Inside.act
  intro w owns heldIs _ inv
  refine ⟨trivial, ?_⟩
  intro choice _
  have counter : w.state.violationCounter = UInt32.ofNat n := congrArg Account.counter heldIs
  have violations : (watchAfter w.history).violations = n := congrArg Account.violations heldIs
  have settled : (watchAfter w.history).hold.map Hold.settled
      = some ⟨tid, first, none, false⟩ := congrArg Account.hold heldIs
  obtain ⟨⟨owner, firstRead, last, isSealed⟩, found, view⟩ := Option.map_eq_some_iff.mp settled
  -- Only the unsealed view hides the last store, so this window is still unsealed.
  have unsealed : isSealed = false := by
    cases isSealed with
    | false => rfl
    | true => simp [Hold.settled] at view
  subst unsealed
  simp only [Hold.settled, Bool.false_eq_true, if_false, Hold.mk.injEq] at view
  obtain ⟨rfl, rfl, -, -⟩ := view
  have word : w.state.word = last.getD firstRead := inv.current _ found rfl
  have opened : watchAfter (w.history
        ++ [.act owner .threadA (.load target) (some w.state.word)])
      = ⟨some ⟨owner, firstRead, last, true⟩, n⟩ := by
    simp [Watch.after, watched, Watch.load, found, violations]
  refine ⟨⟨inv.bufPtr, ?_, ?_, ?_⟩, fun _ _ => rfl, Or.inl ⟨owns, ?_⟩⟩
  · intro hold sealed_
    rw [World.push_history, opened] at sealed_
    cases sealed_
    exact owns
  · intro hold sealed_ stillOpen
    rw [World.push_history, opened] at sealed_
    cases sealed_
    cases stillOpen
  · rw [World.push_history, opened]
    exact Or.inl counter
  · have held : counting.held (w.push w.state
        (.act owner .threadA (.load target) (some w.state.word)))
        = ⟨UInt32.ofNat n, n, some ⟨owner, firstRead, last, true⟩⟩ := by
      simp only [counting, World.push_history, World.push_state, opened, counter]
      rfl
    rw [held, word]
    exact continues last

/-- Counting a violated window. -/
theorem count_violation {n : Nat} {hold : Hold} {next : Unit → Kern α}
    (isSealed : hold.isSealed = true) (violated : hold.violated = true)
    (continues
      : counting.Inside (machine page) p tid .threadA (next ())
          ⟨UInt32.ofNat (n + 1), n, some hold⟩ () post)
    : counting.Inside (machine page) p tid .threadA
        (.act (.writeCounter .violation (UInt32.ofNat n + 1)) next)
        ⟨UInt32.ofNat n, n, some hold⟩ () post := by
  apply LockDiscipline.Inside.act
  intro w owns heldIs _ inv
  refine ⟨trivial, ?_⟩
  intro choice _
  have violations : (watchAfter w.history).violations = n := congrArg Account.violations heldIs
  have found := hold_sealed heldIs rfl isSealed
  have successor : UInt32.ofNat n + 1 = UInt32.ofNat (n + 1) := by simp [UInt32.ofNat_add]
  have unwatched : watchAfter (w.history
        ++ [.act tid .threadA (.writeCounter .violation (UInt32.ofNat n + 1)) (some ())])
      = watchAfter w.history := by
    simp [Watch.after, watched, unsynchronized]
  refine ⟨⟨inv.bufPtr, ?_, ?_, ?_⟩, fun _ _ => rfl, Or.inl ⟨owns, ?_⟩⟩
  · rw [World.push_history, unwatched]
    exact inv.owner
  · rw [World.push_history, unwatched]
    exact inv.current
  · rw [World.push_history, unwatched, violations]
    exact Or.inr ⟨hold, found, isSealed, violated, successor⟩
  · have held : counting.held (w.push { w.state with violationCounter := UInt32.ofNat n + 1 }
        (.act tid .threadA (.writeCounter .violation (UInt32.ofNat n + 1)) (some ())))
        = ⟨UInt32.ofNat (n + 1), n, some hold⟩ := by
      simp only [counting, World.push_history, World.push_state, unwatched, violations,
        successor, found]
      simp [Hold.settled, isSealed]
    exact held ▸ continues

/-- Thread A's release ends its window, which counts if it was violated. -/
theorem count_release {counter : UInt32} {n : Nat} {hold : Hold} {next : Unit → Kern α}
    (isSealed : hold.isSealed = true) (own : hold.tid = tid)
    (counted : counter = UInt32.ofNat (n + if hold.violated then 1 else 0))
    (continues : counting.Outside (machine page) p tid .threadA (next ()) () post)
    : counting.Inside (machine page) p tid .threadA (.act .mutexUnlock next)
        ⟨counter, n, some hold⟩ () post := by
  apply LockDiscipline.Inside.act
  intro w _ heldIs _ inv
  refine ⟨trivial, ?_⟩
  intro choice _
  have counterIs : w.state.violationCounter = counter := congrArg Account.counter heldIs
  have violations : (watchAfter w.history).violations = n := congrArg Account.violations heldIs
  have found := hold_sealed heldIs rfl isSealed
  have ended : watchAfter (w.history ++ [.act tid .threadA .mutexUnlock (some ())])
      = ⟨none, n + if hold.violated then 1 else 0⟩ := by
    simp [Watch.after, watched, Watch.unlock, found, own, violations]
  refine ⟨⟨inv.bufPtr, ?_, ?_, ?_⟩, fun _ _ => rfl, Or.inr ⟨rfl, continues⟩⟩
  · intro current opened
    rw [World.push_history, ended] at opened
    cases opened
  · intro current opened
    rw [World.push_history, ended] at opened
    cases opened
  · rw [World.push_history, ended]
    exact Or.inl (counterIs.trans counted)

/-- Thread A's turn from the moment it has the mutex. -/
theorem count_holdWindow (n : Nat)
    : counting.Inside (machine page) p tid .threadA holdWindow ⟨UInt32.ofNat n, n, none⟩ ()
        (counting.discipline.Returns tid .threadA) := by
  -- `safety_buf_ptr` is not null, so both reads are loads.
  refine count_plain rfl (fun _ _ => by simp) (fun k _ ptr _ bufPtr _ read => ?_)
  have ptrIs : ptr = some .direct := by
    cases read
    exact bufPtr
  subst ptrIs
  refine count_first_load (fun initialVal => ?_)
  refine count_plain rfl (fun _ _ => by simp) (fun k _ ptr _ bufPtr _ read => ?_)
  have ptrIs : ptr = some .direct := by
    cases read
    exact bufPtr
  subst ptrIs
  refine count_second_load (fun last => ?_)
  have violated : (Hold.mk tid initialVal last true).violated
      = decide (last.getD initialVal ≠ initialVal) := by
    cases last <;> simp [Hold.violated]
  by_cases differs : last.getD initialVal ≠ initialVal
  · rw [if_pos differs]
    refine count_plain rfl (fun _ _ => by simp) (fun k _ value _ _ counter read => ?_)
    have valueIs : value = UInt32.ofNat n := by
      cases read
      exact counter
    subst valueIs
    refine count_violation rfl (by rw [violated]; simpa using differs) ?_
    exact count_release rfl rfl (by simp [violated, differs]) (count_outside_all trivial)
  · rw [if_neg differs]
    exact count_release rfl rfl (by simp [violated, differs]) (count_outside_all trivial)

/-- One turn of thread A, with or without contention. -/
theorem count_threadA
    : counting.Outside (machine page) p tid .threadA safetyThreadAFn ()
        (counting.discipline.Returns tid .threadA) := by
  rw [safetyThreadAFn_eq]
  apply LockDiscipline.Outside.act
  intro w _ _ inv
  refine ⟨trivial, ?_⟩
  intro choice _
  simp only [machine, exec]
  by_cases unowned : w.state.safetyMutex = none
  · simp only [unowned, if_true]
    have unwatched : watched (.act tid .threadA .mutexTrylock (some true)) = .nothing := rfl
    obtain ⟨inv', n, heldIs⟩ := inv.acquire unowned unwatched
    refine ⟨inv', fun _ _ => trivial, Or.inr ⟨unowned, rfl, ?_⟩⟩
    rw [heldIs]
    exact count_holdWindow n
  · simp only [unowned, if_false]
    have unchanged : (watchAfter w.history).after (.act tid .threadA .mutexTrylock (some false))
        = watchAfter w.history := rfl
    refine ⟨inv.keeps unchanged rfl rfl rfl (Or.inl rfl), fun _ _ => trivial,
      Or.inl ⟨trivial, held_keeps unchanged rfl, ?_⟩⟩
    refine count_outside_silent rfl (fun _ _ => by simp) (fun value => ?_)
    refine count_outside_silent rfl (fun _ _ => by simp) (fun _ => ?_)
    exact count_lock count_holdWindow

/-- Code that stores and changes permissions until it releases the mutex. -/
def CriticalSection : Kern Int → Prop
  | .ret _ => False
  | .act operation next =>
      (operation = .mutexUnlock
        ∧ ∀ result, (next result).All (fun later => later.silent = true))
      ∨ ((operation.plain = true ∨ ∃ target value, operation = .store target value)
        ∧ ∀ result, CriticalSection (next result))

namespace CriticalSection

theorem plain {operation : Op} {next : operation.Res → Kern Int}
    (isPlain : operation.plain = true) (rest : ∀ result, CriticalSection (next result))
    : CriticalSection (.act operation next) :=
  Or.inr ⟨Or.inl isPlain, rest⟩

theorem store {target : Alias} {value : UInt32} {next : Unit → Kern Int}
    (rest : CriticalSection (next ()))
    : CriticalSection (.act (.store target value) next) :=
  Or.inr ⟨Or.inr ⟨target, value, rfl⟩, fun _ => rest⟩

theorem unlock {next : Unit → Kern Int}
    (silent : (next ()).All (fun later => later.silent = true))
    : CriticalSection (.act .mutexUnlock next) :=
  Or.inl ⟨rfl, fun _ => silent⟩

theorem onVmalloc {write : Bool} {next : Int → Kern Int}
    (rest : ∀ err, CriticalSection (next err))
    : CriticalSection (Kernel.onVmalloc page write next) := by
  unfold Kernel.onVmalloc
  split
  · exact plain rfl rest
  · exact rest 0

end CriticalSection

/-- A critical section of a cooperating caller disturbs no window: while it owns the mutex
there is none.
-/
theorem count_section (unwatched
      : ∀ operation result, watched (.act tid call operation result) = .nothing)
    (notA : call ≠ .threadA) {prog : Kern Int} (h : CriticalSection prog)
    (none_ : account.hold = none)
    : counting.Inside (machine page) p tid call prog account ()
        (counting.discipline.Returns tid call) := by
  induction prog with
  | ret value => exact h.elim
  | act operation next ih =>
      rcases h with ⟨rfl, silent⟩ | ⟨plain | ⟨target, value, rfl⟩, rest⟩
      · refine count_unlock none_ (unwatched _ _) (count_outside_all ((silent ()).imp ?_))
        exact fun _ quiet => .silent quiet (fun isA => absurd isA notA)
      · refine count_plain plain (fun isA => absurd isA notA) ?_
        exact fun _ _ result _ _ _ _ => ih result (rest result)
      · refine count_keep (unwatched _) ?_ (fun _ _ result _ _ _ _ => ih result (rest result))
        intro k choice result k' executed
        simp only [exec] at executed
        split at executed
        · cases executed
          exact ⟨rfl, rfl, Or.inr none_, rfl⟩
        · cases executed

theorem safetyMemSetProtection_section (page : SafetyPage) (enable : Bool)
    : ∃ rest, safetyMemSetProtection page enable = .act .mutexLock (fun _ => rest)
        ∧ CriticalSection rest := by
  cases enable with
  | false =>
      refine ⟨_, safetyMemSetProtection_false page, ?_⟩
      refine .plain rfl (fun _ => .plain rfl (fun retVirt => .onVmalloc (fun retVmalloc => ?_)))
      exact .plain rfl (fun _ => .unlock (walkAndReturn_silent page retVirt retVmalloc))
  | true =>
      refine ⟨_, safetyMemSetProtection_true page, ?_⟩
      refine .plain rfl (fun _ => .plain rfl (fun retVirt => .onVmalloc (fun retVmalloc => ?_)))
      refine .plain rfl (fun _ => .plain rfl (fun _ => .plain rfl (fun _ => ?_)))
      exact .unlock (walkAndReturn_silent page retVirt retVmalloc)

theorem safetyMemSafeWrite_section (page : SafetyPage) (val : UInt32)
    : ∃ rest, safetyMemSafeWrite page val = .act .mutexLock (fun _ => rest)
        ∧ CriticalSection rest := by
  refine ⟨_, safetyMemSafeWrite_eq page val, .plain rfl (fun wasRo => ?_)⟩
  cases wasRo with
  | false => exact .store (.unlock trivial)
  | true =>
      refine .plain rfl (fun _ => .onVmalloc (fun _ => .store ?_))
      exact .plain rfl (fun _ => .onVmalloc (fun _ => .unlock trivial))

theorem coopThreadBFn_section
    : ∃ rest, coopThreadBFn = .act .mutexLock (fun _ => rest) ∧ CriticalSection rest := by
  refine ⟨_, coopThreadBFn_eq, .plain rfl (fun ptr => ?_)⟩
  cases ptr with
  | none => exact .unlock trivial
  | some ptr => exact .store (.unlock trivial)

theorem counting_sound : counting.discipline.Sound (machine page) untampered := by
  intro tid call w admitted inv atRest
  obtain ⟨free, _⟩ := atRest
  have unchanged : (watchAfter w.history).after (.call tid call) = watchAfter w.history := rfl
  refine ⟨LockDiscipline.moves_intro (CountInv.keeps inv unchanged rfl rfl rfl (Or.inl rfl))
    (fun _ _ => rfl) (Or.inl ⟨rfl, held_keeps unchanged rfl⟩), ?_⟩
  refine (?_ : counting.Outside (machine page) untampered tid call ((machine page).body call)
    () _) _ free rfl
  have locked (notA : call ≠ .threadA) (notRogue : ∀ mode, call ≠ .rogueC mode)
      (notAttack : ∀ mode, call ≠ .attack mode)
      (isSection
        : ∃ rest, (machine page).body call = .act .mutexLock (fun _ => rest)
            ∧ CriticalSection rest)
      : counting.Outside (machine page) untampered tid call ((machine page).body call) ()
          (counting.discipline.Returns tid call) := by
    obtain ⟨rest, isBody, section_⟩ := isSection
    rw [isBody]
    exact count_lock (fun n =>
      count_section (watched_synchronized notA notRogue notAttack) notA section_ rfl)
  cases call with
  | setProtection enable =>
      exact locked (by simp) (by simp) (by simp) (safetyMemSetProtection_section page enable)
  | safeWrite val =>
      exact locked (by simp) (by simp) (by simp) (safetyMemSafeWrite_section page val)
  | threadB => exact locked (by simp) (by simp) (by simp) coopThreadBFn_section
  | threadA => exact count_threadA
  | isProtected =>
      exact count_outside_all ⟨.silent rfl (by simp), fun _ => trivial⟩
  | attack mode =>
      refine count_outside_all ((executeAttack_ops page mode).imp ?_)
      intro operation performed
      rcases performed with silent | rfl
      · exact .silent silent (by simp)
      · exact .copy _ _ rfl
  | rogueC attackMode =>
      have unsynchronized := untampered_respects tid attackMode admitted
      refine count_outside_all ((rogueThreadCFn_ops unsynchronized).imp ?_)
      intro operation performed
      rcases performed with silent | ⟨target, value, rfl⟩
      · exact .silent silent (by simp)
      · exact .store target value rfl

-----------------------------------------------------------------------------------------
-- Every interleaving
-----------------------------------------------------------------------------------------

/-- In every interleaving without lock-metadata attacks, whenever no hold window is open the
counter is the number of violated windows modulo `2 ^ 32`; and as long as nobody stores
without the mutex it is zero.
-/
theorem violationCounter_exact {k : State} {c : KernelConfig} (loaded : Loaded page k)
    (reachable : (machine page).Reachable untampered (Config.start k) c)
    : ((watchAfter c.world.history).hold = none
        → c.world.state.violationCounter.toNat
          = (watchAfter c.world.history).violations % 2 ^ 32)
      ∧ ((∀ label ∈ c.world.history, unsynchronized label = none)
        → c.world.state.violationCounter = 0) := by
  have facts := loaded.facts
  have initially : CountInv ⟨k, []⟩ := by
    refine ⟨facts.bufPtr, ?_, ?_, Or.inl facts.violations⟩
    · intro hold found
      cases found
    · intro hold found
      cases found
  have inv : CountInv c.world :=
    (counting_sound.reachable (Discipline.ConfigOk.start initially
      (fun tid => ⟨by simp [counting, facts.mutex], trivial⟩)) reachable).inv
  refine ⟨?_, ?_⟩
  · intro closed
    rcases inv.counted with exact_ | ⟨hold, found, _⟩
    · simp [exact_]
    · simp [closed] at found
  · intro undisturbed
    have watch := watchAfter_undisturbed undisturbed
    rcases inv.counted with exact_ | ⟨hold, found, _, violated, _⟩
    · rw [exact_, watch.violations]
      rfl
    · simp [Hold.violated, watch.unstored hold found] at violated

/-- Thread A's window with a rogue store between its reads, and one more turn without. -/
def storeInWindow : List (Event Nat Call Choice) :=
  .call 1 .threadA :: List.replicate 3 (.step 1 {})
    ++ wholeCall 3 (.rogueC rogueAttackUnsynchronizedWrite) (List.replicate 4 0)
    ++ List.replicate 5 (.step 1 {}) ++ [.ret 1]
    ++ wholeCall 1 .threadA (List.replicate 6 0)

theorem violationCounter_exact_sample
    : ∃ c,
        (machine (samplePage true)).Reachable untampered
          (Config.start (freshlyLoaded (samplePage true))) c
        ∧ (watchAfter c.world.history).violations = 1
        ∧ c.world.state.violationCounter.toNat = 1 := by
  obtain ⟨c, reachable, seen⟩ := Machine.Reachable.observed storeInWindow
    (fun c : KernelConfig =>
      ((watchAfter c.world.history).hold, (watchAfter c.world.history).violations))
    (show (Machine.run (machine (samplePage true)) untampered
      (Config.start (freshlyLoaded (samplePage true))) _).map _ = some (none, 1) from rfl)
  obtain ⟨closed, violations⟩ := Prod.mk.inj seen
  have counter := (violationCounter_exact (freshlyLoaded_loaded (samplePage true)) reachable).1
    closed
  rw [violations] at counter
  exact ⟨c, reachable, violations, counter⟩

end SafetyIsolation.Monitoring
